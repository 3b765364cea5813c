import Handoff.Cache
import Handoff.Proofs.Options
/-!
# Key texts can be taken apart

The text of a key has colons between its parts, and a node's id or a breakpoint's name may hold colons,
quotes and braces of its own. What keeps the parts apart nevertheless is that digests have sixteen
digits and that an options text cannot begin within another one: its beginning is a brace, the
name `markup` and no digit, and where a brace stands inside another options text it is followed by
something else (`Unstarted`).

Results:
* `hex16_inj`: the text of a digest tells which digest it is.
* `append_options_inj`: what stands before an options text can be told from it.
* `text_parts`, `text_eq_iff`: for one scope and version, the text of a key tells its parts and nothing
  else.
-/
namespace Handoff
open Json (quote escapeChar)

/-! ## Digests -/

namespace CacheKey

/-- The number of digits in base 16. -/
def hexNumber (cs : List Char) : Nat :=
  cs.foldl (fun n c => 16 * n + Json.hexDigitValue c) 0

theorem hexNumber_append_digit (cs : List Char) (c : Char) :
    hexNumber (cs ++ [c]) = 16 * hexNumber cs + Json.hexDigitValue c := by
  rw [hexNumber, List.foldl_append]
  rfl

theorem hexDigitValue_digitChar : ∀ d < 16, Json.hexDigitValue d.digitChar = d := by
  decide

theorem hexNumber_toDigits (n : Nat) : hexNumber (Nat.toDigits 16 n) = n := by
  induction n using Nat.strongRecOn with
  | ind n ih =>
    by_cases small : n < 16
    · rw [Nat.toDigits_of_lt_base small]
      show 16 * 0 + Json.hexDigitValue n.digitChar = n
      rw [hexDigitValue_digitChar n small]
      omega
    · rw [Nat.toDigits_of_base_le (by decide) (by omega), hexNumber_append_digit,
        ih (n / 16) (by omega), hexDigitValue_digitChar _ (Nat.mod_lt _ (by decide))]
      omega

theorem hexNumber_zeros (k : Nat) (cs : List Char) :
    hexNumber (List.replicate k '0' ++ cs) = hexNumber cs := by
  induction k with
  | zero => rfl
  | succ k ih =>
    rw [List.replicate_succ, List.cons_append]
    exact ih

theorem hexNumber_hex16 (n : UInt64) : hexNumber (hex16 n).toList = n.toNat := by
  unfold hex16
  dsimp only
  rw [String.toList_ofList, hexNumber_zeros, hexNumber_toDigits]

theorem hex16_inj {m n : UInt64} (h : (hex16 m).toList = (hex16 n).toList) : m = n := by
  have same := congrArg hexNumber h
  rw [hexNumber_hex16, hexNumber_hex16] at same
  exact UInt64.toNat_inj.mp same

theorem length_hex16 (n : UInt64) : (hex16 n).toList.length = 16 := by
  have short : (Nat.toDigits 16 n.toNat).length ≤ 16 :=
    (Nat.length_toDigits_le_iff (by decide) (by decide)).mpr n.toNat_lt
  unfold hex16
  dsimp only
  rw [String.toList_ofList, List.length_append, List.length_replicate]
  omega

end CacheKey

/-! ## Where an options text can begin -/

namespace Options

/-- What begins as an options text does: the name `markup` and then no digit. -/
def Starts (cs : List Char) : Prop :=
  ∃ c r, cs = '\x7b' :: (quote "markup" ++ ':' :: c :: r) ∧ c.isDigit = false

/-- No options text begins anywhere in a text. -/
def Unstarted : List Char → Prop
  | [] => True
  | c :: cs => ¬Starts (c :: cs) ∧ Unstarted cs

theorem not_starts_of_unstarted {a b : List Char} (h : Unstarted (a ++ b)) (some : Starts b) :
    False := by
  induction a with
  | nil =>
    obtain ⟨c, r, rfl, digit⟩ := some
    exact h.1 ⟨c, r, rfl, digit⟩
  | cons x a ih => exact ih h.2

theorem unstarted_append {a cs : List Char} (noBrace : '\x7b' ∉ a) (h : Unstarted cs) :
    Unstarted (a ++ cs) := by
  induction a with
  | nil => exact h
  | cons x a ih =>
    rw [List.mem_cons, not_or] at noBrace
    refine ⟨?_, ih noBrace.2⟩
    rintro ⟨c, r, eq, -⟩
    exact noBrace.1 (List.cons.inj eq).1.symm

theorem brace_mem_escapeChar {c : Char} (h : '\x7b' ∈ escapeChar c) : c = '\x7b' := by
  have codes : ∀ n < 32, '\x7b' ∉ ['\\', 'u', '0', '0', Json.hexDigit (n / 16), Json.hexDigit (n % 16)] := by
    decide
  unfold escapeChar at h
  split_ifs at h with quote slash feed ret tab back form control
  · exact absurd h (by decide)
  · exact absurd h (by decide)
  · exact absurd h (by decide)
  · exact absurd h (by decide)
  · exact absurd h (by decide)
  · exact absurd h (by decide)
  · exact absurd h (by decide)
  · exact absurd h (codes c.toNat control)
  · exact (List.mem_singleton.mp h).symm

/-- Within a name a brace is never followed by a bare quote, save where the name ends, and then a colon
comes next. -/
theorem unstarted_escaped (name : List Char) {rest : List Char} (h : Unstarted rest) :
    Unstarted (name.flatMap escapeChar ++ '"' :: ':' :: rest) := by
  induction name with
  | nil => exact unstarted_append (a := ['"', ':']) (by decide) h
  | cons c name ih =>
    rw [List.flatMap_cons, List.append_assoc]
    by_cases brace : c = '\x7b'
    · subst brace
      refine ⟨?_, ih⟩
      rintro ⟨x, r, eq, -⟩
      have follows := (List.cons.inj eq).2
      cases name with
      | nil => exact absurd (List.cons.inj (List.cons.inj follows).2).1 (by decide)
      | cons d name =>
        rw [List.flatMap_cons, List.append_assoc] at follows
        exact Json.escapeChar_ne_quote d follows
    · exact unstarted_append (fun mem => brace (brace_mem_escapeChar mem)) ih

theorem unstarted_key (name : String) {rest : List Char} (h : Unstarted rest) :
    Unstarted (quote name ++ ':' :: rest) := by
  have text : quote name ++ ':' :: rest =
      ['"'] ++ (name.toList.flatMap escapeChar ++ '"' :: ':' :: rest) := by
    simp [quote]
  rw [text]
  exact unstarted_append (by decide) (unstarted_escaped _ h)

theorem brace_not_mem_integer (n : Nat) : '\x7b' ∉ (Json.number (.integer n)).chars := by
  intro mem
  have := Number.isNumeric_toString n _ mem
  exact absurd this (by decide)

theorem unstarted_moreWidths (entries : List (String × UInt32)) {rest : List Char}
    (h : Unstarted rest) : Unstarted (Json.moreMembers (widthMembers entries) ++ rest) := by
  induction entries with
  | nil => exact h
  | cons e entries ih =>
    show Unstarted (Json.moreMembers ((e.1, .number (.integer e.2.toNat)) :: widthMembers entries) ++
      rest)
    rw [Json.moreMembers_cons]
    apply unstarted_append (a := [',']) (by decide)
    exact unstarted_key _ (unstarted_append (brace_not_mem_integer _) ih)

theorem digit_toString (n : Nat) : ∃ c r, (toString (n : Int)).toList = c :: r ∧ c.isDigit = true := by
  have digits := Number.allDigits_toDigits n
  rw [Int.toString_eq_repr, Int.repr_eq_if, if_pos (by omega), Nat.toList_repr, Int.toNat_natCast]
  obtain ⟨c, r, eq⟩ := List.exists_cons_of_ne_nil (Nat.toDigits_ne_nil (n := n) (b := 10))
  exact ⟨c, r, eq, digits c (eq ▸ List.mem_cons_self ..)⟩

/-- An object of widths does not begin as options do: behind its first name stands a digit. -/
theorem not_starts_widths (entries : List (String × UInt32)) (rest : List Char) :
    ¬Starts ((Json.object (widthMembers entries)).chars ++ rest) := by
  rintro ⟨c, r, eq, digit⟩
  cases entries with
  | nil => exact absurd (List.cons.inj (List.cons.inj eq).2).1 (by decide)
  | cons e entries =>
    have first : widthMembers (e :: entries) =
        (e.1, .number (.integer e.2.toNat)) :: widthMembers entries := rfl
    rw [first, Json.object_chars] at eq
    obtain ⟨-, value⟩ := Json.quote_append_inj (List.cons.inj eq).2
    obtain ⟨d, s, text, isDigit⟩ := digit_toString e.2.toNat
    have chars : (Json.number (.integer e.2.toNat)).chars = d :: s := text
    rw [chars] at value
    rw [← (List.cons.inj (List.cons.inj value).2).1, isDigit] at digit
    cases digit

theorem unstarted_widths (entries : List (String × UInt32)) {rest : List Char} (h : Unstarted rest) :
    Unstarted ((Json.object (widthMembers entries)).chars ++ rest) := by
  have whole := not_starts_widths entries rest
  have close : Unstarted ('\x7d' :: rest) := unstarted_append (a := ['\x7d']) (by decide) h
  cases entries with
  | nil => exact ⟨whole, close⟩
  | cons e entries =>
    have first : widthMembers (e :: entries) =
        (e.1, .number (.integer e.2.toNat)) :: widthMembers entries := rfl
    rw [first, Json.object_chars] at whole ⊢
    refine ⟨whole, unstarted_key _ (unstarted_append (brace_not_mem_integer _) ?_)⟩
    exact unstarted_moreWidths entries close

theorem brace_not_mem_moreMembers {members : List (String × Json)}
    (h : ∀ e ∈ members, '\x7b' ∉ quote e.1 ∧ '\x7b' ∉ e.2.chars) :
    '\x7b' ∉ Json.moreMembers members := by
  induction members with
  | nil => exact List.not_mem_nil
  | cons e rest ih =>
    obtain ⟨key, v⟩ := e
    obtain ⟨hkey, hv⟩ := h _ (List.mem_cons_self ..)
    have hrest := ih fun e he => h e (List.mem_cons_of_mem _ he)
    unfold Json.moreMembers
    simp only [List.mem_cons, List.mem_append, not_or]
    exact ⟨by decide, hkey, by decide, hv, hrest⟩

/-- The members between the first and the last one. -/
def innerMembers (o : Options) : List (String × Json) :=
  [("stylesheet", orNull (fun d => .string d.name) o.stylesheet),
    ("typescript", .boolean o.typescript),
    ("includeAccessibility", .boolean o.includeAccessibility),
    ("includeResponsive", .boolean o.includeResponsive),
    ("optimizeImages", .boolean o.optimizeImages),
    ("auditProfile", .string o.auditProfile.name)]

theorem brace_not_mem_inner (o : Options) : '\x7b' ∉ Json.moreMembers o.innerMembers := by
  have flag (b : Bool) : '\x7b' ∉ (Json.boolean b).chars := by cases b <;> decide
  apply brace_not_mem_moreMembers
  simp only [innerMembers, List.forall_mem_cons]
  refine ⟨⟨by decide, ?_⟩, ⟨by decide, flag _⟩, ⟨by decide, flag _⟩, ⟨by decide, flag _⟩,
    ⟨by decide, flag _⟩, ⟨by decide, ?_⟩, List.forall_mem_nil _⟩
  · cases o.stylesheet with
    | none => decide
    | some d => cases d <;> decide
  · cases o.auditProfile <;> decide

def widthsJson (o : Options) : Json :=
  orNull (fun w => .object (widthMembers w.entries)) o.breakpoints

theorem chars_eq (o : Options) :
    o.toJson.chars = '\x7b' :: (quote "markup" ++
      ':' :: ((orNull (fun d => .string d.name) o.markup).chars ++ (Json.moreMembers o.innerMembers ++
        ',' :: (quote "breakpoints" ++ ':' :: (o.widthsJson.chars ++ ['\x7d']))))) := by
  have whole := Json.object_chars "markup" (orNull (fun d => .string d.name) o.markup)
    (o.innerMembers ++ [("breakpoints", o.widthsJson)]) []
  have members : ∀ a b : List (String × Json),
      Json.moreMembers (a ++ b) = Json.moreMembers a ++ Json.moreMembers b := by
    intro a b
    induction a with
    | nil => rfl
    | cons e a ih => rw [List.cons_append, Json.moreMembers, ih, ← Json.moreMembers_cons]
  rw [List.append_nil, members, List.append_assoc, Json.moreMembers_cons] at whole
  exact whole

theorem starts_chars (o : Options) : Starts o.toJson.chars := by
  rw [chars_eq]
  cases o.markup with
  | none => exact ⟨'n', _, rfl, rfl⟩
  | some d => exact ⟨'"', _, rfl, rfl⟩

theorem unstarted_tail (o : Options) {c : Char} {cs : List Char} (h : o.toJson.chars = c :: cs) :
    Unstarted cs := by
  have close : Unstarted ['\x7d'] := unstarted_append (a := ['\x7d']) (by decide) trivial
  have last : Unstarted (o.widthsJson.chars ++ ['\x7d']) := by
    unfold widthsJson
    cases o.breakpoints with
    | none => exact unstarted_append (by decide) close
    | some w => exact unstarted_widths w.entries close
  rw [chars_eq] at h
  rw [← (List.cons.inj h).2]
  apply unstarted_key
  apply unstarted_append
  · cases o.markup with
    | none => decide
    | some d => cases d <;> decide
  · apply unstarted_append (brace_not_mem_inner o)
    exact unstarted_append (a := [',']) (by decide) (unstarted_key _ last)

theorem suffix_chars {o p : Options} {front : List Char} (h : o.toJson.chars = front ++ p.toJson.chars) :
    front = [] := by
  cases front with
  | nil => rfl
  | cons c front => exact (not_starts_of_unstarted (unstarted_tail o h) (starts_chars p)).elim

/-- What stands before an options text can be told from it. -/
theorem append_options_inj {o p : Options} {a b : List Char}
    (h : a ++ o.toJson.chars = b ++ p.toJson.chars) : a = b ∧ o = p := by
  have same : a = b := by
    rcases List.append_eq_append_iff.mp h with ⟨front, eq, text⟩ | ⟨front, eq, text⟩
    · rw [eq, suffix_chars text, List.append_nil]
    · rw [eq, suffix_chars text, List.append_nil]
  subst same
  refine ⟨rfl, text_inj ?_⟩
  rw [Json.text, Json.text, List.append_cancel_left h]

end Options

namespace CacheKey

theorem toList_text (k : CacheKey) :
    k.text.toList = (k.scope ++ ":" ++ k.version ++ ":").toList ++
      (((k.nodeId.toList ++ ':' :: (hex16 k.nodeDigest).toList) ++ [':']) ++ k.options.toList ++
        ':' :: (hex16 k.customDigest).toList) := by
  unfold text textWith
  simp only [String.toList_append, List.append_assoc]
  rfl

/-- Texts that end in digests have equal digests if they are equal. -/
theorem append_digest_inj {a b : List Char} {m n : UInt64}
    (h : a ++ ':' :: (hex16 m).toList = b ++ ':' :: (hex16 n).toList) : a = b ∧ m = n := by
  obtain ⟨front, digest⟩ := List.append_inj' h (by simp [length_hex16])
  exact ⟨front, hex16_inj (List.cons.inj digest).2⟩

/-- For one scope and version, the text of a key tells the node's id, the options and both digests. -/
theorem text_parts {digest : Digest} {scope version : String} {n m : Node} {o p : Options}
    {c d : CustomCode}
    (h : (ofRequest digest scope version n o c).text = (ofRequest digest scope version m p d).text) :
    n.value.id = m.value.id ∧ digest (Node.toJson n).text = digest (Node.toJson m).text ∧ o = p ∧
      digest c.toJson.text = digest d.toJson.text := by
  have chars := congrArg String.toList h
  rw [toList_text, toList_text] at chars
  obtain ⟨front, custom⟩ := append_digest_inj (List.append_cancel_left chars)
  have options (o : Options) : o.toJson.text.toList = o.toJson.chars := String.toList_ofList
  simp only [ofRequest, options] at front
  obtain ⟨front, same⟩ := Options.append_options_inj front
  obtain ⟨id, node⟩ := append_digest_inj (List.append_cancel_right front)
  exact ⟨String.toList_inj.mp id, node, same, custom⟩

/-- For one scope and version, two requests share the text of their keys exactly if the nodes have the
same id and digest, the options are the same and custom code has the same digest. A key follows every
change of the options. -/
theorem text_eq_iff (digest : Digest) (scope version : String) :
    (∀ (n m : Node) (o p : Options) (c d : CustomCode),
      (ofRequest digest scope version n o c).text = (ofRequest digest scope version m p d).text ↔
        n.value.id = m.value.id ∧ digest (Node.toJson n).text = digest (Node.toJson m).text ∧ o = p ∧
          digest c.toJson.text = digest d.toJson.text) ∧
    ∀ (node : Node) (custom : CustomCode), Function.Injective fun options =>
      (ofRequest digest scope version node options custom).text := by
  refine ⟨fun n m o p c d => ⟨text_parts, ?_⟩, fun node custom o p same => (text_parts same).2.2.1⟩
  rintro ⟨id, node, rfl, custom⟩
  have parts : ofRequest digest scope version n o c = ofRequest digest scope version m o d := by
    unfold ofRequest
    rw [id, node, custom]
  rw [parts]

end CacheKey
end Handoff
