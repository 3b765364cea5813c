import Handoff.Json.Basic
import Handoff.Proofs.Number.Text
/-!
# JSON texts tell values apart

Two values with one text are the same value, as long as their numbers are finite: what is not a
number is written as `null`. Texts are compared with something behind them, so that the parts of a
list or an object can be compared one after the other. What follows a number must not go on with
it, which is what `Ends` says.

Results:
* `quote_append_inj`: a quoted text ends where its second bare quote stands.
* `chars_append_inj`, `text_inj`: the text of a value tells which value it is.
-/
namespace Handoff
open Number (isNumeric)

namespace Json

/-! ## Quoted texts -/

def hexDigitValue (c : Char) : Nat :=
  if c.isDigit then c.toNat - '0'.toNat else c.toNat - 'a'.toNat + 10

/-- The character that a code behind a backslash stands for, and what follows the code. -/
def readCode : List Char → Option (Char × List Char)
  | 'n' :: r => some ('\n', r)
  | 'r' :: r => some ('\r', r)
  | 't' :: r => some ('\t', r)
  | 'b' :: r => some ('\x08', r)
  | 'f' :: r => some ('\x0c', r)
  | 'u' :: _ :: _ :: a :: b :: r => some (Char.ofNat (16 * hexDigitValue a + hexDigitValue b), r)
  | c :: r => some (c, r)
  | [] => none

/-- The first character of what stands between quotes, and what follows it. -/
def readEscape : List Char → Option (Char × List Char)
  | c :: r => if c = '\\' then readCode r else some (c, r)
  | [] => none

theorem hexDigits_control : ∀ n < 32,
    Char.ofNat (16 * hexDigitValue (hexDigit (n / 16)) + hexDigitValue (hexDigit (n % 16))) =
      Char.ofNat n := by
  decide

theorem readEscape_escapeChar (c : Char) (r : List Char) :
    readEscape (escapeChar c ++ r) = some (c, r) := by
  unfold escapeChar
  split_ifs with quote slash feed return' tab back form control
  · rw [quote]; rfl
  · rw [slash]; rfl
  · rw [feed]; rfl
  · rw [return']; rfl
  · rw [tab]; rfl
  · rw [back]; rfl
  · rw [form]; rfl
  · show some (Char.ofNat _, r) = some (c, r)
    rw [hexDigits_control c.toNat control, Char.ofNat_toNat]
  · show (if c = '\\' then readCode r else some (c, r)) = some (c, r)
    rw [if_neg slash]

theorem escapeChar_ne_quote (c : Char) {r s : List Char} : escapeChar c ++ r ≠ '"' :: s := by
  intro eq
  have read := readEscape_escapeChar c r
  rw [eq] at read
  have same : '"' = c := congrArg (fun o => (o.map Prod.fst).getD ' ') read
  rw [← same] at eq
  exact absurd (List.cons.inj eq).1 (by decide)

theorem escaped_append_inj : ∀ {a b r s : List Char},
    a.flatMap escapeChar ++ '"' :: r = b.flatMap escapeChar ++ '"' :: s → a = b ∧ r = s
  | [], [], r, s, h => ⟨rfl, (List.cons.inj h).2⟩
  | [], d :: b, r, s, h => by
    rw [List.flatMap_cons, List.append_assoc] at h
    exact absurd h.symm (escapeChar_ne_quote d)
  | c :: a, [], r, s, h => by
    rw [List.flatMap_cons, List.append_assoc] at h
    exact absurd h (escapeChar_ne_quote c)
  | c :: a, d :: b, r, s, h => by
    rw [List.flatMap_cons, List.append_assoc, List.flatMap_cons, List.append_assoc] at h
    have read := congrArg readEscape h
    rw [readEscape_escapeChar, readEscape_escapeChar] at read
    obtain ⟨rfl, rest⟩ := Prod.mk.inj (Option.some.inj read)
    obtain ⟨rfl, same⟩ := escaped_append_inj rest
    exact ⟨rfl, same⟩

/-- A quoted text ends where its second bare quote stands. -/
theorem quote_append_inj {a b : String} {r s : List Char} (h : quote a ++ r = quote b ++ s) :
    a = b ∧ r = s := by
  have inner : a.toList.flatMap escapeChar ++ '"' :: r = b.toList.flatMap escapeChar ++ '"' :: s := by
    simpa [quote] using h
  obtain ⟨same, rest⟩ := escaped_append_inj inner
  exact ⟨String.toList_inj.mp same, rest⟩

/-! ## Numbers -/

/-- What follows a text does not go on with a number. -/
def Ends (r : List Char) : Prop := ∀ c rest, r = c :: rest → isNumeric c = false

theorem ends_nil : Ends [] := by
  intro c rest h
  cases h

theorem ends_cons {c : Char} {rest : List Char} (h : isNumeric c = false) : Ends (c :: rest) := by
  intro c' rest' eq
  cases eq
  exact h

theorem takeWhile_ends {a r : List Char} (all : ∀ c ∈ a, isNumeric c = true) (hr : Ends r) :
    (a ++ r).takeWhile isNumeric = a := by
  rw [List.takeWhile_append_of_pos all]
  cases r with
  | nil => exact List.append_nil a
  | cons c rest =>
    rw [List.takeWhile_cons_of_neg (by rw [hr c rest rfl]; decide), List.append_nil]

end Json

/-- Whether a numeral is a number that JSON can write. -/
def Numeral.Finite : Numeral → Prop
  | .integer _ => True
  | .real x => x.isFinite = true

namespace Json

theorem numeral_isNumeric {n : Numeral} (h : n.Finite) : ∀ c ∈ n.chars, isNumeric c = true := by
  cases n with
  | integer k => exact Number.isNumeric_toString k
  | real x =>
    have fin : x.isFinite = true := h
    unfold Numeral.chars
    dsimp only
    rw [if_pos fin]
    exact (Number.json_text_isReal fin).1

theorem numeral_chars_inj {n m : Numeral} (hn : n.Finite) (hm : m.Finite)
    (h : n.chars = m.chars) : n = m := by
  have real {x : Float} (fin : (Numeral.real x).Finite) :
      (Numeral.real x).chars = (Number.Spelling.json.text x).toList := if_pos fin
  have apart {k : Int} {x : Float} (fin : (Numeral.real x).Finite)
      (same : (toString k).toList = (Number.Spelling.json.text x).toList) : False := by
    obtain ⟨noPoint, noExponent⟩ := Number.not_mem_toString k
    rw [same] at noPoint noExponent
    exact (Number.json_text_isReal fin).2.elim noPoint noExponent
  cases n with
  | integer k =>
    cases m with
    | integer l =>
      have same := congrArg Number.readSigned (show (toString k).toList = (toString l).toList from h)
      rw [Number.readSigned_toString, Number.readSigned_toString] at same
      rw [same]
    | real y =>
      rw [real hm] at h
      exact (apart hm h).elim
  | real x =>
    cases m with
    | integer l =>
      rw [real hn] at h
      exact (apart hn h.symm).elim
    | real y =>
      rw [real hn, real hm] at h
      rw [Number.json_text_inj hn hm h]

theorem numeral_append_inj {n m : Numeral} (hn : n.Finite) (hm : m.Finite) {r s : List Char}
    (hr : Ends r) (hs : Ends s) (h : n.chars ++ r = m.chars ++ s) : n = m ∧ r = s := by
  have front := congrArg (List.takeWhile isNumeric) h
  rw [takeWhile_ends (numeral_isNumeric hn) hr, takeWhile_ends (numeral_isNumeric hm) hs] at front
  rw [front] at h
  exact ⟨numeral_chars_inj hn hm front, List.append_cancel_left h⟩

theorem toString_ne_nil (k : Int) : (toString k).toList ≠ [] := by
  rw [Int.toString_eq_repr, Int.repr_eq_if]
  split
  · rw [Nat.toList_repr]
    exact Nat.toDigits_ne_nil
  · rw [String.toList_append]
    exact List.cons_ne_nil _ _

theorem numeral_chars_ne_nil {n : Numeral} (h : n.Finite) : n.chars ≠ [] := by
  cases n with
  | integer k => exact toString_ne_nil k
  | real x =>
    have fin : x.isFinite = true := h
    unfold Numeral.chars
    dsimp only
    rw [if_pos fin]
    intro none
    have marked := (Number.json_text_isReal fin).2
    rw [none] at marked
    exact marked.elim List.not_mem_nil List.not_mem_nil

/-! ## Values -/

/-- Whether all numbers in a value are numbers that JSON can write. -/
def Finite : Json → Prop
  | .number n => n.Finite
  | .array items => itemsFinite items
  | .object members => membersFinite members
  | _ => True
where
  itemsFinite : List Json → Prop
    | [] => True
    | v :: vs => Finite v ∧ itemsFinite vs
  membersFinite : List (String × Json) → Prop
    | [] => True
    | (_, v) :: rest => Finite v ∧ membersFinite rest

def moreItems : List Json → List Char
  | [] => []
  | v :: vs => ',' :: (v.chars ++ moreItems vs)

def moreMembers : List (String × Json) → List Char
  | [] => []
  | (key, v) :: rest => ',' :: (quote key ++ ':' :: (v.chars ++ moreMembers rest))

theorem itemChars_cons (v : Json) (vs : List Json) :
    chars.itemChars (v :: vs) = v.chars ++ moreItems vs := by
  induction vs generalizing v with
  | nil => simp [chars.itemChars, moreItems]
  | cons w ws ih => simp [chars.itemChars, moreItems, ih]

theorem memberChars_cons (key : String) (v : Json) (rest : List (String × Json)) :
    chars.memberChars ((key, v) :: rest) = quote key ++ ':' :: (v.chars ++ moreMembers rest) := by
  induction rest generalizing key v with
  | nil => simp [chars.memberChars, moreMembers]
  | cons e rest ih => simp [chars.memberChars, moreMembers, ih]

/-- What a value's text begins with. One character stands for both truth values, and one for all
that a number can begin with. -/
def lead : Json → Char
  | .null => 'n'
  | .boolean _ => 't'
  | .number _ => '0'
  | .string _ => '"'
  | .array _ => '['
  | .object _ => '\x7b'

/-- The character that stands for a first character. -/
def leadOf (c : Char) : Char :=
  if isNumeric c then '0' else if c = 'f' then 't' else c

theorem chars_lead {v : Json} (h : v.Finite) : ∃ c rest, v.chars = c :: rest ∧ leadOf c = v.lead := by
  cases v with
  | null => exact ⟨_, _, rfl, rfl⟩
  | boolean b => cases b <;> exact ⟨_, _, rfl, rfl⟩
  | number n =>
    have fin : n.Finite := h
    obtain ⟨c, rest, eq⟩ := List.exists_cons_of_ne_nil (numeral_chars_ne_nil fin)
    have numeric := numeral_isNumeric fin c (eq ▸ List.mem_cons_self ..)
    exact ⟨c, rest, eq, if_pos numeric⟩
  | string s => exact ⟨_, _, rfl, rfl⟩
  | array items => exact ⟨_, _, rfl, rfl⟩
  | object members => exact ⟨_, _, rfl, rfl⟩

theorem lead_eq {v w : Json} (hv : v.Finite) (hw : w.Finite) {r s : List Char}
    (h : v.chars ++ r = w.chars ++ s) : v.lead = w.lead := by
  obtain ⟨c, rest, ev, lv⟩ := chars_lead hv
  obtain ⟨d, rest', ew, lw⟩ := chars_lead hw
  rw [ev, ew] at h
  rw [← lv, ← lw, (List.cons.inj h).1]

theorem chars_ne_close {v : Json} (hv : v.Finite) {r s : List Char} : v.chars ++ r ≠ ']' :: s := by
  intro eq
  obtain ⟨c, rest, ev, lv⟩ := chars_lead hv
  rw [ev] at eq
  rw [(List.cons.inj eq).1] at lv
  cases v <;> exact absurd lv (of_decide_eq_false rfl)

theorem ends_moreItems (vs : List Json) (r : List Char) : Ends (moreItems vs ++ ']' :: r) := by
  cases vs with
  | nil => exact ends_cons (c := ']') rfl
  | cons v vs => exact ends_cons (c := ',') rfl

theorem ends_moreMembers (rest : List (String × Json)) (r : List Char) :
    Ends (moreMembers rest ++ '\x7d' :: r) := by
  cases rest with
  | nil => exact ends_cons (c := '\x7d') rfl
  | cons e rest => exact ends_cons (c := ',') rfl

theorem moreItems_cons (v : Json) (vs : List Json) (r : List Char) :
    moreItems (v :: vs) ++ r = ',' :: (v.chars ++ (moreItems vs ++ r)) := by
  simp [moreItems]

theorem moreMembers_cons (key : String) (v : Json) (rest : List (String × Json)) (r : List Char) :
    moreMembers ((key, v) :: rest) ++ r =
      ',' :: (quote key ++ ':' :: (v.chars ++ (moreMembers rest ++ r))) := by
  simp [moreMembers]

theorem array_chars (v : Json) (vs : List Json) (r : List Char) :
    (Json.array (v :: vs)).chars ++ r = '[' :: (v.chars ++ (moreItems vs ++ ']' :: r)) := by
  simp [chars, itemChars_cons]

theorem object_chars (key : String) (v : Json) (rest : List (String × Json)) (r : List Char) :
    (Json.object ((key, v) :: rest)).chars ++ r =
      '\x7b' :: (quote key ++ ':' :: (v.chars ++ (moreMembers rest ++ '\x7d' :: r))) := by
  simp [chars, memberChars_cons]

mutual

/-- The text of a value tells which value it is, whatever follows that does not go on with a
number. -/
theorem chars_append_inj {v w : Json} (hv : v.Finite) (hw : w.Finite) {r s : List Char}
    (hr : Ends r) (hs : Ends s) (h : v.chars ++ r = w.chars ++ s) : v = w ∧ r = s := by
  have lead := lead_eq hv hw h
  cases v with
  | null =>
    cases w with
    | null => exact ⟨rfl, List.append_cancel_left h⟩
    | _ => exact absurd lead (of_decide_eq_false rfl)
  | boolean a =>
    cases w with
    | boolean b =>
      cases a with
      | false =>
        cases b with
        | false => exact ⟨rfl, List.append_cancel_left h⟩
        | true => exact absurd (List.cons.inj h).1 (by decide)
      | true =>
        cases b with
        | false => exact absurd (List.cons.inj h).1 (by decide)
        | true => exact ⟨rfl, List.append_cancel_left h⟩
    | _ => exact absurd lead (of_decide_eq_false rfl)
  | number n =>
    cases w with
    | number m =>
      obtain ⟨rfl, rest⟩ := numeral_append_inj hv hw hr hs h
      exact ⟨rfl, rest⟩
    | _ => exact absurd lead (of_decide_eq_false rfl)
  | string a =>
    cases w with
    | string b =>
      obtain ⟨rfl, rest⟩ := quote_append_inj h
      exact ⟨rfl, rest⟩
    | _ => exact absurd lead (of_decide_eq_false rfl)
  | array vs =>
    cases w with
    | array ws =>
      obtain ⟨rfl, rest⟩ := items_append_inj hv hw h
      exact ⟨rfl, rest⟩
    | _ => exact absurd lead (of_decide_eq_false rfl)
  | object vs =>
    cases w with
    | object ws =>
      obtain ⟨rfl, rest⟩ := members_append_inj hv hw h
      exact ⟨rfl, rest⟩
    | _ => exact absurd lead (of_decide_eq_false rfl)

theorem items_append_inj {vs ws : List Json} (hv : Finite.itemsFinite vs)
    (hw : Finite.itemsFinite ws) {r s : List Char}
    (h : (Json.array vs).chars ++ r = (Json.array ws).chars ++ s) : vs = ws ∧ r = s := by
  match vs, ws with
  | [], [] => exact ⟨rfl, List.append_cancel_left h⟩
  | [], w :: ws =>
    rw [array_chars] at h
    exact absurd (List.cons.inj h).2.symm (chars_ne_close hw.1)
  | v :: vs, [] =>
    rw [array_chars] at h
    exact absurd (List.cons.inj h).2 (chars_ne_close hv.1)
  | v :: vs, w :: ws =>
    rw [array_chars, array_chars] at h
    obtain ⟨rfl, more⟩ := chars_append_inj hv.1 hw.1 (ends_moreItems vs r) (ends_moreItems ws s)
      (List.cons.inj h).2
    obtain ⟨rfl, rest⟩ := moreItems_append_inj hv.2 hw.2 more
    exact ⟨rfl, rest⟩

theorem members_append_inj {vs ws : List (String × Json)} (hv : Finite.membersFinite vs)
    (hw : Finite.membersFinite ws) {r s : List Char}
    (h : (Json.object vs).chars ++ r = (Json.object ws).chars ++ s) : vs = ws ∧ r = s := by
  match vs, ws with
  | [], [] => exact ⟨rfl, List.append_cancel_left h⟩
  | [], (l, w) :: ws =>
    rw [object_chars] at h
    exact absurd (List.cons.inj (List.cons.inj h).2).1 (by decide)
  | (k, v) :: vs, [] =>
    rw [object_chars] at h
    exact absurd (List.cons.inj (List.cons.inj h).2).1 (by decide)
  | (k, v) :: vs, (l, w) :: ws =>
    rw [object_chars, object_chars] at h
    obtain ⟨rfl, value⟩ := quote_append_inj (List.cons.inj h).2
    obtain ⟨rfl, more⟩ := chars_append_inj hv.1 hw.1 (ends_moreMembers vs r)
      (ends_moreMembers ws s) (List.cons.inj value).2
    obtain ⟨rfl, rest⟩ := moreMembers_append_inj hv.2 hw.2 more
    exact ⟨rfl, rest⟩

theorem moreItems_append_inj {vs ws : List Json} (hv : Finite.itemsFinite vs)
    (hw : Finite.itemsFinite ws) {r s : List Char}
    (h : moreItems vs ++ ']' :: r = moreItems ws ++ ']' :: s) : vs = ws ∧ r = s := by
  match vs, ws with
  | [], [] => exact ⟨rfl, (List.cons.inj h).2⟩
  | [], w :: ws => exact absurd (List.cons.inj h).1 (by decide)
  | v :: vs, [] => exact absurd (List.cons.inj h).1 (by decide)
  | v :: vs, w :: ws =>
    rw [moreItems_cons, moreItems_cons] at h
    obtain ⟨rfl, more⟩ := chars_append_inj hv.1 hw.1 (ends_moreItems vs r) (ends_moreItems ws s)
      (List.cons.inj h).2
    obtain ⟨rfl, rest⟩ := moreItems_append_inj hv.2 hw.2 more
    exact ⟨rfl, rest⟩

theorem moreMembers_append_inj {vs ws : List (String × Json)} (hv : Finite.membersFinite vs)
    (hw : Finite.membersFinite ws) {r s : List Char}
    (h : moreMembers vs ++ '\x7d' :: r = moreMembers ws ++ '\x7d' :: s) : vs = ws ∧ r = s := by
  match vs, ws with
  | [], [] => exact ⟨rfl, (List.cons.inj h).2⟩
  | [], (l, w) :: ws => exact absurd (List.cons.inj h).1 (by decide)
  | (k, v) :: vs, [] => exact absurd (List.cons.inj h).1 (by decide)
  | (k, v) :: vs, (l, w) :: ws =>
    rw [moreMembers_cons, moreMembers_cons] at h
    obtain ⟨rfl, value⟩ := quote_append_inj (List.cons.inj h).2
    obtain ⟨rfl, more⟩ := chars_append_inj hv.1 hw.1 (ends_moreMembers vs r)
      (ends_moreMembers ws s) (List.cons.inj value).2
    obtain ⟨rfl, rest⟩ := moreMembers_append_inj hv.2 hw.2 more
    exact ⟨rfl, rest⟩

end

/-- The text of a value tells which value it is. -/
theorem text_inj {v w : Json} (hv : v.Finite) (hw : w.Finite) (h : v.text = w.text) : v = w := by
  have same : v.chars ++ [] = w.chars ++ [] := by
    rw [List.append_nil, List.append_nil]
    exact String.ofList_inj.mp h
  exact (chars_append_inj hv hw ends_nil ends_nil same).1

end Json
end Handoff
