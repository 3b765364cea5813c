import Handoff.Audit.ButtonRole
import Handoff.Proofs.Markup.Tags
import Handoff.Proofs.Text.Gaps
/-!
# Finding the button role

The search for the role goes through a whole file, of which the elements are only one part. `Finds`
says which tag names are found in a part, whatever follows; parts can be put together. A part without
an opening bracket has none, and a part with brackets around tags only has those of its tags.

The search does not see how wide the gaps of a text are, so it does not see indentation.

Results:
* `isSome_behindAttr?_iff`: what the search looks for behind the name of a tag.
* `names_squeeze`: gaps do not count.
* `finds_of_scan`: what is found in a text that is known tag by tag.
-/
namespace Handoff.ButtonRole
open Markup (Bare scan)

/-! ## Behind the name of a tag -/

/-- A text without a mark stands at the start of another one, or does not, before the first mark. -/
theorem prefix_append_mark {p a b : List Char} {c : Char} (h : c ∉ p) :
    p <+: a ++ c :: b ↔ p <+: a := by
  induction p generalizing a with
  | nil => simp
  | cons x p ih =>
    have rest : c ∉ p := fun mem => h (List.mem_cons_of_mem _ mem)
    cases a with
    | nil =>
      have first : x ≠ c := fun eq => h (eq ▸ List.mem_cons_self ..)
      simp [first]
    | cons y a => rw [List.cons_append, List.cons_prefix_cons, List.cons_prefix_cons, ih rest]

theorem behindAttr?_closed (rest : List Char) : behindAttr? ('>' :: rest) = none := by
  rw [behindAttr?, if_pos rfl]

theorem behindAttr?_cons {c : Char} (inside : c ≠ '>') (rest : List Char) :
    behindAttr? (c :: rest) = (behindAttr? rest).or
      (if Text.isBlank c = true ∧ attr <+: rest then some (rest.drop attr.length) else none) := by
  rw [behindAttr?, if_neg inside]
  cases behindAttr? rest with
  | some behind => rfl
  | none => simp only [Option.none_or, Bool.and_eq_true, List.isPrefixOf_iff_prefix]

theorem suffix_of_behindAttr? {cs behind : List Char} (h : behindAttr? cs = some behind) :
    behind <:+ cs := by
  induction cs with
  | nil => cases h
  | cons c rest ih =>
    by_cases inside : c = '>'
    · rw [inside, behindAttr?_closed] at h
      cases h
    · rw [behindAttr?_cons inside, Option.or_eq_some_iff] at h
      rcases h with later | ⟨-, here⟩
      · exact (ih later).trans (List.suffix_cons ..)
      · split at here
        · cases here
          exact (List.drop_suffix ..).trans (List.suffix_cons ..)
        · cases here

/-- The attribute is found behind a blank, anywhere in a tag. -/
theorem isSome_behindAttr?_iff {cs : List Char} (inside : '>' ∉ cs) :
    (behindAttr? cs).isSome = true ↔ ∃ c, Text.isBlank c = true ∧ (c :: attr) <:+: cs := by
  induction cs with
  | nil => simp [behindAttr?]
  | cons d rest ih =>
    have first : d ≠ '>' := fun eq => inside (eq ▸ List.mem_cons_self ..)
    have later := ih fun mem => inside (List.mem_cons_of_mem _ mem)
    have here : (if Text.isBlank d = true ∧ attr <+: rest then some (rest.drop attr.length)
        else none).isSome = true ↔ Text.isBlank d = true ∧ attr <+: rest := by
      split <;> simp [*]
    rw [behindAttr?_cons first, Option.isSome_or, Bool.or_eq_true, later, here]
    simp only [List.infix_cons_iff, List.cons_prefix_cons]
    constructor
    · rintro (⟨c, blank, found⟩ | ⟨blank, found⟩)
      · exact ⟨c, blank, .inr found⟩
      · exact ⟨d, blank, .inl ⟨rfl, found⟩⟩
    · rintro ⟨c, blank, ⟨rfl, found⟩ | found⟩
      · exact .inr ⟨blank, found⟩
      · exact .inl ⟨c, blank, found⟩

theorem behindAttr?_append {cs : List Char} (inside : '>' ∉ cs) (more : List Char) :
    behindAttr? (cs ++ '>' :: more) = (behindAttr? cs).map (· ++ '>' :: more) := by
  have mark : '>' ∉ attr := by decide
  induction cs with
  | nil => exact behindAttr?_closed more
  | cons c rest ih =>
    have first : c ≠ '>' := fun eq => inside (eq ▸ List.mem_cons_self ..)
    rw [List.cons_append, behindAttr?_cons first, behindAttr?_cons first,
      ih fun mem => inside (List.mem_cons_of_mem _ mem)]
    cases behindAttr? rest with
    | some behind => rfl
    | none =>
      simp only [Option.map_none, Option.none_or, prefix_append_mark mark]
      split
      · next found =>
        rw [List.drop_append_of_le_length found.2.length_le]
        rfl
      · rfl

/-! ## Tags -/

theorem run_append {c : Char} (stop : isNameChar c = false) (cs more : List Char) :
    (cs ++ c :: more).takeWhile isNameChar = cs.takeWhile isNameChar ∧
      (cs ++ c :: more).dropWhile isNameChar = cs.dropWhile isNameChar ++ c :: more := by
  induction cs with
  | nil => simp [stop]
  | cons d cs ih =>
    cases keep : isNameChar d with
    | true => simp [keep, ih]
    | false => simp [keep]

theorem tagAt?_tag (first : Char) (rest : List Char) : tagAt? ('<' :: first :: rest) =
    if first.isAlpha then (behindAttr? (rest.dropWhile isNameChar)).map fun behind =>
      (first :: rest.takeWhile isNameChar, behind)
    else none := rfl

theorem tagAt?_of_ne {c : Char} (h : c ≠ '<') (rest : List Char) : tagAt? (c :: rest) = none := by
  unfold tagAt?
  split
  · next eq => exact absurd (List.cons.inj eq).1 h
  · rfl

theorem suffix_of_tagAt? {c : Char} {rest name behind : List Char}
    (h : tagAt? (c :: rest) = some (name, behind)) : behind <:+ rest := by
  by_cases low : c = '<'
  · subst low
    cases rest with
    | nil => cases h
    | cons first rest =>
      rw [tagAt?_tag] at h
      split at h
      · obtain ⟨_, found, eq⟩ := Option.map_eq_some_iff.mp h
        cases eq
        exact ((suffix_of_behindAttr? found).trans (List.dropWhile_suffix _)).trans
          (List.suffix_cons ..)
      · cases h
  · rw [tagAt?_of_ne low] at h
    cases h

/-- The name that a tag without its brackets gives the role to. -/
def nameIn? (tag : List Char) : Option (List Char) :=
  (tagAt? ('<' :: tag)).map Prod.fst

theorem tagAt?_append {tag : List Char} (bare : Bare tag) (more : List Char) :
    tagAt? ('<' :: (tag ++ '>' :: more)) =
      (tagAt? ('<' :: tag)).map fun found => (found.1, found.2 ++ '>' :: more) := by
  have inside {cs : List Char} (sub : cs ⊆ tag) : '>' ∉ cs := fun mem => (bare _ (sub mem)).2 rfl
  cases tag with
  | nil => rfl
  | cons first rest =>
    have bracket : isNameChar '>' = false := by decide +kernel
    rw [List.cons_append, tagAt?_tag, tagAt?_tag]
    split
    · obtain ⟨taken, dropped⟩ := run_append bracket rest more
      rw [taken, dropped, behindAttr?_append, Option.map_map, Option.map_map]
      · rfl
      · exact inside (List.Subset.trans (List.dropWhile_sublist _).subset (List.subset_cons_self ..))
    · rfl

/-! ## Names -/

/-- The tag names that carry the role, as long as the text is. -/
def names (cs : List Char) : List (List Char) :=
  tagsWithin cs.length cs

theorem tags_eq (markup : String) : tags markup = names markup.toList := rfl

theorem tagsWithin_eq {n : Nat} : ∀ {m : Nat} {cs : List Char}, cs.length ≤ n → cs.length ≤ m →
    tagsWithin n cs = tagsWithin m cs := by
  induction n with
  | zero =>
    intro m cs hn _
    rw [List.length_eq_zero_iff.mp (Nat.le_zero.mp hn)]
    cases m <;> rfl
  | succ n ih =>
    intro m cs hn hm
    cases cs with
    | nil => cases m <;> rfl
    | cons c rest =>
      cases m with
      | zero => cases hm
      | succ m =>
        rw [List.length_cons] at hn hm
        rw [tagsWithin, tagsWithin]
        cases found : tagAt? (c :: rest) with
        | some tag =>
          have behind : tag.2 <:+ rest := suffix_of_tagAt? found
          have shorter := behind.length_le
          exact congrArg _ (ih (by omega) (by omega))
        | none => exact ih (by omega) (by omega)

theorem names_nil : names [] = [] := rfl

theorem names_of_some {c : Char} {rest name behind : List Char}
    (h : tagAt? (c :: rest) = some (name, behind)) : names (c :: rest) = name :: names behind := by
  have shorter := (suffix_of_tagAt? h).length_le
  rw [names, List.length_cons, tagsWithin, h]
  exact congrArg _ (tagsWithin_eq shorter (Nat.le_refl _))

theorem names_of_none {c : Char} {rest : List Char} (h : tagAt? (c :: rest) = none) :
    names (c :: rest) = names rest := by
  rw [names, List.length_cons, tagsWithin, h]
  rfl

theorem names_of_ne {c : Char} (h : c ≠ '<') (rest : List Char) : names (c :: rest) = names rest :=
  names_of_none (tagAt?_of_ne h rest)

/-! ## Gaps -/

open Text (squeeze isGap)

/-- Texts without gaps stand at the same places however wide the gaps are. -/
theorem prefix_squeeze {p : List Char} (solid : ∀ c ∈ p, isGap c = false) (cs : List Char) :
    (p <+: squeeze cs ↔ p <+: cs) ∧
      (p <+: cs → (squeeze cs).drop p.length = squeeze (cs.drop p.length)) := by
  induction p generalizing cs with
  | nil => simp
  | cons x p ih =>
    have first := solid x (List.mem_cons_self ..)
    cases cs with
    | nil => simp [squeeze]
    | cons c rest =>
      obtain ⟨same, dropped⟩ := ih (fun c hc => solid c (List.mem_cons_of_mem _ hc)) rest
      by_cases gap : isGap c = true
      · obtain ⟨more, eq⟩ := Text.exists_squeeze_gap gap rest
        have other : x ≠ c := by rintro rfl; rw [first] at gap; cases gap
        have space : x ≠ ' ' := by rintro rfl; cases first
        rw [eq]
        simp [List.cons_prefix_cons, other, space]
      · rw [Text.squeeze_keep (Bool.eq_false_iff.mpr gap), List.cons_prefix_cons,
          List.cons_prefix_cons, same]
        exact ⟨Iff.rfl, fun h => dropped h.2⟩

theorem isBlank_of_isGap {c : Char} (h : isGap c = true) : Text.isBlank c = true := by
  simp only [isGap, Bool.or_eq_true, beq_iff_eq] at h
  rcases h with (rfl | rfl) | rfl <;> rfl

theorem behindAttr?_squeeze (cs : List Char) :
    behindAttr? (squeeze cs) = (behindAttr? cs).map squeeze := by
  have solid : ∀ c ∈ attr, isGap c = false := by
    intro c hc
    have keep := List.all_eq_true.mp (rfl : attr.all (fun c => !isGap c) = true) c hc
    rwa [Bool.not_eq_true'] at keep
  induction cs with
  | nil => rfl
  | cons c rest ih =>
    obtain ⟨same, dropped⟩ := prefix_squeeze solid rest
    -- The step at `c`, with what `squeeze` makes of `c` as another blank or as itself.
    have step {d : Char} (hc : c ≠ '>') (hd : d ≠ '>') (blank : Text.isBlank d = Text.isBlank c) :
        behindAttr? (d :: squeeze rest) = (behindAttr? (c :: rest)).map squeeze := by
      rw [behindAttr?_cons hc, behindAttr?_cons hd, ih, blank]
      cases behindAttr? rest with
      | some behind => rfl
      | none =>
        simp only [Option.map_none, Option.none_or, same]
        split
        · next found => rw [dropped found.2]; rfl
        · rfl
    by_cases gap : isGap c = true
    · have inside : c ≠ '>' := by rintro rfl; cases gap
      rw [squeeze, if_pos gap]
      by_cases wide : rest.head?.any isGap = true
      · have absent : ¬attr <+: rest := by
          intro found
          obtain ⟨more, eq⟩ := found
          have first : rest.head? = some 'r' := by rw [← eq]; rfl
          rw [first] at wide
          cases wide
        rw [if_pos wide, behindAttr?_cons inside, if_neg fun h => absent h.2, Option.or_none, ih]
      · rw [if_neg wide]
        exact step inside (by decide) (isBlank_of_isGap gap).symm
    · rw [Text.squeeze_keep (Bool.eq_false_iff.mpr gap)]
      by_cases closed : c = '>'
      · rw [closed, behindAttr?_closed, behindAttr?_closed]
        rfl
      · exact step closed closed rfl

/-- A run of name characters ends at a gap, however wide it is. -/
theorem run_squeeze (cs : List Char) :
    (squeeze cs).takeWhile isNameChar = cs.takeWhile isNameChar ∧
      (squeeze cs).dropWhile isNameChar = squeeze (cs.dropWhile isNameChar) := by
  have stop {c : Char} (gap : isGap c = true) : isNameChar c = false := by
    simp only [isGap, Bool.or_eq_true, beq_iff_eq] at gap
    rcases gap with (rfl | rfl) | rfl <;> decide +kernel
  have space : isNameChar ' ' = false := stop rfl
  induction cs with
  | nil => exact ⟨rfl, rfl⟩
  | cons c rest ih =>
    by_cases gap : isGap c = true
    · obtain ⟨more, eq⟩ := Text.exists_squeeze_gap gap rest
      rw [List.takeWhile_cons_of_neg (by simp [stop gap]),
        List.dropWhile_cons_of_neg (by simp [stop gap]), eq]
      simp [space]
    · rw [Text.squeeze_keep (Bool.eq_false_iff.mpr gap)]
      cases keep : isNameChar c with
      | true => simp [keep, ih]
      | false => simp [keep, Text.squeeze_keep (Bool.eq_false_iff.mpr gap)]

theorem tagAt?_squeeze (rest : List Char) :
    tagAt? ('<' :: squeeze rest) =
      (tagAt? ('<' :: rest)).map fun found => (found.1, squeeze found.2) := by
  cases rest with
  | nil => rfl
  | cons first rest =>
    by_cases gap : isGap first = true
    · obtain ⟨more, eq⟩ := Text.exists_squeeze_gap gap rest
      have notAlpha : first.isAlpha = false := by
        simp only [isGap, Bool.or_eq_true, beq_iff_eq] at gap
        rcases gap with (rfl | rfl) | rfl <;> rfl
      rw [eq, tagAt?_tag, tagAt?_tag, notAlpha]
      rfl
    · obtain ⟨taken, dropped⟩ := run_squeeze rest
      rw [Text.squeeze_keep (Bool.eq_false_iff.mpr gap), tagAt?_tag, tagAt?_tag, taken, dropped,
        behindAttr?_squeeze]
      split
      · rw [Option.map_map, Option.map_map]
        rfl
      · rfl

/-- The search does not see how wide the gaps of a text are. -/
theorem names_squeeze (cs : List Char) : names (squeeze cs) = names cs := by
  cases cs with
  | nil => rfl
  | cons c rest =>
    by_cases low : c = '<'
    · subst low
      have tag := tagAt?_squeeze rest
      rw [Text.squeeze_keep rfl]
      cases found : tagAt? ('<' :: rest) with
      | none =>
        rw [found] at tag
        rw [names_of_none tag, names_of_none found]
        exact names_squeeze rest
      | some pair =>
        obtain ⟨name, behind⟩ := pair
        rw [found] at tag
        have shorter := (suffix_of_tagAt? found).length_le
        rw [names_of_some tag, names_of_some found, names_squeeze behind]
    · rw [names_of_ne low, squeeze]
      split
      · split
        · exact names_squeeze rest
        · rw [names_of_ne (by decide)]
          exact names_squeeze rest
      · rw [names_of_ne low]
        exact names_squeeze rest
termination_by cs.length

/-! ## Parts of a text -/

/-- A part of a text in which these tag names carry the role, whatever follows. -/
def Finds (text : List Char) (found : List (List Char)) : Prop :=
  ∀ rest, names (text ++ rest) = found ++ names rest

theorem Finds.names_eq {text : List Char} {found : List (List Char)} (h : Finds text found) :
    names text = found := by
  have whole := h []
  rwa [List.append_nil, names_nil, List.append_nil] at whole

theorem Finds.append {a b : List Char} {s t : List (List Char)} (ha : Finds a s) (hb : Finds b t) :
    Finds (a ++ b) (s ++ t) := by
  intro rest
  rw [List.append_assoc, ha, hb, List.append_assoc]

theorem finds_of_not_mem {text : List Char} (h : '<' ∉ text) : Finds text [] := by
  intro rest
  induction text with
  | nil => rfl
  | cons c cs ih =>
    have first : c ≠ '<' := fun eq => h (eq ▸ List.mem_cons_self ..)
    rw [List.cons_append, names_of_ne first, ih fun mem => h (List.mem_cons_of_mem _ mem)]

theorem finds_tag {tag : List Char} (bare : Bare tag) :
    Finds ('<' :: tag ++ ['>']) (nameIn? tag).toList := by
  intro rest
  have low {cs : List Char} (suffix : cs <:+ tag) : '<' ∉ cs ++ ['>'] := by
    rw [List.mem_append, List.mem_singleton, not_or]
    exact ⟨fun mem => (bare _ (suffix.subset mem)).1 rfl, by decide⟩
  have skip {cs : List Char} (suffix : cs <:+ tag) : names (cs ++ '>' :: rest) = names rest := by
    have plain := finds_of_not_mem (low suffix) rest
    rwa [List.append_assoc] at plain
  have appended := tagAt?_append bare rest
  rw [List.append_assoc, List.cons_append, List.singleton_append, nameIn?]
  cases found : tagAt? ('<' :: tag) with
  | none =>
    rw [found] at appended
    rw [names_of_none appended]
    exact skip (List.suffix_refl tag)
  | some pair =>
    obtain ⟨name, behind⟩ := pair
    rw [found] at appended
    rw [names_of_some appended, skip (suffix_of_tagAt? found)]
    rfl

/-- Outside of tags, and inside one that has begun, what is found is what is found in the tags read. -/
theorem finds_scanned (text : List Char) :
    (∀ tags, scan none text = some tags → Finds text (tags.filterMap nameIn?)) ∧
      ∀ begun tags, Bare begun → scan (some begun) text = some tags →
        Finds ('<' :: begun ++ text) (tags.filterMap nameIn?) := by
  induction text with
  | nil =>
    refine ⟨?_, fun begun tags _ h => by cases h⟩
    rintro tags h
    cases h
    exact fun _ => rfl
  | cons c cs ih =>
    obtain ⟨outside, inside⟩ := ih
    constructor
    · intro tags h
      rw [scan] at h
      split_ifs at h with low high
      · rw [low]
        exact inside [] tags Markup.bare_nil h
      · intro rest
        rw [List.cons_append, names_of_ne low]
        exact outside tags h rest
    · intro begun tags bare h
      rw [scan] at h
      split_ifs at h with high low
      · obtain ⟨later, read, rfl⟩ := Option.map_eq_some_iff.mp h
        have whole := (finds_tag bare).append (outside later read)
        have first : (begun :: later).filterMap nameIn? =
            (nameIn? begun).toList ++ later.filterMap nameIn? := by
          rw [List.filterMap_cons]
          cases nameIn? begun <;> rfl
        rw [List.append_assoc, List.singleton_append] at whole
        rwa [high, first]
      · have more := inside (begun ++ [c]) tags (bare.append (Markup.bare_nil.cons ⟨low, high⟩)) h
        rwa [← List.cons_append, List.append_assoc, List.singleton_append] at more

/-- What is found in a text with brackets around tags only is what is found in its tags. -/
theorem finds_of_scan {text : List Char} {tags : List (List Char)} (h : scan none text = some tags) :
    Finds text (tags.filterMap nameIn?) :=
  (finds_scanned text).1 tags h

end Handoff.ButtonRole
