/-!
# Places in a text

A place in a text is a split of it: what stands before and what stands from there on. A search gives
such a split, so that what is put in between is all that changes.

Results: `splitFirst_eq`, `splitLast_eq` (a split loses nothing and the part found starts the second
half), `occursIn_iff` (a text is found exactly when it is an infix).
-/
namespace Handoff.Text

/-- Whether `needle` stands somewhere in a text. -/
def occursIn (needle : List Char) : List Char → Bool
  | [] => needle.isEmpty
  | c :: cs => needle.isPrefixOf (c :: cs) || occursIn needle cs

/-- The text split before the first place where `needle` stands. -/
def splitFirst (needle : List Char) : List Char → Option (List Char × List Char)
  | [] => if needle.isEmpty then some ([], []) else none
  | c :: cs =>
    if needle.isPrefixOf (c :: cs) then some ([], c :: cs)
    else (splitFirst needle cs).map fun (before, rest) => (c :: before, rest)

/-- The text split before the last place where `needle` stands. -/
def splitLast (needle : List Char) : List Char → Option (List Char × List Char)
  | [] => if needle.isEmpty then some ([], []) else none
  | c :: cs =>
    match splitLast needle cs with
    | some (before, rest) => some (c :: before, rest)
    | none => if needle.isPrefixOf (c :: cs) then some ([], c :: cs) else none

/-- The first place splits the text, and `needle` stands there. -/
theorem splitFirst_eq {needle cs before rest : List Char}
    (h : splitFirst needle cs = some (before, rest)) :
    cs = before ++ rest ∧ needle.isPrefixOf rest = true := by
  induction cs generalizing before rest with
  | nil =>
    unfold splitFirst at h
    split at h
    · next e => cases h; simp [List.isEmpty_iff.mp e]
    · cases h
  | cons c cs ih =>
    unfold splitFirst at h
    split at h
    · next e => cases h; exact ⟨rfl, e⟩
    · obtain ⟨⟨b, r⟩, hs, he⟩ := Option.map_eq_some_iff.mp h
      cases he
      obtain ⟨e, p⟩ := ih hs
      exact ⟨by rw [e]; rfl, p⟩

/-- The last place splits the text, and `needle` stands there. -/
theorem splitLast_eq {needle cs before rest : List Char}
    (h : splitLast needle cs = some (before, rest)) :
    cs = before ++ rest ∧ needle.isPrefixOf rest = true := by
  induction cs generalizing before rest with
  | nil =>
    unfold splitLast at h
    split at h
    · next e => cases h; simp [List.isEmpty_iff.mp e]
    · cases h
  | cons c cs ih =>
    unfold splitLast at h
    split at h
    · next b r hs =>
      cases h
      obtain ⟨e, p⟩ := ih hs
      exact ⟨by rw [e]; rfl, p⟩
    · split at h
      · next e => cases h; exact ⟨rfl, e⟩
      · cases h

/-- A text is found exactly where it is an infix. -/
theorem occursIn_iff {needle cs : List Char} : occursIn needle cs = true ↔ needle <:+: cs := by
  induction cs with
  | nil => simp [occursIn]
  | cons c cs ih =>
    rw [occursIn, Bool.or_eq_true, ih, List.isPrefixOf_iff_prefix, List.infix_cons_iff]

end Handoff.Text
