import Handoff.Proofs.Naming.Parts
/-!
# Names of components

However a name is cut into words and however these are joined again, nothing but what separates words
is lost, and only the case of letters changes. So the name of a component spells the letters and digits
of the name of its layer; `Component` stands in front where they would not begin an identifier.

Results:
* `Naming.filter_wordsOnly`: what is left of a name has all its letters and digits, in order.
* `Naming.componentName_spells`: names of components are identifiers, and what they spell.
-/
namespace Handoff

namespace Text

/-! ## Case -/

/-- Texts that differ in the case of letters only. -/
def SameButCase (a b : List Char) : Prop := a.map Char.toLower = b.map Char.toLower

theorem sameButCase_small (w : List Char) : SameButCase (small w) w := by
  unfold SameButCase small
  rw [List.map_map]
  exact List.map_congr_left fun c _ => Char.toLower_toLower_eq_toLower c

theorem sameButCase_capital (w : List Char) : SameButCase (capital w) w := by
  cases w with
  | nil => rfl
  | cons c rest =>
    show c.toUpper.toLower :: (small rest).map Char.toLower = c.toLower :: rest.map Char.toLower
    rw [Char.toLower_toUpper_eq_toLower, sameButCase_small rest]

theorem sameButCase_capitals (ws : List (List Char)) : SameButCase (ws.flatMap capital) ws.flatten := by
  induction ws with
  | nil => rfl
  | cons w ws ih =>
    unfold SameButCase at ih ⊢
    rw [List.flatMap_cons, List.flatten_cons, List.map_append, List.map_append, ih,
      sameButCase_capital w]

theorem isDigit_toLower (c : Char) : c.toLower.isDigit = c.isDigit := by
  by_cases upper : c.isUpper = true
  · have letter : c.isAlpha = true := by rw [Char.isAlpha, upper, Bool.true_or]
    have small : c.toLower.isLower = true := by rw [Char.isLower_toLower_eq_isAlpha, letter]
    rw [isDigit_eq_false_of_isLower small]
    exact (Bool.eq_false_iff.mpr fun digit => by simp [isUpper_eq_false_of_isDigit digit] at upper).symm
  · rw [Char.toLower_eq_of_not_isUpper upper]

/-- Texts that differ in case begin with a digit, or are empty, both or neither. -/
theorem SameButCase.head_isDigit {a b : List Char} (h : SameButCase a b) :
    a.head?.all Char.isDigit = b.head?.all Char.isDigit := by
  have heads := congrArg (fun cs : List Char => cs.head?.all Char.isDigit) h
  simpa only [List.head?_map, Option.all_map, Function.comp_def, isDigit_toLower] using heads

end Text

namespace Naming

/-! ## Letters and digits of a name -/

def keptChars (cs : List Char) : List Char := cs.filter Char.isAlphanum

theorem keptChars_kept {c : Char} (kept : isKept c = true) (rest : List Char) :
    keptChars (c :: rest) = c :: keptChars rest :=
  List.filter_cons_of_pos kept

theorem keptChars_dropped {c : Char} (dropped : ¬isKept c = true) (rest : List Char) :
    keptChars (c :: rest) = keptChars rest :=
  List.filter_cons_of_neg dropped

theorem keptChars_reverse (cs : List Char) : keptChars cs.reverse = (keptChars cs).reverse :=
  List.filter_reverse

theorem keptChars_dropSpaces (cs : List Char) : keptChars (cs.dropWhile (· == ' ')) = keptChars cs := by
  induction cs with
  | nil => rfl
  | cons c rest ih =>
    rw [List.dropWhile_cons]
    split
    · next space => rw [ih, eq_of_beq space, keptChars_dropped (by decide)]
    · rfl

theorem keptChars_spaced (cs : List Char) : keptChars (spaced cs) = keptChars cs := by
  fun_induction spaced cs with
  | case1 => rfl
  | case2 c rest kept ih => rw [keptChars_kept kept, keptChars_kept kept, ih]
  | case3 c dropped => rw [keptChars_dropped (by decide), keptChars_dropped dropped]
  | case4 c dropped d rest kept ih => rw [keptChars_dropped (by decide), keptChars_dropped dropped, ih]
  | case5 c dropped d rest next ih => rw [keptChars_dropped dropped, ih]

/-- What is left of a name has all its letters and digits, in order. -/
theorem filter_wordsOnly (name : String) :
    (wordsOnly name).toList.filter (fun c => !Text.isSeparator c) = keptChars name.toList := by
  have kept : keptChars (wordsOnly name).toList = keptChars name.toList := by
    rw [wordsOnly, String.toList_ofList, keptChars_reverse, keptChars_dropSpaces, keptChars_reverse,
      keptChars_dropSpaces, keptChars_spaced, List.reverse_reverse]
  rw [← kept]
  refine List.filter_congr fun c hc => ?_
  -- What is left are letters, digits and spaces, so what does not separate is a letter or a digit.
  have word := wordsOnly_worded name c hc
  unfold Text.isWordChar at word
  by_cases separates : Text.isSeparator c = true
  · simp only [Text.isSeparator, Bool.or_eq_true, beq_iff_eq] at separates
    rcases separates with (rfl | rfl) | rfl <;> rfl
  · have inside := Bool.eq_false_iff.mpr separates
    rw [inside, Bool.or_false] at word
    rw [inside, word]
    rfl

theorem sameButCase_pascal (name : String) :
    Text.SameButCase (Text.pascal (wordsOnly name)).toList (keptChars name.toList) := by
  have spelled := Text.sameButCase_capitals (Text.words (wordsOnly name).toList)
  rwa [Text.flatten_words, filter_wordsOnly, ← String.toList_ofList (l := List.flatMap _ _)] at spelled

/-! ## Identifiers -/

/-- The identifiers of components, `[A-Z][A-Za-z0-9]*`. -/
def IsComponentName (name : List Char) : Prop :=
  ∃ first rest, name = first :: rest ∧ first.isUpper = true ∧ Consists Char.isAlphanum rest

theorem componentName_isComponentName (name : String) : IsComponentName (componentName name).toList := by
  obtain ⟨first, rest, eq, capital⟩ := componentName_capital name
  have chars := componentName_chars name
  rw [eq] at chars
  exact ⟨first, rest, eq, capital, chars.tail⟩

/-- The name of a component is the name of its layer in capitalised words, with `Component` in front
if that is empty or begins with a digit. -/
theorem componentName_eq (name : String) :
    componentName name =
      if (Text.pascal (wordsOnly name)).toList.head?.all Char.isDigit then
        "Component" ++ Text.pascal (wordsOnly name)
      else Text.pascal (wordsOnly name) := by
  unfold componentName
  dsimp only
  cases text : (Text.pascal (wordsOnly name)).toList with
  | nil =>
    have empty : Text.pascal (wordsOnly name) = "" := String.toList_inj.mp text
    rw [empty]
    rfl
  | cons c rest => rfl

/-- Names of components are identifiers. They spell the letters and digits of the name of the layer, in
order and up to case, behind `Component` exactly if there are none or a digit comes first. -/
theorem componentName_spells (name : String) :
    IsComponentName (componentName name).toList ∧
      ∃ own, Text.SameButCase own (keptChars name.toList) ∧
        (componentName name).toList =
          if (keptChars name.toList).head?.all Char.isDigit then "Component".toList ++ own else own := by
  have spelled := sameButCase_pascal name
  refine ⟨componentName_isComponentName name, (Text.pascal (wordsOnly name)).toList, spelled, ?_⟩
  rw [componentName_eq, spelled.head_isDigit]
  split
  · exact String.toList_append
  · rfl

/-- Letters beyond ASCII are no letters of an identifier. -/
example : componentName "404 page / naïve" = "Component404PageNaVe" := by decide +kernel

end Naming
end Handoff
