import Handoff.Proofs.Json.Kept
import Handoff.Proofs.Json.Reader
import Handoff.Proofs.Json.Whole
import Handoff.Proofs.Options
/-!
# Options read back

The text of options is written with all members, in their order, under the names that their dialects
go by. It is read by way of a value with sorted members and a first look at the names of dialects; what
comes out is the same options, absent dialects and absent widths told from given ones.

Results:
* `Options.sorted_toJson`: the members of options as they are read, sorted by name.
* `Options.ofJson_sorted`: each member is read as what it was written for.
* `Options.ofText_written`: options are read back from their text.
-/
namespace Handoff
open Sorted (put putAll change)

namespace NamedWidths

theorem insertEntry_eq (name : String) (width : UInt32) (entries : List (String × UInt32)) :
    insertEntry name width entries = put name width entries := by
  induction entries with
  | nil => rfl
  | cons first rest ih => rw [insertEntry, put, ih]

theorem entries_ofList (entries : List (String × UInt32)) :
    (ofList entries).entries = putAll [] entries := by
  have general (widths : NamedWidths) :
      (entries.foldl (fun widths e => widths.insert e.1 e.2) widths).entries =
        putAll widths.entries entries := by
    induction entries generalizing widths with
    | nil => rfl
    | cons e rest ih =>
      rw [List.foldl_cons, ih, Sorted.putAll_cons, ← insertEntry_eq]
      rfl
  exact general .empty

theorem ofList_entries (widths : NamedWidths) : ofList widths.entries = widths := by
  apply ext_entries
  rw [entries_ofList]
  exact Sorted.putAll_of_sorted widths.sorted

end NamedWidths

/-! ## Names -/

theorem MarkupDialect.parse_name (d : MarkupDialect) : parse d.name = .ok d := by
  cases d <;> rfl

theorem StyleDialect.parse_name (d : StyleDialect) : parse d.name = .ok d := by
  cases d <;> rfl

namespace Options

/-! ## Text -/

theorem numerals_widthMembers (entries : List (String × UInt32)) :
    ∀ n ∈ Json.numerals.memberNumerals (widthMembers entries), n.ReadsBack := by
  induction entries with
  | nil => exact fun _ hn => absurd hn List.not_mem_nil
  | cons e rest ih =>
    intro n hn
    rcases List.mem_append.mp hn with first | later
    · rw [List.mem_singleton.mp first]
      exact Numeral.readsBack_word (Nat.lt_trans e.2.toNat_lt (by decide))
    · exact ih n later

theorem readable_toJson (o : Options) : o.toJson.Readable := by
  refine ⟨finite_toJson o, fun n hn => ?_⟩
  have noName {α : Type} (f : α → String) (d : Option α) :
      (orNull (fun d => Json.string (f d)) d).numerals = [] := by cases d <;> rfl
  have all : o.toJson.numerals =
      (orNull (fun widths => .object (widthMembers widths.entries)) o.breakpoints).numerals := by
    show (orNull _ o.markup).numerals ++ ((orNull _ o.stylesheet).numerals ++ (_ ++ [])) = _
    rw [noName, noName, List.append_nil]
    rfl
  rw [all] at hn
  cases widths : o.breakpoints with
  | none =>
    rw [widths] at hn
    exact absurd hn List.not_mem_nil
  | some w =>
    rw [widths] at hn
    exact numerals_widthMembers w.entries n hn

theorem nests_widthMembers (entries : List (String × UInt32)) (depth : ℕ) :
    Json.Nests.membersNest (widthMembers entries) depth := by
  induction entries with
  | nil => trivial
  | cons e rest ih => exact ⟨trivial, ih⟩

theorem nests_toJson (o : Options) (depth : ℕ) : o.toJson.Nests (depth + 2) := by
  obtain ⟨markup, stylesheet, -, -, -, -, -, widths⟩ := o
  refine ⟨?_, ?_, trivial, trivial, trivial, trivial, trivial, ?_, trivial⟩
  · cases markup <;> trivial
  · cases stylesheet <;> trivial
  · cases widths with
    | none => trivial
    | some w => exact nests_widthMembers w.entries depth

/-! ## Sorted members -/

theorem sorted_widthMembers (widths : NamedWidths) :
    (Json.object (widthMembers widths.entries)).sortMembers =
      .object (widthMembers widths.entries) := by
  have plain : change (fun _ => Json.sortMembers) (widthMembers widths.entries) =
      widthMembers widths.entries := by
    rw [change, widthMembers, List.map_map]
    rfl
  have ascending : Sorted.Ascending (widthMembers widths.entries) :=
    List.pairwise_map.mpr widths.sorted
  have same : putAll [] (widthMembers widths.entries) = widthMembers widths.entries :=
    Sorted.putAll_of_sorted ascending
  rw [Json.sortMembers_object, plain, same]

theorem sorted_orNull {α : Type} {f : α → Json} (h : ∀ x, (f x).sortMembers = f x) (v : Option α) :
    (orNull f v).sortMembers = orNull f v := by
  cases v with
  | none => rfl
  | some x => exact h x

/-- The members of options as they are read. -/
def sortedMembers (o : Options) : List (String × Json) := [
  ("auditProfile", .string o.auditProfile.name),
  ("breakpoints", orNull (fun widths => .object (widthMembers widths.entries)) o.breakpoints),
  ("includeAccessibility", .boolean o.includeAccessibility),
  ("includeResponsive", .boolean o.includeResponsive),
  ("markup", orNull (fun d => .string d.name) o.markup),
  ("optimizeImages", .boolean o.optimizeImages),
  ("stylesheet", orNull (fun d => .string d.name) o.stylesheet),
  ("typescript", .boolean o.typescript)]

theorem sorted_toJson (o : Options) : o.toJson.sortMembers = .object o.sortedMembers := by
  have markup := sorted_orNull (fun d : MarkupDialect => (rfl : (Json.string d.name).sortMembers = _))
    o.markup
  have stylesheet := sorted_orNull
    (fun d : StyleDialect => (rfl : (Json.string d.name).sortMembers = _)) o.stylesheet
  have widths := sorted_orNull sorted_widthMembers o.breakpoints
  unfold sortedMembers
  rw [← markup, ← stylesheet, ← widths]
  rfl

/-! ## Members read -/

theorem asDialect_name {α : Type} {parse : String → Except GenerationError α} {name : α → String}
    (back : ∀ d, parse (name d) = .ok d) (d : Option α) :
    asDialect parse (orNull (fun d => .string (name d)) d) = .ok d := by
  cases d with
  | none => rfl
  | some d => exact asDialect_of_ok (back d)

theorem asWord_toNat (w : UInt32) : (Json.number (.integer w.toNat)).asWord = .ok w := by
  have range : 0 ≤ (w.toNat : ℤ) ∧ (w.toNat : ℤ) < UInt32.size :=
    ⟨Int.natCast_nonneg _, by exact_mod_cast w.toNat_lt⟩
  rw [Json.asWord, if_pos range, Int.toNat_natCast, UInt32.ofNat_toNat]

theorem readEntries_widthMembers (entries : List (String × UInt32)) :
    Json.readEntries Json.asWord (widthMembers entries) = .ok entries := by
  induction entries with
  | nil => rfl
  | cons e rest ih =>
    show (do
      let v ← (Json.number (.integer e.2.toNat)).asWord
      return (e.1, v) :: (← Json.readEntries Json.asWord (widthMembers rest))) = _
    rw [asWord_toNat, ih]
    rfl

theorem asOptional_widths (widths : Option NamedWidths) :
    Json.asOptional (fun v => (fun entries => NamedWidths.ofList entries) <$> v.asMap Json.asWord)
      (orNull (fun widths => .object (widthMembers widths.entries)) widths) = .ok widths := by
  cases widths with
  | none => rfl
  | some w =>
    show some <$> (NamedWidths.ofList <$>
      Json.readEntries Json.asWord (widthMembers w.entries)) = _
    rw [readEntries_widthMembers]
    exact congrArg (fun w => Except.ok (some w)) w.ofList_entries

theorem asName_name (p : AuditProfile) :
    (Json.string p.name).asName AuditProfile.ofName? = .ok p := by
  cases p <;> rfl

/-- Each member is read as what it was written for. -/
theorem ofJson_sorted (o : Options) : ofJson (.object o.sortedMembers) = .ok o := by
  show readKept fields [] {} o.sortedMembers = _
  unfold sortedMembers
  refine (readKept_cons rfl rfl (map_ok (asName_name o.auditProfile) _)).trans ?_
  refine (readKept_cons rfl rfl (map_ok (asOptional_widths o.breakpoints) _)).trans ?_
  refine (readKept_cons rfl rfl (map_ok rfl _)).trans ?_
  refine (readKept_cons rfl rfl (map_ok rfl _)).trans ?_
  refine (readKept_cons rfl rfl
    (map_ok (asDialect_name MarkupDialect.parse_name o.markup) _)).trans ?_
  refine (readKept_cons rfl rfl (map_ok rfl _)).trans ?_
  refine (readKept_cons rfl rfl
    (map_ok (asDialect_name StyleDialect.parse_name o.stylesheet) _)).trans ?_
  refine (readKept_cons rfl rfl (map_ok rfl _)).trans ?_
  rfl

theorem checkName_name {α : Type} {parse : String → Except GenerationError α} {name : α → String}
    (back : ∀ d, parse (name d) = .ok d) (d : Option α) :
    checkName parse (some (orNull (fun d => .string (name d)) d)) = .ok () := by
  cases d with
  | none => rfl
  | some d =>
    show (fun _ => ()) <$> parse (name d) = _
    rw [back]
    rfl

/-- Options are read back from their text, whatever dialects, switches and widths they hold. -/
theorem ofText_written (o : Options) : ofText o.toJson.text = .ok o := by
  have value : Json.ofText o.toJson.text = .ok o.toJson :=
    Json.ofText_text o.readable_toJson (o.nests_toJson 125)
  have markup : (Json.object o.sortedMembers).member? "markup" =
      some (orNull (fun d => .string d.name) o.markup) := rfl
  have stylesheet : (Json.object o.sortedMembers).member? "stylesheet" =
      some (orNull (fun d => .string d.name) o.stylesheet) := rfl
  unfold ofText
  rw [value]
  dsimp only
  rw [sorted_toJson, markup, stylesheet, checkName_name MarkupDialect.parse_name,
    checkName_name StyleDialect.parse_name]
  show (ofJson (.object o.sortedMembers)).mapError _ = _
  rw [ofJson_sorted]
  rfl

end Options
end Handoff
