import Handoff.Proofs.Json.Text
/-!
# Records as objects

An object that stands for a record has one slot for each field, in a fixed order, and leaves out the
slots that are empty. `present` is that rule; the printers of scenes are instances of it. As no two
slots have one name, the members that are there tell which slots were filled and with what.

Results:
* `present_inj`: objects with the same members come from the same slots.
* `membersFinite_present`: an object is finite when its slots are.
-/
namespace Handoff.Json

/-- The slots of a record. -/
abbrev Slots := List (String × Option Json)

/-- The members of the slots that are filled. -/
def present : Slots → List (String × Json)
  | [] => []
  | (name, v) :: rest => optional name v ++ present rest

theorem present_cons (name : String) (v : Option Json) (rest : Slots) :
    present ((name, v) :: rest) = optional name v ++ present rest := rfl

theorem name_of_mem_present {slots : Slots} {e : String × Json} (h : e ∈ present slots) :
    e.1 ∈ slots.map Prod.fst := by
  induction slots with
  | nil => cases h
  | cons s rest ih =>
    obtain ⟨name, v⟩ := s
    rw [present_cons, List.mem_append] at h
    rw [List.map_cons, List.mem_cons]
    rcases h with h | h
    · left
      cases v with
      | none => cases h
      | some v => rw [List.mem_singleton.mp h]
    · exact .inr (ih h)

/-- Objects with the same members come from the same slots. -/
theorem present_inj {a b : Slots} (h : present a = present b)
    (names : a.map Prod.fst = b.map Prod.fst) (distinct : (a.map Prod.fst).Nodup) : a = b := by
  induction a generalizing b with
  | nil => exact (List.map_eq_nil_iff.mp names.symm).symm
  | cons s rest ih =>
    cases b with
    | nil => cases names
    | cons t rest' =>
      obtain ⟨name, v⟩ := s
      obtain ⟨name', w⟩ := t
      obtain ⟨same, later⟩ := List.cons.inj names
      cases (show name = name' from same)
      obtain ⟨fresh, others⟩ := List.nodup_cons.mp distinct
      have fresh' : name ∉ rest'.map Prod.fst := later ▸ fresh
      cases v with
      | none =>
        cases w with
        | none => rw [ih (b := rest') h later others]
        | some w =>
          have there : (name, w) ∈ present rest := by
            rw [show present rest = (name, w) :: present rest' from h]
            exact List.mem_cons_self ..
          exact absurd (name_of_mem_present there) fresh
      | some v =>
        cases w with
        | none =>
          have there : (name, v) ∈ present rest' := by
            rw [show present rest' = (name, v) :: present rest from h.symm]
            exact List.mem_cons_self ..
          exact absurd (name_of_mem_present there) fresh'
        | some w =>
          obtain ⟨value, more⟩ := List.cons.inj h
          rw [ih more later others, (Prod.mk.inj value).2]

/-- The list in a slot, which is empty when the list is. -/
def someItems (items : List Json) : Option Json :=
  if items.isEmpty then none else some (.array items)

theorem unlessEmpty_eq (name : String) (items : List Json) :
    unlessEmpty name items = optional name (someItems items) := by
  unfold unlessEmpty someItems
  cases items <;> rfl

theorem someItems_inj {a b : List Json} (h : someItems a = someItems b) : a = b := by
  cases a with
  | nil =>
    cases b with
    | nil => rfl
    | cons w ws => cases h
  | cons v vs =>
    cases b with
    | nil => cases h
    | cons w ws => exact Json.array.inj (Option.some.inj h)

/-! ## Finite values -/

theorem itemsFinite_iff {items : List Json} :
    Finite.itemsFinite items ↔ ∀ v ∈ items, v.Finite := by
  induction items with
  | nil => simp [Finite.itemsFinite]
  | cons v vs ih => simp [Finite.itemsFinite, ih]

/-- A slot is finite when it is empty or its value is finite. -/
def SlotFinite (v : Option Json) : Prop := ∀ w ∈ v, w.Finite

/-- An object is finite when its slots are. -/
theorem membersFinite_present {slots : Slots} (h : ∀ s ∈ slots, SlotFinite s.2) :
    Finite.membersFinite (present slots) := by
  induction slots with
  | nil => trivial
  | cons s rest ih =>
    obtain ⟨name, v⟩ := s
    have later := ih fun s hs => h s (List.mem_cons_of_mem _ hs)
    cases v with
    | none => exact later
    | some v => exact ⟨h _ (List.mem_cons_self ..) v rfl, later⟩

theorem slotFinite_some {v : Json} (h : v.Finite) : SlotFinite (some v) := by
  intro w hw
  cases hw
  exact h

theorem slotFinite_map {α : Type} {f : α → Json} {v : Option α} (h : ∀ x ∈ v, (f x).Finite) :
    SlotFinite (v.map f) := by
  intro w hw
  obtain ⟨x, hx, rfl⟩ := Option.map_eq_some_iff.mp hw
  exact h x hx

theorem slotFinite_items {α : Type} {f : α → Json} {items : List α}
    (h : ∀ x ∈ items, (f x).Finite) : SlotFinite (someItems (items.map f)) := by
  intro w hw
  unfold someItems at hw
  split at hw
  · cases hw
  · cases hw
    show Finite.itemsFinite (items.map f)
    rw [itemsFinite_iff]
    intro v hv
    obtain ⟨x, hx, rfl⟩ := List.mem_map.mp hv
    exact h x hx

end Handoff.Json
