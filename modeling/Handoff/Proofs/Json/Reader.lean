import Handoff.Json.Record
import Handoff.Proofs.Json.Members
import Handoff.Proofs.Json.Source
import Handoff.Proofs.Keyed
/-!
# What is read, printed and read again

A reader and a printer belong together in two ways: what the reader gives is printed as a value of
finite numbers that opens no more levels than the reader may, and any such value that is printed is
read back. `Reader.Prints` is both, `Reader.Fills` the same where what is printed is a slot that can
stay empty.

Results:
* `Prints.optional`, `Prints.list`, `Prints.map`: from what members hold to members.
* `prints_real`, `prints_string`, `prints_boolean`, `prints_name`: plain values.
-/
namespace Handoff

namespace Json

/-! ## Levels -/

/-- Whether a value opens that many levels at most. -/
def Nests : Json → ℕ → Prop
  | .array _, 0 => False
  | .array items, depth + 1 => itemsNest items depth
  | .object _, 0 => False
  | .object members, depth + 1 => membersNest members depth
  | _, _ => True
where
  itemsNest : List Json → ℕ → Prop
    | [], _ => True
    | v :: vs, depth => Nests v depth ∧ itemsNest vs depth
  membersNest : List (String × Json) → ℕ → Prop
    | [], _ => True
    | (_, v) :: rest, depth => Nests v depth ∧ membersNest rest depth

/-- A value of finite numbers that opens that many levels at most. -/
structure Fits (v : Json) (depth : ℕ) : Prop where
  finite : v.Finite
  nests : v.Nests depth

def SlotFits (v : Option Json) (depth : ℕ) : Prop := ∀ w ∈ v, w.Fits depth

variable {depth : ℕ}

theorem fits_string (s : String) : (Json.string s).Fits depth := ⟨trivial, trivial⟩

theorem fits_boolean (b : Bool) : (Json.boolean b).Fits depth := ⟨trivial, trivial⟩

theorem fits_real {x : Float} (h : x.isFinite = true) : (real x).Fits depth := ⟨h, trivial⟩

theorem not_fits_array {items : List Json} : ¬(Json.array items).Fits 0 := fun h => h.nests

theorem not_fits_object {members : List (String × Json)} : ¬(Json.object members).Fits 0 :=
  fun h => h.nests

theorem fits_array {items : List Json} :
    (Json.array items).Fits (depth + 1) ↔ ∀ v ∈ items, v.Fits depth := by
  induction items with
  | nil => exact ⟨fun _ _ h => absurd h List.not_mem_nil, fun _ => ⟨trivial, trivial⟩⟩
  | cons v vs ih =>
    rw [List.forall_mem_cons, ← ih]
    exact ⟨fun h => ⟨⟨h.finite.1, h.nests.1⟩, ⟨h.finite.2, h.nests.2⟩⟩,
      fun h => ⟨⟨h.1.finite, h.2.finite⟩, ⟨h.1.nests, h.2.nests⟩⟩⟩

theorem fits_object {members : List (String × Json)} :
    (Json.object members).Fits (depth + 1) ↔ ∀ e ∈ members, e.2.Fits depth := by
  induction members with
  | nil => exact ⟨fun _ _ h => absurd h List.not_mem_nil, fun _ => ⟨trivial, trivial⟩⟩
  | cons e rest ih =>
    rw [List.forall_mem_cons, ← ih]
    exact ⟨fun h => ⟨⟨h.finite.1, h.nests.1⟩, ⟨h.finite.2, h.nests.2⟩⟩,
      fun h => ⟨⟨h.1.finite, h.2.finite⟩, ⟨h.1.nests, h.2.nests⟩⟩⟩

mutual

/-- A value that opens no more levels than may be opened is read whole as it is. -/
theorem toJson_source : ∀ {v : Json} {depth : ℕ}, v.Nests depth →
    v.source.toJson depth = .ok v
  | .null, _, _ | .boolean _, _, _ | .number _, _, _ | .string _, _, _ => rfl
  | .array items, depth + 1, h => by
    show (do
      let items ← Source.toJson.itemsToJson depth (source.itemSources items)
      (none : Option Fault).forM throw
      return Json.array items) = _
    rw [itemsToJson_source h]
    rfl
  | .object members, depth + 1, h => by
    show (do
      let members ← Source.toJson.membersToJson depth (source.memberSources members)
      (none : Option Fault).forM throw
      return Json.object members) = _
    rw [membersToJson_source h]
    rfl

theorem itemsToJson_source : ∀ {items : List Json} {depth : ℕ}, Nests.itemsNest items depth →
    Source.toJson.itemsToJson depth (source.itemSources items) = .ok items
  | [], _, _ => rfl
  | v :: vs, depth, h => by
    show (do
      let v ← v.source.toJson depth
      return v :: (← Source.toJson.itemsToJson depth (source.itemSources vs))) = _
    rw [toJson_source h.1, itemsToJson_source h.2]
    rfl

theorem membersToJson_source : ∀ {members : List (String × Json)} {depth : ℕ},
    Nests.membersNest members depth →
    Source.toJson.membersToJson depth (source.memberSources members) = .ok members
  | [], _, _ => rfl
  | (key, v) :: rest, depth, h => by
    show (do
      let v ← v.source.toJson depth
      return (key, v) :: (← Source.toJson.membersToJson depth (source.memberSources rest))) = _
    rw [toJson_source h.1, membersToJson_source h.2]
    rfl

end

theorem ofText_text {v : Json} (readable : v.Readable) (nests : v.Nests maxDepth) :
    ofText v.text = .ok v := by
  unfold ofText
  rw [Source.readText_text readable]
  dsimp only
  rw [toJson_source nests]
  rfl

theorem slotFits_some {v : Json} (h : v.Fits depth) : SlotFits (some v) depth := by
  intro w hw
  cases hw
  exact h

theorem mem_present {slots : Slots} {e : String × Json} :
    e ∈ present slots ↔ (e.1, some e.2) ∈ slots := by
  induction slots with
  | nil => exact ⟨fun h => absurd h List.not_mem_nil, fun h => absurd h List.not_mem_nil⟩
  | cons s rest ih =>
    obtain ⟨name, v⟩ := s
    rw [present_cons, List.mem_append, List.mem_cons, ih]
    refine or_congr_left ?_
    cases v with
    | none => simp [optional]
    | some v => simp [optional, Prod.ext_iff]

theorem fits_present {slots : Slots} :
    (Json.object (present slots)).Fits (depth + 1) ↔ ∀ e ∈ slots, SlotFits e.2 depth := by
  rw [fits_object]
  constructor
  · rintro h ⟨name, v⟩ he w hw
    cases (show v = some w from hw)
    exact h (name, w) (mem_present.mpr he)
  · exact fun h e he => h _ (mem_present.mp he) e.2 rfl

end Json

/-! ## Readers and printers -/

namespace Reader

open Json (present Slots someItems)

variable {α : Type}

/-- What is read is printed as a value that fits, and such a value is read back. It is not `null`,
which readers take for nothing. -/
structure Prints (r : Reader α) (p : α → Json) (depth : ℕ) : Prop where
  notNull : ∀ v, p v ≠ .null
  fits : ∀ s v, s.Finite → r depth s = .ok v → (p v).Fits depth
  back : ∀ v, (p v).Fits depth → r depth (p v).source = .ok v

/-- The same for what is printed into a slot. -/
structure Fills (r : Reader α) (slot : α → Option Json) (depth : ℕ) : Prop where
  fits : ∀ s v, s.Finite → r depth s = .ok v → Json.SlotFits (slot v) depth
  back : ∀ v, ∀ w ∈ slot v, w.Fits depth → r depth w.source = .ok v

variable {r : Reader α} {p : α → Json} {depth : ℕ}

theorem Prints.fills (h : r.Prints p depth) : r.Fills (fun v => some (p v)) depth where
  fits s v finite read w hw := by
    cases hw
    exact h.fits s v finite read
  back v w hw fits := by
    cases hw
    exact h.back v fits

theorem Prints.optional (h : r.Prints p depth) :
    (Reader.optional r).Fills (fun v => v.map p) depth where
  fits s v finite read w hw := by
    obtain ⟨x, rfl, rfl⟩ := Option.map_eq_some_iff.mp hw
    unfold Reader.optional at read
    split at read
    · cases read
    · cases read
    · obtain ⟨y, read, eq⟩ := exists_of_map_eq_ok read
      cases eq
      exact h.fits s x finite read
  back v w hw fits := by
    obtain ⟨x, rfl, rfl⟩ := Option.map_eq_some_iff.mp hw
    have read := h.back x fits
    unfold Reader.optional
    split
    · next null =>
      have : p x = .null := by cases e : p x <;> rw [e] at null <;> first | rfl | cases null
      exact absurd this (h.notNull x)
    · next broken => cases e : p x <;> rw [e] at broken <;> cases broken
    · rw [read]
      rfl

theorem items_ok {read : Source → Except Fault α} {sources : List Source} {values : List α}
    (h : items read sources = .ok values) : ∀ v ∈ values, ∃ s ∈ sources, read s = .ok v := by
  induction sources generalizing values with
  | nil =>
    cases h
    exact fun _ hv => absurd hv List.not_mem_nil
  | cons s rest ih =>
    obtain ⟨v, first, h⟩ := exists_of_bind_eq_ok h
    obtain ⟨vs, later, h⟩ := exists_of_bind_eq_ok h
    cases h
    rw [List.forall_mem_cons]
    refine ⟨⟨s, List.mem_cons_self .., first⟩, fun w hw => ?_⟩
    obtain ⟨s', hs', read⟩ := ih later w hw
    exact ⟨s', List.mem_cons_of_mem _ hs', read⟩

theorem items_back {read : Source → Except Fault α} {values : List α}
    (h : ∀ v ∈ values, read (p v).source = .ok v) :
    items read (Json.source.itemSources (values.map p)) = .ok values := by
  induction values with
  | nil => rfl
  | cons v vs ih =>
    obtain ⟨first, later⟩ := List.forall_mem_cons.mp h
    have later := ih later
    show (do
      let v ← read (p v).source
      return v :: (← items read (Json.source.itemSources (vs.map p)))) = _
    rw [first, later]
    rfl

theorem Prints.list (h : ∀ d, depth = d + 1 → r.Prints p d) :
    (Reader.list r).Fills (fun vs => someItems (vs.map p)) depth where
  fits s vs finite read w hw := by
    cases depth with
    | zero => cases s <;> cases read
    | succ d =>
      unfold someItems at hw
      split at hw
      · cases hw
      · cases hw
        cases s with
        | array sources ending =>
          obtain ⟨values, read, ended⟩ := exists_of_bind_eq_ok read
          obtain ⟨-, ended⟩ := eq_none_of_forM ended
          cases ended
          rw [Json.fits_array]
          intro w hw
          obtain ⟨v, hv, rfl⟩ := List.mem_map.mp hw
          obtain ⟨s, hs, read⟩ := items_ok read v hv
          exact (h d rfl).fits s v (Source.itemsFinite_iff.mp finite s hs) read
        | _ => cases read
  back vs w hw fits := by
    unfold someItems at hw
    split at hw
    · cases hw
    · cases hw
      cases depth with
      | zero => exact absurd fits Json.not_fits_array
      | succ d =>
        have each : ∀ v ∈ vs, r d (p v).source = .ok v := fun v hv =>
          (h d rfl).back v (Json.fits_array.mp fits _ (List.mem_map_of_mem hv))
        show (do
          let values ← items (r d) (Json.source.itemSources (vs.map p))
          (none : Option Fault).forM throw
          return values) = Except.ok vs
        rw [items_back each]
        rfl

/-! ## Maps -/

/-- The slot of a map, which is empty when the map is. -/
def someEntries (p : α → Json) (m : Keyed α) : Option Json :=
  if m.isEmpty then none else some (.object (m.entries.map fun e => (e.1, p e.2)))

theorem someEntries_inj (inj : ∀ {v w}, p v = p w → v = w) {m n : Keyed α}
    (h : someEntries p m = someEntries p n) : m = n := by
  apply Keyed.ext_entries
  unfold someEntries at h
  split at h
  · next none =>
    split at h
    · next none' => rw [List.isEmpty_iff.mp none, List.isEmpty_iff.mp none']
    · cases h
  · split at h
    · cases h
    · refine List.map_injective_iff.mpr (fun e e' same => ?_) (Json.object.inj (Option.some.inj h))
      obtain ⟨name, value⟩ := Prod.mk.inj same
      exact Prod.ext name (inj value)

theorem entries_ok {read : Source → Except Fault α} {sources : List (Source × Source)}
    {sofar m : Keyed α} (h : entries read sofar sources = .ok m) :
    ∀ e ∈ m.entries, e ∈ sofar.entries ∨ ∃ s ∈ sources, read s.2 = .ok e.2 := by
  induction sources generalizing sofar with
  | nil =>
    cases h
    exact fun _ he => .inl he
  | cons s rest ih =>
    obtain ⟨key, -, h⟩ := exists_of_bind_eq_ok h
    obtain ⟨v, first, h⟩ := exists_of_bind_eq_ok h
    intro e he
    rcases ih h e he with there | ⟨s', hs', read⟩
    · rcases Keyed.mem_entries_insert there with rfl | there
      · exact .inr ⟨s, List.mem_cons_self .., first⟩
      · exact .inl there
    · exact .inr ⟨s', List.mem_cons_of_mem _ hs', read⟩

theorem entries_back {read : Source → Except Fault α} {es : List (String × α)}
    (h : ∀ e ∈ es, read (p e.2).source = .ok e.2) (sofar : Keyed α) :
    entries read sofar (Json.source.memberSources (es.map fun e => (e.1, p e.2))) =
      .ok (sofar.insertAll es) := by
  induction es generalizing sofar with
  | nil => rfl
  | cons e rest ih =>
    obtain ⟨first, later⟩ := List.forall_mem_cons.mp h
    show (do
      let v ← read (p e.2).source
      entries read (sofar.insert e.1 v) (Json.source.memberSources _)) = _
    rw [first]
    exact ih later _

theorem Prints.map (h : ∀ d, depth = d + 1 → r.Prints p d) :
    (Reader.map r).Fills (someEntries p) depth where
  fits s m finite read w hw := by
    unfold someEntries at hw
    split at hw
    · cases hw
    · cases hw
      cases s with
      | object members ending =>
        cases depth with
        | zero => cases read
        | succ d =>
          obtain ⟨values, read, ended⟩ := exists_of_bind_eq_ok read
          obtain ⟨-, ended⟩ := eq_none_of_forM ended
          cases ended
          rw [Json.fits_object]
          intro printed there
          obtain ⟨e, he, rfl⟩ := List.mem_map.mp there
          obtain ⟨s, hs, read⟩ := (entries_ok read e he).resolve_left List.not_mem_nil
          exact (h d rfl).fits s.2 e.2 (Source.membersFinite_iff.mp finite s hs) read
      | _ => cases depth <;> cases read
  back m w hw fits := by
    unfold someEntries at hw
    split at hw
    · cases hw
    · cases hw
      cases depth with
      | zero => exact absurd fits Json.not_fits_object
      | succ d =>
        have each : ∀ e ∈ m.entries, r d (p e.2).source = .ok e.2 := fun e he =>
          (h d rfl).back e.2 (Json.fits_object.mp fits _ (List.mem_map.mpr ⟨e, he, rfl⟩))
        show (do
          let values ← entries (r d) .empty
            (Json.source.memberSources (m.entries.map fun e => (e.1, p e.2)))
          (none : Option Fault).forM throw
          return values) = Except.ok m
        rw [entries_back each, Keyed.insertAll_empty]
        rfl

/-! ## Plain values -/

theorem prints_real (depth : ℕ) : real.Prints Json.real depth where
  notNull _ none := by cases none
  fits s v finite read := by
    cases s with
    | number n =>
      cases read
      exact Json.fits_real finite
    | _ => cases read
  back _ _ := rfl

theorem prints_string (depth : ℕ) : string.Prints .string depth where
  notNull _ none := by cases none
  fits _ v _ _ := Json.fits_string v
  back _ _ := rfl

theorem prints_boolean (depth : ℕ) : boolean.Prints .boolean depth where
  notNull _ none := by cases none
  fits _ v _ _ := Json.fits_boolean v
  back _ _ := rfl

/-- Names that stand for their values. -/
theorem prints_name {ofName : String → Option α} (nameOf : α → String)
    (left : ∀ v, ofName (nameOf v) = some v) (depth : ℕ) :
    (name ofName).Prints (fun v => .string (nameOf v)) depth where
  notNull _ none := by cases none
  fits _ v _ _ := Json.fits_string (nameOf v)
  back v _ := by
    show known ofName (nameOf v) = .ok v
    unfold known
    rw [left]

end Reader
end Handoff
