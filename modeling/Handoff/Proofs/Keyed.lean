import Handoff.Keyed
import Mathlib.Data.List.Basic
/-!
# Maps that remember their order, as a whole

A map is known by its keys in order and the value at each of them. Setting keys that are there keeps
the order, and setting all entries of a map, on nothing, gives that map.

Results:
* `ext_get?`: maps with the same keys in the same order and the same values are equal.
* `erase_insert`: removing a key undoes setting it.
* `get?_insertAll`, `keys_insertAll`: what setting the entries of a map comes to.
-/
namespace Handoff.Keyed

variable {α : Type}

/-! ## Look-up -/

theorem lookup_eq_some_of_mem {entries : List (String × α)} (distinct : (entries.map Prod.fst).Nodup)
    {key : String} {value : α} (mem : (key, value) ∈ entries) : entries.lookup key = some value := by
  induction entries with
  | nil => cases mem
  | cons e rest ih =>
    obtain ⟨k, v⟩ := e
    obtain ⟨fresh, distinct⟩ := List.nodup_cons.mp distinct
    rcases List.mem_cons.mp mem with same | later
    · cases same
      exact List.lookup_cons_self
    · have other : key ≠ k := by
        rintro rfl
        exact fresh (List.mem_map.mpr ⟨(key, value), later, rfl⟩)
      rw [List.lookup_cons, beq_eq_false_iff_ne.mpr other]
      exact ih distinct later

theorem lookup_eq_none_of_fresh {entries : List (String × α)} {key : String}
    (fresh : key ∉ entries.map Prod.fst) : entries.lookup key = none := by
  rw [List.lookup_eq_none_iff]
  intro e he
  rw [bne_iff_ne]
  rintro rfl
  exact fresh (List.mem_map_of_mem he)

theorem get?_eq_some_iff {m : Keyed α} {key : String} {value : α} :
    m.get? key = some value ↔ (key, value) ∈ m.entries := by
  refine ⟨fun h => ?_, lookup_eq_some_of_mem m.distinct⟩
  obtain ⟨before, after, split, -⟩ := List.lookup_eq_some_iff.mp h
  rw [split]
  exact List.mem_append_right _ (List.mem_cons_self ..)

theorem mem_keys_iff {m : Keyed α} {key : String} : key ∈ m.keys ↔ ∃ value, m.get? key = some value := by
  simp only [get?_eq_some_iff, keys, List.mem_map]
  constructor
  · rintro ⟨⟨k, v⟩, mem, rfl⟩
    exact ⟨v, mem⟩
  · rintro ⟨v, mem⟩
    exact ⟨(key, v), mem, rfl⟩

theorem get?_eq_none_iff {m : Keyed α} {key : String} : m.get? key = none ↔ key ∉ m.keys := by
  rw [mem_keys_iff]
  cases m.get? key <;> simp

theorem entries_eq (m : Keyed α) :
    m.entries = m.keys.filterMap fun key => (m.get? key).map fun value => (key, value) := by
  rw [keys, List.filterMap_map]
  have each : ∀ e ∈ m.entries, ((m.get? e.1).map fun value => (e.1, value)) = some e := by
    intro e he
    rw [get?_eq_some_iff.mpr he, Option.map_some]
  exact (List.filterMap_some.symm.trans (List.filterMap_congr fun e he => (each e he).symm))

/-- Maps with the same keys in the same order and the same values are equal. -/
theorem ext_get? {m n : Keyed α} (keys : m.keys = n.keys) (h : ∀ k, m.get? k = n.get? k) : m = n := by
  apply ext_entries
  rw [entries_eq, entries_eq n, keys, funext h]

theorem mem_entries_insert {m : Keyed α} {key : String} {value : α} {e : String × α}
    (h : e ∈ (m.insert key value).entries) : e = (key, value) ∨ e ∈ m.entries := by
  obtain ⟨k, v⟩ := e
  rw [← get?_eq_some_iff, get?_insert] at h
  split at h
  · next same =>
    cases h
    exact .inl (by rw [same])
  · exact .inr (get?_eq_some_iff.mp h)

theorem insert_same {m : Keyed α} {key : String} {value : α} (there : m.get? key = some value) :
    m.insert key value = m := by
  refine ext_get? ?_ fun k => ?_
  · rw [keys_insert, if_pos (mem_keys_iff.mpr ⟨value, there⟩)]
  · rw [get?_insert]
    split
    · next same => rw [same, there]
    · rfl

/-! ## Changing one value -/

/-- The value at a key changed, if there is one. -/
def adjust (m : Keyed α) (key : String) (f : α → α) : Keyed α :=
  match m.get? key with
  | some value => m.insert key (f value)
  | none => m

@[simp]
theorem get?_adjust (m : Keyed α) (key : String) (f : α → α) (k : String) :
    (m.adjust key f).get? k = (m.get? k).map fun value => if k = key then f value else value := by
  unfold adjust
  by_cases same : k = key
  · subst same
    cases there : m.get? k with
    | none => exact there
    | some value => simp
  · simp only [if_neg same, Option.map_id']
    cases m.get? key with
    | none => rfl
    | some value => rw [get?_insert, if_neg same]

@[simp]
theorem keys_adjust (m : Keyed α) (key : String) (f : α → α) : (m.adjust key f).keys = m.keys := by
  unfold adjust
  cases there : m.get? key with
  | none => rfl
  | some value => rw [keys_insert, if_pos (mem_keys_iff.mpr ⟨value, there⟩)]

/-! ## Filters -/

@[simp]
theorem get?_filter (m : Keyed α) (p : String → α → Bool) (key : String) :
    (m.filter p).get? key = (m.get? key).filter (p key) := by
  apply Option.ext
  intro value
  rw [Option.filter_eq_some_iff, get?_eq_some_iff, get?_eq_some_iff]
  exact List.mem_filter

/-- A value that was set makes no difference once its key is removed. -/
theorem erase_insert (m : Keyed α) (key : String) (value : α) :
    (m.insert key value).erase key = m.erase key := by
  have entries (entries : List (String × α)) :
      ((insertEntry key value entries).filter fun e => e.1 != key) =
        entries.filter fun e => e.1 != key := by
    induction entries with
    | nil => simp [insertEntry]
    | cons e rest ih =>
      obtain ⟨k, v⟩ := e
      by_cases same : k = key
      · simp [insertEntry, same]
      · simp [insertEntry, same, ih]
  exact ext_entries (entries m.entries)

/-! ## Setting entries one after the other -/

/-- A map with the entries of a list set on it one after the other. -/
def insertAll (m : Keyed α) (entries : List (String × α)) : Keyed α :=
  entries.foldl (fun m e => m.insert e.1 e.2) m

theorem get?_insertAll (m : Keyed α) {entries : List (String × α)}
    (distinct : (entries.map Prod.fst).Nodup) (key : String) :
    (m.insertAll entries).get? key = (entries.lookup key).or (m.get? key) := by
  induction entries generalizing m with
  | nil => rfl
  | cons e rest ih =>
    obtain ⟨k, v⟩ := e
    obtain ⟨fresh, distinct⟩ := List.nodup_cons.mp distinct
    rw [insertAll, List.foldl_cons]
    have later := ih (m.insert k v) distinct
    rw [insertAll] at later
    rw [later, get?_insert, List.lookup_cons]
    by_cases h : key = k
    · subst h
      rw [lookup_eq_none_of_fresh fresh, if_pos rfl, beq_self_eq_true]
      rfl
    · rw [if_neg h, beq_eq_false_iff_ne.mpr h]

theorem mem_of_get?_insertAll {m : Keyed α} {entries : List (String × α)} {key : String} {value : α}
    (h : (m.insertAll entries).get? key = some value) :
    (key, value) ∈ entries ∨ m.get? key = some value := by
  induction entries generalizing m with
  | nil => exact .inr h
  | cons e rest ih =>
    rcases ih h with mem | h
    · exact .inl (List.mem_cons_of_mem _ mem)
    · rw [get?_insert] at h
      split at h
      · next eq =>
        cases h
        exact .inl (by rw [eq]; exact List.mem_cons_self ..)
      · exact .inr h

theorem keys_insertAll_of_subset {m : Keyed α} {entries : List (String × α)}
    (subset : ∀ e ∈ entries, e.1 ∈ m.keys) : (m.insertAll entries).keys = m.keys := by
  induction entries generalizing m with
  | nil => rfl
  | cons e rest ih =>
    have first : (m.insert e.1 e.2).keys = m.keys := by
      rw [keys_insert, if_pos (subset e (List.mem_cons_self ..))]
    have later := ih (m := m.insert e.1 e.2) fun f hf => first ▸ subset f (List.mem_cons_of_mem _ hf)
    rw [← first, ← later]
    rfl

theorem keys_insertAll_of_fresh {m : Keyed α} {entries : List (String × α)}
    (distinct : (entries.map Prod.fst).Nodup) (fresh : ∀ e ∈ entries, e.1 ∉ m.keys) :
    (m.insertAll entries).keys = m.keys ++ entries.map Prod.fst := by
  induction entries generalizing m with
  | nil => exact (List.append_nil _).symm
  | cons e rest ih =>
    obtain ⟨apart, distinct⟩ := List.nodup_cons.mp distinct
    have first : (m.insert e.1 e.2).keys = m.keys ++ [e.1] := by
      rw [keys_insert, if_neg (fresh e (List.mem_cons_self ..))]
    have later := ih (m := m.insert e.1 e.2) distinct fun f hf => by
      rw [first, List.mem_append, List.mem_singleton, not_or]
      refine ⟨fresh f (List.mem_cons_of_mem _ hf), fun eq => ?_⟩
      exact apart (eq ▸ List.mem_map_of_mem hf)
    rw [insertAll] at later
    rw [insertAll, List.foldl_cons, later, first, List.append_assoc]
    rfl

theorem insertAll_empty (m : Keyed α) : empty.insertAll m.entries = m := by
  apply ext_get?
  · rw [keys_insertAll_of_fresh m.distinct fun _ _ h => by cases h]
    rfl
  · intro key
    rw [get?_insertAll _ m.distinct]
    exact Option.or_none

end Handoff.Keyed
