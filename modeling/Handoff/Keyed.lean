/-!
# Maps that remember their order

A `Keyed α` holds at most one value for each key, in the order in which the keys came in. A value
that replaces another takes its place; a key that was removed and comes back goes to the end.

Results, on the view `get?`: `get?_insert`, `get?_erase`, and `keys_insert` for the order.
-/
namespace Handoff

/-- A finite map from texts, in order of first insertion. -/
structure Keyed (α : Type) where
  entries : List (String × α)
  /-- No key occurs twice. -/
  distinct : (entries.map Prod.fst).Nodup

namespace Keyed

variable {α β : Type}

/-- The value at a key replaced, or added at the end. -/
def insertEntry (key : String) (value : α) : List (String × α) → List (String × α)
  | [] => [(key, value)]
  | (k, v) :: rest =>
    if k = key then (key, value) :: rest else (k, v) :: insertEntry key value rest

theorem keys_insertEntry (key : String) (value : α) (entries : List (String × α)) :
    (insertEntry key value entries).map Prod.fst =
      if key ∈ entries.map Prod.fst then entries.map Prod.fst
      else entries.map Prod.fst ++ [key] := by
  induction entries with
  | nil => simp [insertEntry]
  | cons e rest ih =>
    obtain ⟨k, v⟩ := e
    by_cases h : k = key
    · simp [insertEntry, h]
    · have h' : ¬key = k := fun e => h e.symm
      by_cases m : key ∈ rest.map Prod.fst
      · rw [if_pos m] at ih
        rw [insertEntry, if_neg h, List.map_cons, ih, if_pos (by simp [m])]
        rfl
      · rw [if_neg m] at ih
        rw [insertEntry, if_neg h, List.map_cons, ih, if_neg (by simp [h', m])]
        rfl

theorem nodup_insertEntry {key : String} {value : α} {entries : List (String × α)}
    (h : (entries.map Prod.fst).Nodup) : ((insertEntry key value entries).map Prod.fst).Nodup := by
  rw [keys_insertEntry]
  split
  · exact h
  · next fresh =>
    rw [List.nodup_append]
    refine ⟨h, by simp, ?_⟩
    intro a ha b hb e
    rw [List.mem_singleton] at hb
    exact fresh (hb ▸ e ▸ ha)

def empty : Keyed α := ⟨[], List.nodup_nil⟩

instance : Inhabited (Keyed α) := ⟨empty⟩

/-- The value at a key. -/
def get? (m : Keyed α) (key : String) : Option α :=
  m.entries.lookup key

def contains (m : Keyed α) (key : String) : Bool :=
  (m.get? key).isSome

/-- Sets the value at a key, in place if it has one. -/
def insert (m : Keyed α) (key : String) (value : α) : Keyed α :=
  ⟨insertEntry key value m.entries, nodup_insertEntry m.distinct⟩

def filter (m : Keyed α) (p : String → α → Bool) : Keyed α :=
  ⟨m.entries.filter fun e => p e.1 e.2,
    List.Nodup.sublist (List.filter_sublist.map _) m.distinct⟩

def erase (m : Keyed α) (key : String) : Keyed α :=
  m.filter fun k _ => k != key

def size (m : Keyed α) : Nat := m.entries.length

def isEmpty (m : Keyed α) : Bool := m.entries.isEmpty

/-- The keys in order. -/
def keys (m : Keyed α) : List String := m.entries.map Prod.fst

/-- Inserts the entries of a list one after the other. -/
def ofList (entries : List (String × α)) : Keyed α :=
  entries.foldl (fun m e => m.insert e.1 e.2) empty

theorem ext_entries {m n : Keyed α} (h : m.entries = n.entries) : m = n := by
  cases m; cases n; cases h; rfl

theorem lookup_insertEntry (key : String) (value : α) (entries : List (String × α)) (k : String) :
    (insertEntry key value entries).lookup k =
      if k = key then some value else entries.lookup k := by
  induction entries with
  | nil =>
    by_cases h : k = key
    · simp [insertEntry, h]
    · simp [insertEntry, List.lookup_cons, h, beq_eq_false_iff_ne.mpr h]
  | cons e rest ih =>
    obtain ⟨k', v⟩ := e
    by_cases h : k' = key
    · subst h
      by_cases h' : k = k'
      · simp [insertEntry, h']
      · simp [insertEntry, List.lookup_cons, h', beq_eq_false_iff_ne.mpr h']
    · by_cases h' : k = k'
      · subst h'
        simp [insertEntry, h]
      · simp [insertEntry, h, List.lookup_cons, beq_eq_false_iff_ne.mpr h', ih]

/-- Insertion sets one key and leaves the others. -/
@[simp]
theorem get?_insert (m : Keyed α) (key : String) (value : α) (k : String) :
    (m.insert key value).get? k = if k = key then some value else m.get? k :=
  lookup_insertEntry key value m.entries k

/-- Insertion keeps the order; a new key comes last. -/
theorem keys_insert (m : Keyed α) (key : String) (value : α) :
    (m.insert key value).keys = if key ∈ m.keys then m.keys else m.keys ++ [key] :=
  keys_insertEntry key value m.entries

theorem lookup_filter_key (key : String) (entries : List (String × α)) (k : String) :
    (entries.filter fun e => e.1 != key).lookup k =
      if k = key then none else entries.lookup k := by
  induction entries with
  | nil => simp
  | cons e rest ih =>
    obtain ⟨k', v⟩ := e
    by_cases h : k' = key
    · subst h
      rw [List.filter_cons_of_neg (by simp), ih]
      by_cases h' : k = k'
      · rw [if_pos h', if_pos h']
      · simp [h', List.lookup_cons, beq_eq_false_iff_ne.mpr h']
    · by_cases h' : k = k'
      · subst h'
        simp [h]
      · simp [h, ih, List.lookup_cons, beq_eq_false_iff_ne.mpr h']

/-- Removal empties one key and leaves the others. -/
@[simp]
theorem get?_erase (m : Keyed α) (key k : String) :
    (m.erase key).get? k = if k = key then none else m.get? k :=
  lookup_filter_key key m.entries k

end Keyed
end Handoff
