import Handoff.Proofs.Keyed
import Mathlib.Algebra.Order.Sub.Basic
import Mathlib.Data.Nat.SuccPred
import Mathlib.Order.Lattice.Nat
/-!
# Maps that remember their order, and what was done to them

A map is made by setting and removing keys. Of what was done to it only the `settings` of each key count:
the places of the history at which the key is set and after which it is not removed. A key without
settings is not there. The last of its settings gives its value, the first one its place among the keys.

One change more moves the settings of its own key only (`settings_set`, `settings_remove`,
`settings_append`). By induction on the history from its end, the map is what the settings say.

Results:
* `get?_edited`, `mem_keys_edited`: which keys there are, and with which values.
* `keys_edited_pairwise`: in which order the keys stand.
-/
namespace Handoff.Keyed

variable {α : Type}

/-- A change of a map: a key gets a value, or loses the one it has. -/
inductive Edit (α : Type) where
  | set (key : String) (value : α)
  | remove (key : String)

/-- The key that a change is about. -/
def Edit.key : Edit α → String
  | .set key _ => key
  | .remove key => key

def edit (m : Keyed α) : Edit α → Keyed α
  | .set key value => m.insert key value
  | .remove key => m.erase key

/-- The map after a history of changes, from nothing. -/
def edited (edits : List (Edit α)) : Keyed α := edits.foldl edit empty

theorem edited_append (edits : List (Edit α)) (e : Edit α) :
    edited (edits ++ [e]) = (edited edits).edit e := by
  rw [edited, List.foldl_append]
  rfl

theorem keys_erase (m : Keyed α) (key : String) :
    (m.erase key).keys = m.keys.filter fun k => k != key := by
  rw [keys, keys, List.filter_map]
  rfl

/-! ## Settings -/

/-- The places of a history at which a key is set and after which it is not removed. -/
def settings (edits : List (Edit α)) (key : String) : Set ℕ :=
  {i | (∃ value, edits[i]? = some (.set key value)) ∧ ∀ j, i < j → edits[j]? ≠ some (.remove key)}

variable {edits : List (Edit α)} {key : String} {i : ℕ}

theorem mem_settings_iff : i ∈ settings edits key ↔
    (∃ value, edits[i]? = some (.set key value)) ∧ ∀ j, i < j → edits[j]? ≠ some (.remove key) :=
  Iff.rfl

theorem lt_length_of_mem_settings (h : i ∈ settings edits key) : i < edits.length := by
  obtain ⟨⟨value, sets⟩, -⟩ := h
  exact (List.getElem?_eq_some_iff.mp sets).1

theorem getElem?_before (e : Edit α) (h : i < edits.length) : (edits ++ [e])[i]? = edits[i]? :=
  List.getElem?_append_left h

theorem getElem?_append_iff {e f : Edit α} :
    (edits ++ [e])[i]? = some f ↔ edits[i]? = some f ∨ i = edits.length ∧ e = f := by
  rcases lt_trichotomy i edits.length with before | rfl | behind
  · rw [getElem?_before e before]
    exact ⟨.inl, fun h => h.elim id fun last => absurd last.1 before.ne⟩
  · simp
  · have short : (edits ++ [e]).length ≤ i := by simpa using behind
    rw [List.getElem?_eq_none short, List.getElem?_eq_none behind.le]
    simp [behind.ne']

/-- A change leaves the settings of other keys. -/
theorem settings_append {e : Edit α} (other : e.key ≠ key) :
    settings (edits ++ [e]) key = settings edits key := by
  have set : ∀ value, e ≠ .set key value := by
    rintro value rfl
    exact other rfl
  have remove : e ≠ .remove key := by
    rintro rfl
    exact other rfl
  ext i
  simp only [mem_settings_iff, getElem?_append_iff, set, remove, and_false, or_false, ne_eq]

/-- A key that is set has one setting more, at the end. -/
theorem settings_set (value : α) :
    settings (edits ++ [.set key value]) key = settings edits key ∪ {edits.length} := by
  ext i
  simp only [mem_settings_iff, Set.mem_union, Set.mem_singleton_iff, getElem?_append_iff, reduceCtorEq,
    and_false, or_false, ne_eq]
  constructor
  · rintro ⟨⟨w, sets | ⟨last, -⟩⟩, stays⟩
    · exact .inl ⟨⟨w, sets⟩, stays⟩
    · exact .inr last
  · rintro (⟨⟨w, sets⟩, stays⟩ | rfl)
    · exact ⟨⟨w, .inl sets⟩, stays⟩
    · refine ⟨⟨value, .inr ⟨rfl, rfl⟩⟩, fun j behind => ?_⟩
      rw [List.getElem?_eq_none behind.le]
      nofun

/-- A key that is removed has no settings. -/
theorem settings_remove : settings (edits ++ [.remove key]) key = ∅ := by
  ext i
  refine iff_of_false (fun mem => ?_) (Set.notMem_empty i)
  have before : i < edits.length := by
    obtain ⟨⟨value, sets⟩, -⟩ := mem
    rw [getElem?_append_iff] at sets
    rcases sets with sets | ⟨-, last⟩
    · exact (List.getElem?_eq_some_iff.mp sets).1
    · cases last
  exact mem.2 edits.length before (getElem?_append_iff.mpr (.inr ⟨rfl, rfl⟩))

/-! ## What the settings say -/

theorem isGreatest_settings_set (value : α) :
    IsGreatest (settings (edits ++ [.set key value]) key) edits.length := by
  rw [settings_set]
  refine ⟨.inr rfl, ?_⟩
  rintro i (mem | rfl)
  · exact (lt_length_of_mem_settings mem).le
  · exact le_rfl

theorem get?_edit_of_ne {e : Edit α} (other : e.key ≠ key) (m : Keyed α) :
    (m.edit e).get? key = m.get? key := by
  cases e with
  | set k v => exact (get?_insert ..).trans (if_neg (Ne.symm other))
  | remove k => exact (get?_erase ..).trans (if_neg (Ne.symm other))

/-- A key has the value of the last of its settings. -/
theorem get?_edited (edits : List (Edit α)) (key : String) (value : α) :
    (edited edits).get? key = some value ↔
      ∃ i, IsGreatest (settings edits key) i ∧ edits[i]? = some (.set key value) := by
  induction edits using List.reverseRecOn with
  | nil =>
    refine iff_of_false (fun h => by cases h) ?_
    rintro ⟨i, -, sets⟩
    cases sets
  | append_singleton edits e ih =>
    rw [edited_append]
    by_cases other : e.key = key
    · cases e with
      | set k v =>
        obtain rfl : k = key := other
        have last : IsGreatest (settings (edits ++ [.set k v]) k) edits.length :=
          isGreatest_settings_set v
        have there : (edits ++ [.set k v])[edits.length]? = some (.set k v) :=
          getElem?_append_iff.mpr (.inr ⟨rfl, rfl⟩)
        rw [edit, get?_insert, if_pos rfl]
        constructor
        · intro same
          cases same
          exact ⟨_, last, there⟩
        · rintro ⟨i, greatest, sets⟩
          rw [greatest.unique last, there] at sets
          cases sets
          rfl
      | remove k =>
        obtain rfl : k = key := other
        rw [edit, get?_erase, if_pos rfl, settings_remove]
        refine iff_of_false (fun h => by cases h) ?_
        rintro ⟨i, greatest, -⟩
        exact greatest.1
    · rw [get?_edit_of_ne other, ih, settings_append other]
      refine exists_congr fun i => and_congr_right fun greatest => ?_
      rw [getElem?_before e (lt_length_of_mem_settings greatest.1)]

/-- The keys that are there are those with settings. -/
theorem mem_keys_edited (edits : List (Edit α)) (key : String) :
    key ∈ (edited edits).keys ↔ (settings edits key).Nonempty := by
  simp only [mem_keys_iff, get?_edited]
  constructor
  · rintro ⟨value, i, greatest, -⟩
    exact ⟨i, greatest.1⟩
  · intro some
    have bounded : BddAbove (settings edits key) :=
      ⟨edits.length, fun i mem => (lt_length_of_mem_settings mem).le⟩
    have last := Nat.sSup_mem some bounded
    obtain ⟨value, sets⟩ := last.1
    exact ⟨value, _, ⟨last, fun i mem => le_csSup bounded mem⟩, sets⟩

/-- One key stands before another if its first setting does. -/
def EntersBefore (edits : List (Edit α)) (p q : String) : Prop :=
  ∃ i j, IsLeast (settings edits p) i ∧ IsLeast (settings edits q) j ∧ i < j

/-- Setting a key that is there keeps its first setting. -/
theorem isLeast_settings_append {e : Edit α} (kept : e ≠ .remove key)
    (h : IsLeast (settings edits key) i) : IsLeast (settings (edits ++ [e]) key) i := by
  by_cases other : e.key = key
  · cases e with
    | set k v =>
      obtain rfl : k = key := other
      rw [settings_set]
      refine ⟨.inl h.1, ?_⟩
      rintro j (mem | rfl)
      · exact h.2 mem
      · exact (lt_length_of_mem_settings h.1).le
    | remove k =>
      obtain rfl : k = key := other
      exact absurd rfl kept
  · rwa [settings_append other]

theorem EntersBefore.append {e : Edit α} {p q : String} (hp : e ≠ .remove p) (hq : e ≠ .remove q)
    (h : EntersBefore edits p q) : EntersBefore (edits ++ [e]) p q := by
  obtain ⟨i, j, least, least', lt⟩ := h
  exact ⟨i, j, isLeast_settings_append hp least, isLeast_settings_append hq least', lt⟩

/-- The keys stand in the order of their first settings. -/
theorem keys_edited_pairwise (edits : List (Edit α)) :
    (edited edits).keys.Pairwise (EntersBefore edits) := by
  induction edits using List.reverseRecOn with
  | nil => exact List.Pairwise.nil
  | append_singleton edits e ih =>
    rw [edited_append]
    cases e with
    | set k v =>
      have still : (edited edits).keys.Pairwise (EntersBefore (edits ++ [.set k v])) :=
        ih.imp fun h => h.append nofun nofun
      rw [edit, keys_insert]
      split
      · exact still
      · next fresh =>
        -- A new key has one setting, which is at the end of the history.
        have none : settings edits k = ∅ := by
          rwa [mem_keys_edited, Set.not_nonempty_iff_eq_empty] at fresh
        have last : IsLeast (settings (edits ++ [.set k v]) k) edits.length := by
          rw [settings_set, none, Set.empty_union]
          exact isLeast_singleton
        refine List.pairwise_append.mpr ⟨still, List.pairwise_singleton .., fun p hp q hq => ?_⟩
        obtain rfl := List.mem_singleton.mp hq
        obtain some := (mem_keys_edited edits p).mp hp
        have least : IsLeast (settings edits p) (sInf (settings edits p)) :=
          ⟨Nat.sInf_mem some, fun _ mem => Nat.sInf_le mem⟩
        exact ⟨_, _, isLeast_settings_append nofun least, last, lt_length_of_mem_settings least.1⟩
    | remove k =>
      rw [edit, keys_erase]
      refine (ih.filter _).imp_of_mem fun hp hq h => ?_
      have other {p : String} (hp : p ∈ (edited edits).keys.filter fun x => x != k) :
          Edit.remove (α := α) k ≠ .remove p := by
        intro same
        cases same
        simp at hp
      exact h.append (other hp) (other hq)

end Handoff.Keyed
