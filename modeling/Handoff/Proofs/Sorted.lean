import Handoff.Json.Value
import Handoff.Proofs.Keyed
/-!
# Entries sorted by name

Members of a value and named widths are put among sorted entries in the same way, one after the other.
`put` is that way for entries of any kind, `putAll` the whole of it. Entries that are sorted already are
taken as they come, and of several with one name the last one is found.

Results:
* `putAll_of_sorted`: sorted entries stay as they are.
* `lookup_putAll`: what is found under a name.
* `putAll_change`: changing what entries hold, name by name, goes with putting them.
* `Json.sortMembers_object`: what sorting does to an object.
-/
namespace Handoff.Sorted

variable {α β : Type}

/-- Entries in ascending order of their names, no name twice. -/
def Ascending (entries : List (String × α)) : Prop :=
  entries.Pairwise fun a b => a.1 < b.1

/-- An entry put among sorted ones; it replaces one of its name. -/
def put (name : String) (v : α) : List (String × α) → List (String × α)
  | [] => [(name, v)]
  | (n, w) :: rest =>
    if name < n then (name, v) :: (n, w) :: rest
    else if n < name then (n, w) :: put name v rest
    else (name, v) :: rest

/-- Entries put among sorted ones one after the other. -/
def putAll (sofar entries : List (String × α)) : List (String × α) :=
  entries.foldl (fun sofar e => put e.1 e.2 sofar) sofar

theorem putAll_cons (sofar : List (String × α)) (e : String × α) (rest : List (String × α)) :
    putAll sofar (e :: rest) = putAll (put e.1 e.2 sofar) rest := rfl

theorem eq_of_not_lt {a b : String} (h : ¬a < b) (h' : ¬b < a) : a = b :=
  String.le_antisymm (String.not_lt.mp h') (String.not_lt.mp h)

/-! ## Order -/

theorem mem_put {name : String} {v : α} {entries : List (String × α)} {e : String × α}
    (h : e ∈ put name v entries) : e = (name, v) ∨ e ∈ entries := by
  induction entries with
  | nil => exact .inl (List.mem_singleton.mp h)
  | cons first rest ih =>
    unfold put at h
    split_ifs at h with before behind
    · exact List.mem_cons.mp h
    · rcases List.mem_cons.mp h with rfl | h
      · exact .inr (List.mem_cons_self ..)
      · exact (ih h).imp_right (List.mem_cons_of_mem _)
    · exact (List.mem_cons.mp h).imp_right (List.mem_cons_of_mem _)

theorem ascending_put (name : String) (v : α) {entries : List (String × α)} (h : Ascending entries) :
    Ascending (put name v entries) := by
  induction entries with
  | nil => exact List.pairwise_singleton ..
  | cons first rest ih =>
    obtain ⟨least, later⟩ := List.pairwise_cons.mp h
    unfold put
    split_ifs with before behind
    · refine List.pairwise_cons.mpr ⟨fun e he => ?_, h⟩
      rcases List.mem_cons.mp he with rfl | he
      · exact before
      · exact String.lt_trans before (least e he)
    · refine List.pairwise_cons.mpr ⟨fun e he => ?_, ih later⟩
      rcases mem_put he with rfl | he
      · exact behind
      · exact least e he
    · cases eq_of_not_lt before behind
      exact List.pairwise_cons.mpr ⟨least, later⟩

theorem ascending_putAll {sofar : List (String × α)} (h : Ascending sofar)
    (entries : List (String × α)) : Ascending (putAll sofar entries) := by
  induction entries generalizing sofar with
  | nil => exact h
  | cons e rest ih => exact ih (ascending_put e.1 e.2 h)

theorem Ascending.nodup {entries : List (String × α)} (h : Ascending entries) :
    (entries.map Prod.fst).Nodup :=
  List.pairwise_map.mpr (h.imp fun {a b} lt (eq : a.1 = b.1) => String.lt_irrefl b.1 (eq ▸ lt))

theorem put_of_last {name : String} (v : α) {entries : List (String × α)}
    (h : ∀ e ∈ entries, e.1 < name) : put name v entries = entries ++ [(name, v)] := by
  induction entries with
  | nil => rfl
  | cons first rest ih =>
    obtain ⟨here, later⟩ := List.forall_mem_cons.mp h
    unfold put
    rw [if_neg (String.lt_asymm here), if_pos here, ih later]
    rfl

theorem putAll_of_ascending {sofar entries : List (String × α)} (h : Ascending (sofar ++ entries)) :
    putAll sofar entries = sofar ++ entries := by
  induction entries generalizing sofar with
  | nil => exact (List.append_nil sofar).symm
  | cons e rest ih =>
    have last : ∀ d ∈ sofar, d.1 < e.1 := fun d hd =>
      (List.pairwise_append.mp h).2.2 d hd e (List.mem_cons_self ..)
    have step : sofar ++ e :: rest = (sofar ++ [e]) ++ rest := List.append_cons ..
    rw [putAll_cons, put_of_last e.2 last, step]
    exact ih (step ▸ h)

/-- Sorted entries stay as they are. -/
theorem putAll_of_sorted {entries : List (String × α)} (h : Ascending entries) :
    putAll [] entries = entries := by
  have stays : Ascending ([] ++ entries) := h
  rw [putAll_of_ascending stays, List.nil_append]

/-! ## Look-up -/

theorem lookup_cons_eq (k name : String) (v : α) (rest : List (String × α)) :
    ((name, v) :: rest).lookup k = if k = name then some v else rest.lookup k := by
  rw [List.lookup_cons]
  cases h : k == name
  · rw [if_neg (beq_eq_false_iff_ne.mp h)]
  · rw [if_pos (beq_iff_eq.mp h)]

theorem lookup_put (name : String) (v : α) (entries : List (String × α)) (k : String) :
    (put name v entries).lookup k = if k = name then some v else entries.lookup k := by
  induction entries with
  | nil => exact lookup_cons_eq k name v []
  | cons first rest ih =>
    obtain ⟨n, w⟩ := first
    unfold put
    split
    · exact lookup_cons_eq ..
    · next before =>
      split
      · next behind =>
        have apart : n ≠ name := fun eq => String.lt_irrefl name (eq ▸ behind)
        rw [lookup_cons_eq, lookup_cons_eq, ih]
        split
        · next same => rw [if_neg (same ▸ apart)]
        · rfl
      · next behind =>
        rw [← eq_of_not_lt before behind, lookup_cons_eq, lookup_cons_eq]
        split <;> rfl

/-- Of entries with one name the last one is found. -/
theorem lookup_putAll (entries : List (String × α)) (k : String) :
    (putAll [] entries).lookup k = entries.reverse.lookup k := by
  have general (sofar : List (String × α)) :
      (putAll sofar entries).lookup k = (entries.reverse.lookup k).or (sofar.lookup k) := by
    induction entries generalizing sofar with
    | nil => rfl
    | cons e rest ih =>
      have single : [e].lookup k = if k = e.1 then some e.2 else none :=
        lookup_cons_eq k e.1 e.2 []
      rw [putAll_cons, ih, lookup_put, List.reverse_cons, List.lookup_append, single,
        Option.or_assoc]
      congr 1
      split <;> rfl
  rw [general, List.lookup_nil, Option.or_none]

/-! ## Changed entries -/

/-- The entries with what they hold changed, name by name. -/
def change (f : String → α → β) (entries : List (String × α)) : List (String × β) :=
  entries.map fun e => (e.1, f e.1 e.2)

theorem put_change (f : String → α → β) (name : String) (v : α) (entries : List (String × α)) :
    put name (f name v) (change f entries) = change f (put name v entries) := by
  induction entries with
  | nil => rfl
  | cons first rest ih =>
    show put name (f name v) ((first.1, f first.1 first.2) :: change f rest) = _
    unfold put
    split_ifs
    · rfl
    · rw [ih]
      rfl
    · rfl

theorem lookup_change (f : String → α → β) (entries : List (String × α)) (k : String) :
    (change f entries).lookup k = (entries.lookup k).map (f k) := by
  induction entries with
  | nil => rfl
  | cons first rest ih =>
    show ((first.1, f first.1 first.2) :: change f rest).lookup k =
      (((first.1, first.2) :: rest).lookup k).map (f k)
    rw [lookup_cons_eq, lookup_cons_eq, ih]
    split
    · next same =>
      rw [same]
      rfl
    · rfl

/-- Changing what entries hold, name by name, goes with putting them. -/
theorem putAll_change (f : String → α → β) (sofar entries : List (String × α)) :
    putAll (change f sofar) (change f entries) = change f (putAll sofar entries) := by
  induction entries generalizing sofar with
  | nil => rfl
  | cons e rest ih =>
    show putAll (put e.1 (f e.1 e.2) (change f sofar)) (change f rest) = _
    rw [put_change, ih, putAll_cons]

end Handoff.Sorted

namespace Handoff
open Sorted (put putAll change)

/-! ## Members -/

namespace Json

theorem insertSorted_eq (name : String) (v : Json) (members : List (String × Json)) :
    insertSorted name v members = put name v members := by
  induction members with
  | nil => rfl
  | cons first rest ih => rw [insertSorted, put, ih]

theorem sortOnto_eq (sofar members : List (String × Json)) :
    sortMembers.sortOnto sofar members = putAll sofar (change (fun _ => sortMembers) members) := by
  induction members generalizing sofar with
  | nil => rfl
  | cons e rest ih => rw [sortMembers.sortOnto, ih, insertSorted_eq]; rfl

/-- An object is sorted by putting its members, each sorted, one after the other. -/
theorem sortMembers_object (members : List (String × Json)) :
    (object members).sortMembers = .object (putAll [] (change (fun _ => sortMembers) members)) := by
  rw [sortMembers, sortOnto_eq]

theorem sortAll_eq (items : List Json) : sortMembers.sortAll items = items.map sortMembers := by
  induction items with
  | nil => rfl
  | cons v vs ih => rw [sortMembers.sortAll, ih, List.map_cons]

theorem sortMembers_array (items : List Json) :
    (array items).sortMembers = .array (items.map sortMembers) := by
  rw [sortMembers, sortAll_eq]

end Json
end Handoff
