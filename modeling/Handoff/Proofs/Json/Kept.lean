import Handoff.Proofs.Json.Numeral
import Handoff.Proofs.Sorted
/-!
# Members read from a value

Whether members can be read depends on each of them alone: neither on the record read so far nor on
what the others hold. So a record is still read when members are replaced by others that can be read.

Results:
* `readKept_cons`, `readPlaces_cons`: one member is read, in either form of a record.
* `readKept_of_passes`, `readPlaces_of_passes`: members that can be read in place of others.
-/
namespace Handoff

theorem map_ok {ε α β : Type} {x : Except ε α} {a : α} (h : x = .ok a) (f : α → β) :
    f <$> x = .ok (f a) := by
  rw [h]
  rfl

section
variable {σ : Type} {fields : List (KeptField σ)}

/-- Whether a member can be read from a value. -/
def KeptField.Reads (f : KeptField σ) (v : Json) : Prop := ∃ set, f.read v = .ok set

/-- A member can be read wherever another one of that name can be. -/
def Passes (fields : List (KeptField σ)) (e e' : String × Json) : Prop :=
  e.1 = e'.1 ∧ ∀ f ∈ fields, f.name = e.1 → f.Reads e.2 → f.Reads e'.2

/-- One member of an object is read. -/
theorem readKept_cons {seen : List String} {sofar : σ} {name : String} {v : Json}
    {rest : List (String × Json)} {f : KeptField σ} {set : σ → σ}
    (known : fields.find? (fun f => f.name == name) = some f) (fresh : seen.contains name = false)
    (read : f.read v = .ok set) :
    readKept fields seen sofar ((name, v) :: rest) =
      readKept fields (name :: seen) (set sofar) rest := by
  rw [readKept, known]
  dsimp only
  rw [fresh, read]
  rfl

/-- A record is read as well from members that can be read in place of its own. -/
theorem readKept_of_passes {members members' : List (String × Json)}
    (h : List.Forall₂ (Passes fields) members members') {seen : List String} {sofar sofar' r : σ}
    (read : readKept fields seen sofar members = .ok r) :
    ∃ r', readKept fields seen sofar' members' = .ok r' := by
  induction h generalizing seen sofar sofar' with
  | nil => exact ⟨sofar', rfl⟩
  | @cons e e' rest rest' first _ ih =>
    obtain ⟨name, v⟩ := e
    obtain ⟨name', v'⟩ := e'
    obtain ⟨rfl, passes⟩ := first
    rw [readKept] at read ⊢
    cases known : fields.find? fun f => f.name == name with
    | none =>
      rw [known] at read
      exact ih read
    | some f =>
      rw [known] at read
      dsimp only at read ⊢
      cases again : seen.contains name with
      | true =>
        rw [again] at read
        cases read
      | false =>
        rw [again] at read
        obtain ⟨set, value, later⟩ := exists_of_bind_eq_ok read
        have named : (f.name == name) = true :=
          List.find?_some (p := fun f : KeptField σ => f.name == name) known
        obtain ⟨set', value'⟩ := passes f (List.mem_of_find?_eq_some known) (beq_iff_eq.mp named)
          ⟨set, value⟩
        rw [value']
        exact ih later

/-- One item of a list is read. -/
theorem readPlaces_cons (length : ℕ) (f : KeptField σ) (sofar : σ) (v : Json) (rest : List Json) :
    Json.readPlaces length (f :: fields) sofar (v :: rest) = (do
      let set ← f.read v
      Json.readPlaces length fields (set sofar) rest) := by
  rw [Json.readPlaces]

/-- A record is read as well from items that can be read in place of its own. -/
theorem readPlaces_of_passes {length : ℕ} {items items' : List Json} {sofar sofar' r : σ}
    (same : items.length = items'.length)
    (passes : ∀ (place : ℕ) (f : KeptField σ) (v v' : Json), fields[place]? = some f →
      items[place]? = some v → items'[place]? = some v' → f.Reads v → f.Reads v')
    (read : Json.readPlaces length fields sofar items = .ok r) :
    ∃ r', Json.readPlaces length fields sofar' items' = .ok r' := by
  induction items generalizing items' fields sofar sofar' with
  | nil =>
    cases List.length_eq_zero_iff.mp same.symm
    cases fields <;> exact ⟨sofar', rfl⟩
  | cons v rest ih =>
    cases items' with
    | nil => cases same
    | cons v' rest' =>
      cases fields with
      | nil => cases read
      | cons f fields =>
        rw [readPlaces_cons] at read
        obtain ⟨set, value, later⟩ := exists_of_bind_eq_ok read
        obtain ⟨set', value'⟩ := passes 0 f v v' rfl rfl rfl ⟨set, value⟩
        rw [readPlaces_cons, value']
        exact ih (Nat.succ.inj same) (fun place => passes (place + 1)) later

end
end Handoff
