import Handoff.Proofs.Json.Reader
/-!
# Records read back

A field serves the slots of a record when all that it does to them is to fill its own, with what
fits, and when it reads what fits off its own. A reader that can be trusted with a slot makes such a
field (`Fills.serves`). If all fields serve their slots, then reading a record from either of its
forms fills what has to be there, and reading the members of a printed record fills them as they
were.

Results:
* `fits_readObject`, `fits_readItems`: a record that is read fits.
* `readObject_source`: a record whose members are printed among others is read back.
* `RecordFormat.prints`: a format whose fields serve the slots it is printed from.
-/
namespace Handoff

namespace Json

/-! ## Filling slots -/

def fill (name : String) (v : Option Json) (slots : Slots) : Slots :=
  slots.map fun e => if e.1 = name then (name, v) else e

theorem fill_cons_self (name : String) (u v : Option Json) (rest : Slots) :
    fill name v ((name, u) :: rest) = (name, v) :: fill name v rest := by
  rw [fill, List.map_cons, if_pos rfl]
  rfl

theorem fill_of_fresh {name : String} {v : Option Json} {slots : Slots}
    (fresh : name ∉ slots.map Prod.fst) : fill name v slots = slots := by
  refine (List.map_congr_left fun e he => if_neg ?_).trans (List.map_id slots)
  rintro rfl
  exact fresh (List.mem_map_of_mem he)

theorem mem_of_mem_fill {name : String} {v : Option Json} {slots : Slots} {e : String × Option Json}
    (h : e ∈ fill name v slots) : e = (name, v) ∨ e ∈ slots ∧ e.1 ≠ name := by
  obtain ⟨e', he', rfl⟩ := List.mem_map.mp h
  split
  · exact .inl rfl
  · next other => exact .inr ⟨he', other⟩

theorem set_eq_fill {slots : Slots} {i : ℕ} {name : String} {u v : Option Json}
    (there : slots[i]? = some (name, u)) (distinct : (slots.map Prod.fst).Nodup) :
    slots.set i (name, v) = fill name v slots := by
  induction slots generalizing i with
  | nil => rfl
  | cons e rest ih =>
    obtain ⟨fresh, distinct⟩ := List.nodup_cons.mp distinct
    cases i with
    | zero =>
      cases there
      rw [List.set_cons_zero, fill_cons_self, fill_of_fresh fresh]
    | succ i =>
      have there : rest[i]? = some (name, u) := there
      have other : e.1 ≠ name := fun same => fresh
        (same ▸ List.mem_map_of_mem (List.mem_of_getElem? there))
      rw [List.set_cons_succ, ih there distinct, fill, fill, List.map_cons, if_neg other]

theorem distinct_present {slots : Slots} (h : (slots.map Prod.fst).Nodup) :
    ((present slots).map Prod.fst).Nodup := by
  refine h.sublist ?_
  clear h
  induction slots with
  | nil => exact List.Sublist.slnil
  | cons e rest ih =>
    obtain ⟨name, v⟩ := e
    cases v with
    | none => exact ih.cons name
    | some v => exact ih.cons_cons name

theorem filter_present (q : String → Bool) (slots : Slots) :
    (present slots).filter (fun e => q e.1) = present (slots.filter fun e => q e.1) := by
  induction slots with
  | nil => rfl
  | cons e rest ih =>
    obtain ⟨name, v⟩ := e
    rw [present_cons, List.filter_append, ih, List.filter_cons]
    cases is : q name <;> cases v <;> simp [optional, present_cons, is]

/-- The slots with those of members filled anew, one after the other. -/
def fillAll (members : List (String × Json)) (slots : Slots) : Slots :=
  members.foldl (fun slots e => fill e.1 (some e.2) slots) slots

theorem fill_middle {name : String} {before after : Slots} (u v : Option Json)
    (hb : name ∉ before.map Prod.fst) (ha : name ∉ after.map Prod.fst) :
    fill name v (before ++ (name, u) :: after) = before ++ (name, v) :: after := by
  have append : fill name v (before ++ (name, u) :: after) =
      fill name v before ++ fill name v ((name, u) :: after) := List.map_append
  rw [append, fill_of_fresh hb, fill_cons_self, fill_of_fresh ha]

/-- The members of a record, filled into slots that are empty where its own are, give its slots. -/
theorem fillAll_present (before : Slots) {blank slots : Slots}
    (names : blank.map Prod.fst = slots.map Prod.fst)
    (distinct : ((before ++ slots).map Prod.fst).Nodup)
    (empties : ∀ name, (name, none) ∈ slots → (name, none) ∈ blank) :
    fillAll (present slots) (before ++ blank) = before ++ slots := by
  induction slots generalizing before blank with
  | nil => rw [List.map_eq_nil_iff.mp names]; rfl
  | cons e slots ih =>
    cases blank with
    | nil => cases names
    | cons e' blank =>
      obtain ⟨name, v⟩ := e
      obtain ⟨name', u⟩ := e'
      obtain ⟨same, later⟩ := List.cons.inj names
      cases (show name' = name from same)
      have apart := distinct
      rw [List.map_append, List.map_cons, List.nodup_middle, List.nodup_cons, List.mem_append,
        not_or] at apart
      obtain ⟨⟨apart_before, apart⟩, -⟩ := apart
      have step := ih (before ++ [(name, v)]) later (by rwa [List.append_assoc])
        fun n hn => by
          rcases List.mem_cons.mp (empties n (List.mem_cons_of_mem _ hn)) with here | there
          · cases here
            exact absurd (List.mem_map_of_mem hn) apart
          · exact there
      rw [List.append_assoc, List.append_assoc] at step
      cases v with
      | none =>
        rcases List.mem_cons.mp (empties name (List.mem_cons_self ..)) with here | there
        · cases here
          exact step
        · exact absurd (later ▸ List.mem_map_of_mem there) apart
      | some v =>
        show fillAll (present slots) (fill name (some v) (before ++ (name, u) :: blank)) = _
        rw [fill_middle u (some v) apart_before (later ▸ apart)]
        exact step

end Json

/-! ## Fields -/

open Json (present Slots SlotFits fill fillAll)

/-- A field and its slot: all that reading the field does is to fill the slot with what fits, and
what fits is read off the slot. A field that has to be there never leaves the slot empty; where it
need not be there, the slot of a blank record fits, and is empty if the slot ever is. -/
structure Field.Serves {σ : Type} (f : Field σ) (start : σ) (slots : σ → Slots) (depth : ℕ) :
    Prop where
  fits : ∀ s change, s.Finite → f.read depth s = .ok change →
    ∃ v, SlotFits v depth ∧ ∀ x, slots (change x) = fill f.name v (slots x)
  back : ∀ y w, (f.name, some w) ∈ slots y → w.Fits depth →
    ∃ change, f.read depth w.source = .ok change ∧
      ∀ x, slots (change x) = fill f.name (some w) (slots x)
  filled : f.required = true → ∀ x, (f.name, none) ∉ slots x
  blank : f.required = true ∨ ∀ v, (f.name, v) ∈ slots start → SlotFits v depth
  empties : ∀ x, (f.name, none) ∈ slots x → (f.name, none) ∈ slots start

section
variable {σ α : Type} {slots : σ → Slots} (distinct : ∀ x, ((slots x).map Prod.fst).Nodup)
  {r : Reader α} {slot : α → Option Json} {p : α → Json} {depth : ℕ} {name : String}
  {set : α → σ → σ} {get : σ → α} (i : ℕ)

include distinct

theorem slot_eq (there : ∀ x, (slots x)[i]? = some (name, slot (get x))) {x : σ} {v : Option Json}
    (h : (name, v) ∈ slots x) : v = slot (get x) :=
  (Prod.mk.inj (List.inj_on_of_nodup_map (distinct x) h (List.mem_of_getElem? (there x)) rfl)).2

/-- A field that reads what its slot is printed from. -/
theorem Reader.Fills.serves (h : r.Fills slot depth) {required : Bool} {start : σ}
    (there : ∀ x, (slots x)[i]? = some (name, slot (get x)))
    (same : ∀ v x, slots (set v x) = (slots x).set i (name, slot v))
    (filled : required = true → ∀ v, slot v ≠ none)
    (blank : required = true ∨ SlotFits (slot (get start)) depth)
    (empties : ∀ v, slot v = none → slot (get start) = none) :
    Field.Serves ⟨name, required, fun depth s => set <$> r depth s⟩ start slots depth where
  fits s change finite read := by
    have read : set <$> r depth s = .ok change := read
    obtain ⟨v, value, rfl⟩ := exists_of_map_eq_ok read
    refine ⟨slot v, h.fits s v finite value, fun x => ?_⟩
    rw [same, Json.set_eq_fill (there x) (distinct x)]
  back y w hw fits := by
    have own := slot_eq distinct i there hw
    have read := h.back (get y) w own.symm fits
    refine ⟨set (get y), ?_, fun x => ?_⟩
    · show set <$> r depth w.source = _
      rw [read]
      rfl
    · rw [same, ← own, Json.set_eq_fill (there x) (distinct x)]
  filled must x hx := filled must (get x) (slot_eq distinct i there hx).symm
  blank := blank.imp_right fun fits v hv => by rwa [slot_eq distinct i there hv]
  empties x hx := by
    rw [← empties (get x) (slot_eq distinct i there hx).symm]
    exact List.mem_of_getElem? (there start)

theorem Reader.Prints.needed (h : r.Prints p depth) {start : σ}
    (there : ∀ x, (slots x)[i]? = some (name, some (p (get x))))
    (same : ∀ v x, slots (set v x) = (slots x).set i (name, some (p v))) :
    (Field.needed name r set).Serves start slots depth :=
  h.fills.serves distinct i there same (fun _ _ none => by cases none) (.inl rfl)
    fun _ none => by cases none

/-- A field that has a value when it is not there. -/
theorem Reader.Prints.defaulted (h : r.Prints p depth) {start : σ}
    (there : ∀ x, (slots x)[i]? = some (name, some (p (get x))))
    (same : ∀ v x, slots (set v x) = (slots x).set i (name, some (p v)))
    (fits : (p (get start)).Fits depth) :
    (Field.defaulted name r set).Serves start slots depth :=
  h.fills.serves distinct i there same (fun must => by cases must)
    (.inr fun w hw => Option.some.inj hw ▸ fits) fun _ none => by cases none

/-- A field that leaves its slot empty when it is not there. -/
theorem Reader.Fills.defaulted (h : r.Fills slot depth) {start : σ}
    (there : ∀ x, (slots x)[i]? = some (name, slot (get x)))
    (same : ∀ v x, slots (set v x) = (slots x).set i (name, slot v))
    (unset : slot (get start) = none) :
    (Field.defaulted name r set).Serves start slots depth :=
  h.serves distinct i there same (fun must => by cases must)
    (.inr fun w hw => by rw [unset] at hw; cases hw) fun _ _ => unset

end

/-! ## Records -/

namespace RecordFormat

/-- The fields of a record have its slots, in their order, and serve them. -/
structure Serve {σ : Type} (fields : List (Field σ)) (start : σ) (slots : σ → Slots) (depth : ℕ) :
    Prop where
  each : ∀ f ∈ fields, f.Serves start slots depth
  names : ∀ x, (slots x).map Prod.fst = fields.map Field.name
  distinct : (fields.map Field.name).Nodup

variable {σ : Type} {fields : List (Field σ)} {other : String → Source → Except Fault (σ → σ)}
  {slots : σ → Slots} {start : σ} {depth : ℕ}

def known (fields : List (Field σ)) (name : String) : Bool :=
  fields.any fun f => f.name == name

/-! ### What is read fits -/

/-- What each member that is read keeps is there at the end. -/
theorem readMembers_keeps {I : List String → σ → Prop}
    (own : ∀ f ∈ fields, ∀ s change seen x, s.Finite → f.read depth s = .ok change → I seen x →
      I (f.name :: seen) (change x))
    (others : ∀ name s change seen x, s.Finite → other name s = .ok change → I seen x →
      I seen (change x))
    {members : List (Source × Source)} (finite : ∀ e ∈ members, e.2.Finite) {seen : List String}
    {x : σ} (h : I seen x) {y : σ} {seen' : List String}
    (read : readMembers fields other depth seen x members = .ok (y, seen')) : I seen' y := by
  induction members generalizing seen x with
  | nil =>
    cases read
    exact h
  | cons e rest ih =>
    obtain ⟨key, s⟩ := e
    obtain ⟨first, later⟩ := List.forall_mem_cons.mp finite
    obtain ⟨name, -, read⟩ := exists_of_bind_eq_ok read
    split at read
    · obtain ⟨change, now, read⟩ := exists_of_bind_eq_ok read
      exact ih later (others name s change seen x first now h) read
    · next f found =>
      split at read
      · cases read
      · obtain ⟨change, now, read⟩ := exists_of_bind_eq_ok read
        have named := List.find?_some found
        rw [beq_iff_eq] at named
        rw [← named] at read
        exact ih later (own f (List.mem_of_find?_eq_some found) s change seen x first now h) read

/-- Slots that do not fit are those of fields that have to be there. -/
def Pending (fields : List (Field σ)) (slots : Slots) (depth : ℕ) : Prop :=
  ∀ e ∈ slots, SlotFits e.2 depth ∨ ∃ f ∈ fields, f.name = e.1 ∧ f.required = true

/-- What every member that is read keeps is true of the record that is read from an object. -/
theorem readObject_keeps {I : σ → Prop}
    (own : ∀ f ∈ fields, ∀ s change x, s.Finite → f.read depth s = .ok change → I x → I (change x))
    (others : ∀ name s change x, s.Finite → other name s = .ok change → I x → I (change x))
    {members : List (Source × Source)} (finite : ∀ e ∈ members, e.2.Finite) (h : I start)
    {ending : Option Fault} {y : σ}
    (read : readObject fields other start depth members ending = .ok y) : I y := by
  obtain ⟨⟨z, seen⟩, members, read⟩ := exists_of_bind_eq_ok read
  obtain ⟨-, read⟩ := eq_none_of_forM read
  split at read
  · cases read
  · cases read
    exact readMembers_keeps (I := fun _ x => I x)
      (fun f mem s change _ x => own f mem s change x)
      (fun name s change _ x => others name s change x) finite h members

theorem Serve.nodup (serve : Serve fields start slots depth) (x : σ) :
    ((slots x).map Prod.fst).Nodup := by
  rw [serve.names]
  exact serve.distinct

theorem Serve.exists_field (serve : Serve fields start slots depth) {x : σ}
    {e : String × Option Json} (h : e ∈ slots x) : ∃ f ∈ fields, f.name = e.1 := by
  have named := List.mem_map_of_mem (f := Prod.fst) h
  rw [serve.names] at named
  exact List.mem_map.mp named

theorem Serve.pending (serve : Serve fields start slots depth) :
    Pending fields (slots start) depth := by
  intro e he
  obtain ⟨f, mem, named⟩ := serve.exists_field he
  rcases (serve.each f mem).blank with required | fits
  · exact .inr ⟨f, mem, named, required⟩
  · exact .inl (fits e.2 (named ▸ he))

theorem Pending.step {f : Field σ} (serves : f.Serves start slots depth) {s : Source}
    {change : σ → σ} (finite : s.Finite) (read : f.read depth s = .ok change)
    {pending pending' : List (Field σ)} {x : σ} (h : Pending pending (slots x) depth)
    (others : ∀ g ∈ pending, g.name ≠ f.name → g ∈ pending') :
    Pending pending' (slots (change x)) depth := by
  obtain ⟨v, fits, eq⟩ := serves.fits s change finite read
  rw [eq]
  intro e he
  rcases Json.mem_of_mem_fill he with rfl | ⟨there, apart⟩
  · exact .inl fits
  · refine (h e there).imp_right fun ⟨g, mem, named, required⟩ => ?_
    exact ⟨g, others g mem (named ▸ apart), named, required⟩

theorem Pending.mono {pending pending' : List (Field σ)} {slots : Slots}
    (h : Pending pending slots depth) (more : ∀ f ∈ pending, f ∈ pending') :
    Pending pending' slots depth := fun e he =>
  (h e he).imp_right fun ⟨f, mem, rest⟩ => ⟨f, more f mem, rest⟩

theorem Pending.fits {fields : List (Field σ)} {slots : Slots} (h : Pending fields slots depth)
    (none : ∀ f ∈ fields, f.required = false) : ∀ e ∈ slots, SlotFits e.2 depth := by
  intro e he
  refine (h e he).resolve_right ?_
  rintro ⟨f, mem, -, required⟩
  rw [none f mem] at required
  cases required

/-- The fields that are not seen yet. -/
def unseen (fields : List (Field σ)) (seen : List String) : List (Field σ) :=
  fields.filter fun f => !seen.contains f.name

theorem mem_unseen {f : Field σ} {seen : List String} :
    f ∈ unseen fields seen ↔ f ∈ fields ∧ f.name ∉ seen := by
  rw [unseen, List.mem_filter, Bool.not_eq_true', ← Bool.not_eq_true, List.contains_iff_mem]

theorem missing_eq_none_iff {seen : List String} :
    missing? fields seen = none ↔ ∀ f ∈ unseen fields seen, f.required = false := by
  rw [missing?, Option.map_eq_none_iff, List.find?_eq_none]
  refine forall_congr' fun f => ?_
  rw [mem_unseen, Bool.and_eq_true, Bool.not_eq_true', ← Bool.not_eq_true, List.contains_iff_mem,
    ← Bool.not_eq_true]
  tauto

section
variable (serve : Serve fields start slots depth)
include serve

/-- A record that is read from the members of an object fits. -/
theorem fits_readObject
    (others : ∀ name s change x, s.Finite → other name s = .ok change → slots (change x) = slots x)
    {members : List (Source × Source)} (finite : ∀ e ∈ members, e.2.Finite)
    {ending : Option Fault} {y : σ}
    (read : readObject fields other start depth members ending = .ok y) :
    ∀ e ∈ slots y, SlotFits e.2 depth := by
  obtain ⟨⟨z, seen⟩, members, read⟩ := exists_of_bind_eq_ok read
  obtain ⟨-, read⟩ := eq_none_of_forM read
  split at read
  · cases read
  · next all =>
    cases read
    -- At every step, what does not fit yet is a field that is not seen yet.
    have pending := readMembers_keeps
      (I := fun seen x => Pending (unseen fields seen) (slots x) depth)
      (fun f mem s change seen x finite read h =>
        h.step (serve.each f mem) finite read fun g hg apart => by
          rw [mem_unseen] at hg ⊢
          rw [List.mem_cons, not_or]
          exact ⟨hg.1, apart, hg.2⟩)
      (fun name s change seen x finite read h => by rwa [others name s change x finite read])
      finite (serve.pending.mono fun f mem => mem_unseen.mpr ⟨mem, List.not_mem_nil⟩) members
    exact pending.fits (missing_eq_none_iff.mp all)

/-- A record that is read from the values of a list fits. -/
theorem fits_readItems {expected : String} {ending : Option Fault} {place : ℕ}
    {pending : List (Field σ)} (some : ∀ f ∈ pending, f ∈ fields) {sources : List Source}
    (finite : ∀ s ∈ sources, s.Finite) {x y : σ} (h : Pending pending (slots x) depth)
    (read : readItems expected depth ending place pending sources x = .ok y) :
    ∀ e ∈ slots y, SlotFits e.2 depth := by
  induction pending generalizing place sources x with
  | nil =>
    cases sources with
    | nil =>
      cases ending with
      | some f => cases read
      | none =>
        cases read
        exact h.fits fun f mem => absurd mem List.not_mem_nil
    | cons s rest => cases read
  | cons f pending ih =>
    obtain ⟨here, later⟩ := List.forall_mem_cons.mp some
    cases sources with
    | nil =>
      cases ending with
      | some f => cases read
      | none =>
        unfold readItems at read
        dsimp only at read
        split at read
        · cases read
        · next optional =>
          refine ih later (fun s hs => absurd hs List.not_mem_nil) (fun e he => ?_) read
          refine (h e he).imp_right fun ⟨g, mem, named, required⟩ => ⟨g, ?_, named, required⟩
          refine (List.mem_cons.mp mem).resolve_left ?_
          rintro rfl
          exact optional required
    | cons s rest =>
      obtain ⟨first, more⟩ := List.forall_mem_cons.mp finite
      obtain ⟨change, now, read⟩ := exists_of_bind_eq_ok read
      refine ih later more (h.step (serve.each f here) first now fun g mem apart => ?_) read
      refine (List.mem_cons.mp mem).resolve_left ?_
      rintro rfl
      exact apart rfl

end

/-! ### What fits is read back -/

def ownMembers (fields : List (Field σ)) (members : List (String × Json)) : List (String × Json) :=
  members.filter fun e => known fields e.1

def otherMembers (fields : List (Field σ)) (members : List (String × Json)) :
    List (String × Json) :=
  members.filter fun e => !known fields e.1

theorem ownMembers_present (fields : List (Field σ)) (slots : Slots) :
    ownMembers fields (present slots) = present (slots.filter fun e => known fields e.1) :=
  Json.filter_present (known fields) slots

theorem otherMembers_present (fields : List (Field σ)) (slots : Slots) :
    otherMembers fields (present slots) = present (slots.filter fun e => !known fields e.1) :=
  Json.filter_present (fun name => !known fields name) slots

section
variable {e : String × Json} {rest : List (String × Json)}

theorem ownMembers_cons (h : known fields e.1 = true) :
    ownMembers fields (e :: rest) = e :: ownMembers fields rest :=
  List.filter_cons_of_pos h

theorem ownMembers_cons_other (h : known fields e.1 = false) :
    ownMembers fields (e :: rest) = ownMembers fields rest :=
  List.filter_cons_of_neg (Bool.not_eq_true _ ▸ h)

theorem otherMembers_cons (h : known fields e.1 = false) :
    otherMembers fields (e :: rest) = e :: otherMembers fields rest :=
  List.filter_cons_of_pos (Bool.not_eq_true' _ ▸ h)

theorem otherMembers_cons_own (h : known fields e.1 = true) :
    otherMembers fields (e :: rest) = otherMembers fields rest :=
  List.filter_cons_of_neg fun other => by rw [h] at other; cases other

end

theorem find_of_known {name : String} (h : known fields name = true) :
    ∃ f ∈ fields, fields.find? (fun f => f.name == name) = some f ∧ f.name = name := by
  obtain ⟨g, mem, named⟩ := List.any_eq_true.mp h
  obtain ⟨f, found⟩ := Option.isSome_iff_exists.mp
    (List.find?_isSome (p := fun f : Field σ => f.name == name).mpr ⟨g, mem, named⟩)
  have same := List.find?_some found
  rw [beq_iff_eq] at same
  exact ⟨f, List.mem_of_find?_eq_some found, found, same⟩

theorem find_of_unknown {name : String} (h : known fields name = false) :
    fields.find? (fun f => f.name == name) = none := by
  rw [List.find?_eq_none]
  intro f mem named
  rw [known, List.any_eq_false] at h
  exact h f mem named

theorem readMembers_known {f : Field σ} {name : String} {s : Source} {change : σ → σ}
    (found : fields.find? (fun f => f.name == name) = some f) {seen : List String}
    (fresh : name ∉ seen) (now : f.read depth s = .ok change) (x : σ)
    (rest : List (Source × Source)) :
    readMembers fields other depth seen x ((.string name, s) :: rest) =
      readMembers fields other depth (name :: seen) (change x) rest := by
  have key : Source.key (.string name) = .ok name := rfl
  have first : ¬seen.contains name = true := by rwa [List.contains_iff_mem]
  simp only [readMembers, key, bind, Except.bind, found, if_neg first, now]

theorem readMembers_unknown {name : String} {s : Source} {change : σ → σ}
    (found : fields.find? (fun f => f.name == name) = none) (now : other name s = .ok change)
    (seen : List String) (x : σ) (rest : List (Source × Source)) :
    readMembers fields other depth seen x ((.string name, s) :: rest) =
      readMembers fields other depth seen (change x) rest := by
  have key : Source.key (.string name) = .ok name := rfl
  simp only [readMembers, key, bind, Except.bind, found, now]

/-- Of these members, those that are not fields are kept and change nothing else; fields keep
nothing. -/
structure Keeps (fields : List (Field σ)) (other : String → Source → Except Fault (σ → σ))
    (slots : σ → Slots) (depth : ℕ) (kept : σ → List (String × Json))
    (members : List (String × Json)) : Prop where
  own : ∀ f ∈ fields, ∀ s change, f.read depth s = .ok change → ∀ x, kept (change x) = kept x
  others : ∀ e ∈ otherMembers fields members, ∃ change, other e.1 e.2.source = .ok change ∧
    ∀ x, slots (change x) = slots x ∧ kept (change x) = kept x ++ [e]

section
variable (serve : Serve fields start slots depth)
include serve

/-- Members are read one after the other: fields fill their slots, the others are kept. -/
theorem readMembers_source {kept : σ → List (String × Json)} {members : List (String × Json)}
    (keeps : Keeps fields other slots depth kept members)
    (own : ∀ e ∈ ownMembers fields members, e.2.Fits depth ∧ ∃ y, (e.1, some e.2) ∈ slots y)
    (distinct : (members.map Prod.fst).Nodup) {seen : List String}
    (fresh : ∀ e ∈ members, e.1 ∉ seen) (x : σ) :
    ∃ y seen', readMembers fields other depth seen x (Json.source.memberSources members) =
        .ok (y, seen') ∧
      slots y = fillAll (ownMembers fields members) (slots x) ∧
      kept y = kept x ++ otherMembers fields members ∧
      (∀ n ∈ seen, n ∈ seen') ∧ ∀ e ∈ ownMembers fields members, e.1 ∈ seen' := by
  induction members generalizing seen x with
  | nil =>
    exact ⟨x, seen, rfl, rfl, (List.append_nil _).symm, fun _ h => h,
      fun _ h => absurd h List.not_mem_nil⟩
  | cons e rest ih =>
    obtain ⟨name, w⟩ := e
    obtain ⟨fresh_first, fresh_rest⟩ := List.forall_mem_cons.mp fresh
    obtain ⟨apart, distinct_rest⟩ := List.nodup_cons.mp distinct
    cases is : known fields name with
    | true =>
      rw [ownMembers_cons is] at own ⊢
      rw [otherMembers_cons_own is]
      obtain ⟨⟨fits, y, there⟩, own_rest⟩ := List.forall_mem_cons.mp own
      obtain ⟨f, mem, found, rfl⟩ := find_of_known is
      obtain ⟨change, now, fills⟩ := (serve.each f mem).back y w there fits
      have keeps_rest : Keeps fields other slots depth kept rest :=
        ⟨keeps.own, fun e he => keeps.others e (by rwa [otherMembers_cons_own is])⟩
      have still : ∀ e ∈ rest, e.1 ∉ f.name :: seen := fun e he => by
        rw [List.mem_cons, not_or]
        exact ⟨fun same => apart (List.mem_map.mpr ⟨e, he, same⟩), fresh_rest e he⟩
      obtain ⟨z, seen', read, slots_eq, kept_eq, grows, all⟩ :=
        ih keeps_rest own_rest distinct_rest still (change x)
      refine ⟨z, seen', (readMembers_known found fresh_first now x _).trans read, ?_, ?_,
        fun n hn => grows n (List.mem_cons_of_mem _ hn), ?_⟩
      · rw [slots_eq, fills]
        rfl
      · rw [kept_eq, keeps.own f mem _ _ now]
      · exact List.forall_mem_cons.mpr ⟨grows _ (List.mem_cons_self ..), all⟩
    | false =>
      rw [ownMembers_cons_other is] at own ⊢
      have others := keeps.others
      rw [otherMembers_cons is] at others ⊢
      obtain ⟨⟨change, now, same⟩, others_rest⟩ := List.forall_mem_cons.mp others
      obtain ⟨z, seen', read, slots_eq, kept_eq, grows, all⟩ :=
        ih ⟨keeps.own, others_rest⟩ own distinct_rest fresh_rest (change x)
      refine ⟨z, seen', (readMembers_unknown (find_of_unknown is) now seen x _).trans read, ?_, ?_,
        grows, all⟩
      · rw [slots_eq, (same x).1]
      · rw [kept_eq, (same x).2, List.append_assoc]
        rfl

/-- An object with the members of a record among others is read as a record with the same slots. -/
theorem readObject_source {kept : σ → List (String × Json)} {members : List (String × Json)}
    (keeps : Keeps fields other slots depth kept members)
    (distinct : (members.map Prod.fst).Nodup) {v : σ}
    (own : ownMembers fields members = present (slots v))
    (fits : ∀ e ∈ slots v, SlotFits e.2 depth) :
    ∃ y, readObject fields other start depth (Json.source.memberSources members) none = .ok y ∧
      slots y = slots v ∧ kept y = kept start ++ otherMembers fields members := by
  have there : ∀ e ∈ ownMembers fields members, (e.1, some e.2) ∈ slots v := fun e he =>
    Json.mem_present.mp (own ▸ he)
  obtain ⟨y, seen, read, slots_eq, kept_eq, -, all⟩ := readMembers_source serve keeps
    (fun e he => ⟨fits _ (there e he) e.2 rfl, v, there e he⟩) distinct
    (fun e _ => List.not_mem_nil) start
  refine ⟨y, ?_, ?_, kept_eq⟩
  · have missing : missing? fields seen = none := missing_eq_none_iff.mpr fun f hf => by
      obtain ⟨mem, not_seen⟩ := mem_unseen.mp hf
      have named : f.name ∈ (slots v).map Prod.fst := serve.names v ▸ List.mem_map_of_mem mem
      obtain ⟨⟨name, w⟩, he, rfl⟩ := List.mem_map.mp named
      cases w with
      | none =>
        exact Bool.eq_false_of_not_eq_true fun required => (serve.each f mem).filled required v he
      | some w => exact absurd (all (f.name, w) (own ▸ Json.mem_present.mpr he)) not_seen
    rw [readObject, read]
    simp only [bind, Except.bind, missing]
    rfl
  · rw [slots_eq, own]
    refine Json.fillAll_present [] ((serve.names start).trans (serve.names v).symm)
      (serve.nodup v) fun name hn => ?_
    obtain ⟨f, mem, rfl⟩ := serve.exists_field hn
    exact (serve.each f mem).empties v hn

end

/-! ### Formats -/

/-- A record is printed from its slots and read through fields that serve them. -/
theorem prints {format : RecordFormat σ} {p : σ → Json} (slots : σ → Slots)
    (toJson : ∀ v, p v = .object (present (slots v))) (inj : ∀ {v w}, p v = p w → v = w)
    (serve : ∀ d, depth = d + 1 → Serve format.fields format.start slots d) :
    Reader.Prints format.read p depth where
  notNull v none := by
    rw [toJson] at none
    cases none
  fits s v finite read := by
    cases depth with
    | zero => cases s <;> cases read
    | succ d =>
      have serve := serve d rfl
      rw [toJson, Json.fits_present]
      cases s with
      | object members ending =>
        refine fits_readObject serve (fun name s change x _ skipped => ?_)
          (Source.membersFinite_iff.mp finite) read
        obtain ⟨-, -, rfl⟩ := exists_of_map_eq_ok skipped
        rfl
      | array sources ending =>
        exact fits_readItems serve (fun f mem => mem) (Source.itemsFinite_iff.mp finite)
          serve.pending read
      | _ => cases read
  back v fits := by
    rw [toJson] at fits ⊢
    cases depth with
    | zero => exact absurd fits Json.not_fits_object
    | succ d =>
      have serve := serve d rfl
      have all : ∀ e ∈ present (slots v), known format.fields e.1 = true := fun e he => by
        have named := Json.name_of_mem_present he
        rw [serve.names] at named
        obtain ⟨f, mem, same⟩ := List.mem_map.mp named
        exact List.any_eq_true.mpr ⟨f, mem, beq_iff_eq.mpr same⟩
      have none : otherMembers format.fields (present (slots v)) = [] :=
        List.filter_eq_nil_iff.mpr fun e he => by rw [all e he]; decide
      have keeps : Keeps format.fields (fun _ s => (fun _ => id) <$> s.skip) slots d (fun _ => [])
          (present (slots v)) :=
        ⟨fun _ _ _ _ _ _ => rfl, fun e he => absurd (none ▸ he) List.not_mem_nil⟩
      obtain ⟨y, read, slots_eq, -⟩ := readObject_source serve keeps
        (Json.distinct_present (serve.nodup v)) (List.filter_eq_self.mpr all)
        (Json.fits_present.mp fits)
      have same : y = v := inj (by rw [toJson, toJson, slots_eq])
      rw [same] at read
      exact read

end RecordFormat
end Handoff
