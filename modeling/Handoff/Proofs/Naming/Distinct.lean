import Handoff.Proofs.Naming.Parts
import Handoff.Proofs.Styled
/-!
# Class names are distinct

A layer gets its base name while nobody has it, and a number behind it after that. What the namer
remembers, the number to try next for each base, only skips numbers whose names are taken (`Counted`):
so the number of a layer is the least one from 2 on that makes a name nobody has. Such a number is
always found, since the names with a number differ from each other and only finitely many are taken.

A step keeps `Counted` and gives a new name; by induction, so does a run. The names of a styled tree are
those of one run along the walk.

Results:
* `ClassNamer.freeNumber_isLeast`: the search for a number ends at the least one that is free.
* `ClassNamer.next_gives`: what one request is given.
* `ClassNamer.run_classNames`: names of a run are distinct class names, each the first that is free.
-/
namespace Handoff

namespace ClassNamer

/-! ## Free numbers -/

theorem numbered_inj {base : String} {m n : Nat} (h : numbered base m = numbered base n) : m = n := by
  unfold numbered at h
  rw [String.append_right_inj] at h
  exact Nat.repr_inj.mp h

theorem exists_free (used : List String) (base : String) (start : Nat) :
    ∃ n, start ≤ n ∧ n < start + (used.length + 1) ∧ numbered base n ∉ used := by
  by_contra none
  push Not at none
  have distinct : ((List.range' start (used.length + 1)).map (numbered base)).Nodup :=
    (List.nodup_range' 1).map fun _ _ => numbered_inj
  have within : (List.range' start (used.length + 1)).map (numbered base) ⊆ used := by
    intro name hname
    obtain ⟨n, hn, rfl⟩ := List.mem_map.mp hname
    obtain ⟨low, high⟩ := List.mem_range'_1.mp hn
    exact none n low high
  have short := (List.subperm_of_subset distinct within).length_le
  rw [List.length_map, List.length_range'] at short
  omega

/-- The search for a number ends at the least one from its start on that is free. -/
theorem freeNumber_isLeast (used : List String) (base : String) (start : Nat) :
    IsLeast {n | start ≤ n ∧ numbered base n ∉ used} (freeNumber used base start) := by
  have unused (n : Nat) : (!used.contains (numbered base n)) = true ↔ numbered base n ∉ used := by simp
  unfold freeNumber
  cases found : (List.range' start (used.length + 1)).find? fun n =>
      !used.contains (numbered base n) with
  | none =>
    obtain ⟨n, low, high, free⟩ := exists_free used base start
    have taken := List.find?_range'_eq_none.mp found n low high
    rw [(unused n).mpr free] at taken
    cases taken
  | some n =>
    obtain ⟨free, mem, before⟩ := List.find?_range'_eq_some.mp found
    refine ⟨⟨(List.mem_range'_1.mp mem).1, (unused n).mp free⟩, ?_⟩
    rintro m ⟨low, free'⟩
    by_contra lt
    have taken := before m low (not_le.mp lt)
    rw [(unused m).mpr free'] at taken
    cases taken

/-! ## One request -/

/-- What a request is given, with these names taken: its base name if that is free, else the base name
with the least number from 2 on that makes a free name. -/
inductive Gives (taken : List String) (base : String) : String → Prop
  | plain (free : base ∉ taken) : Gives taken base base
  | counted (given : base ∈ taken) {n : Nat}
      (least : IsLeast {n | 2 ≤ n ∧ numbered base n ∉ taken} n) : Gives taken base (numbered base n)

theorem Gives.fresh {taken : List String} {base given : String} (h : Gives taken base given) :
    given ∉ taken := by
  cases h with
  | plain free => exact free
  | counted _ least => exact least.1.2

/-- Only which names are taken matters, not their order. -/
theorem Gives.of_perm {taken taken' : List String} {base given : String} (h : Gives taken base given)
    (perm : taken.Perm taken') : Gives taken' base given := by
  have same (name : String) : name ∈ taken ↔ name ∈ taken' := perm.mem_iff
  cases h with
  | plain free => exact .plain ((same base).not.mp free)
  | counted mem least =>
    simp only [same] at least
    exact .counted ((same base).mp mem) least

/-- The number to try next for a base name. -/
def start (namer : ClassNamer) (base : String) : Nat := (namer.nextNumber.lookup base).getD 2

/-- The namer skips no number that is free. -/
structure Counted (namer : ClassNamer) : Prop where
  low : ∀ base, 2 ≤ namer.start base
  tried : ∀ base n, 2 ≤ n → n < namer.start base → numbered base n ∈ namer.used

theorem counted_new : Counted {} := ⟨fun _ => Nat.le_refl 2, fun _ _ low lt => absurd lt (Nat.not_lt.mpr low)⟩

theorem next_of_free {namer : ClassNamer} {name fallback : String}
    (free : base name fallback ∉ namer.used) :
    namer.next name fallback =
      (base name fallback, ⟨base name fallback :: namer.used, namer.nextNumber⟩) := by
  simp [next, free]

theorem next_of_taken {namer : ClassNamer} {name fallback : String}
    (taken : base name fallback ∈ namer.used) :
    let n := freeNumber namer.used (base name fallback) (namer.start (base name fallback))
    namer.next name fallback = (numbered (base name fallback) n,
      ⟨numbered (base name fallback) n :: namer.used,
        (base name fallback, n + 1) :: namer.nextNumber⟩) := by
  simp [next, taken, start]

theorem used_next (namer : ClassNamer) (name fallback : String) :
    (namer.next name fallback).2.used = (namer.next name fallback).1 :: namer.used := by
  by_cases taken : base name fallback ∈ namer.used
  · rw [next_of_taken taken]
  · rw [next_of_free taken]

theorem start_cons (used : List String) (b : String) (n : Nat) (numbers : List (String × Nat))
    (base : String) : start ⟨used, (b, n) :: numbers⟩ base =
      if base = b then n else start ⟨used, numbers⟩ base := by
  unfold start
  rw [List.lookup_cons]
  split <;> simp_all

/-- One request is given what is free, and no free number is skipped afterwards either. -/
theorem next_gives {namer : ClassNamer} (counted : Counted namer) (name fallback : String) :
    Gives namer.used (base name fallback) (namer.next name fallback).1 ∧
      Counted (namer.next name fallback).2 := by
  by_cases taken : base name fallback ∈ namer.used
  · rw [next_of_taken taken]
    generalize base name fallback = b at taken ⊢
    obtain ⟨⟨above, free⟩, least⟩ := freeNumber_isLeast namer.used b (namer.start b)
    generalize freeNumber namer.used b (namer.start b) = n at above free least ⊢
    have low := counted.low b
    -- Below the start everything is taken, so the least free number from there on is the least of all.
    have first : ∀ m, 2 ≤ m → m < n → numbered b m ∈ namer.used := by
      intro m hm lt
      rcases Nat.lt_or_ge m (namer.start b) with before | behind
      · exact counted.tried b m hm before
      · by_contra unused
        exact absurd (least ⟨behind, unused⟩) (Nat.not_le.mpr lt)
    refine ⟨.counted taken ⟨⟨by omega, free⟩, ?_⟩, ?_, ?_⟩
    · rintro m ⟨hm, unused⟩
      by_contra lt
      exact unused (first m hm (Nat.not_le.mp lt))
    · intro base
      rw [start_cons]
      split
      · omega
      · exact counted.low base
    · intro base m hm lt
      rw [start_cons] at lt
      split at lt
      · next eq =>
        subst eq
        rcases Nat.lt_succ_iff_lt_or_eq.mp lt with lt | rfl
        · exact List.mem_cons_of_mem _ (first m hm lt)
        · exact List.mem_cons_self ..
      · exact List.mem_cons_of_mem _ (counted.tried base m hm lt)
  · rw [next_of_free taken]
    generalize base name fallback = b at taken ⊢
    exact ⟨.plain taken, counted.low,
      fun base n low lt => List.mem_cons_of_mem _ (counted.tried base n low lt)⟩

/-! ## Runs -/

variable {namer : ClassNamer}

theorem length_run (namer : ClassNamer) (requests : List (String × String)) :
    (namer.run requests).1.length = requests.length := by
  induction requests generalizing namer with
  | nil => rfl
  | cons r rest ih => simp [run, ih]

theorem run_append (namer : ClassNamer) (a b : List (String × String)) :
    namer.run (a ++ b) = ((namer.run a).1 ++ ((namer.run a).2.run b).1, ((namer.run a).2.run b).2) := by
  induction a generalizing namer with
  | nil => rfl
  | cons r rest ih => simp [run, ih]

theorem run_gives (counted : Counted namer) {requests : List (String × String)} {i : Nat}
    {request : String × String} (asked : requests[i]? = some request) :
    ∃ given, (namer.run requests).1[i]? = some given ∧
      Gives ((namer.run requests).1.take i ++ namer.used) (base request.1 request.2) given := by
  induction requests generalizing namer i with
  | nil => cases asked
  | cons r rest ih =>
    obtain ⟨name, fallback⟩ := r
    obtain ⟨gives, counted'⟩ := next_gives counted name fallback
    cases i with
    | zero =>
      cases asked
      exact ⟨_, rfl, gives⟩
    | succ i =>
      obtain ⟨given, there, more⟩ := ih counted' asked
      refine ⟨given, there, more.of_perm ?_⟩
      rw [used_next]
      exact List.perm_middle

theorem run_nodup (counted : Counted namer) (requests : List (String × String)) :
    (namer.run requests).1.Nodup := by
  refine List.nodup_iff_getElem?_ne_getElem?.mpr fun i j lt bound => ?_
  rw [length_run] at bound
  obtain ⟨given, there, gives⟩ := run_gives counted (List.getElem?_eq_getElem bound)
  intro same
  rw [there] at same
  apply gives.fresh
  refine List.mem_append_left _ (List.mem_iff_getElem?.mpr ⟨i, ?_⟩)
  rw [List.getElem?_take_of_lt lt, same]

theorem run_ledByLetters (namer : ClassNamer) (requests : List (String × Category)) :
    ∀ name ∈ (namer.run (requests.map fun r => (r.1, r.2.label))).1, Naming.LedByLetters name := by
  induction requests generalizing namer with
  | nil =>
    intro name hname
    cases hname
  | cons r rest ih =>
    intro name hname
    rcases List.mem_cons.mp hname with rfl | hname
    · exact next_ledByLetters namer r.1 r.2
    · exact ih _ name hname

end ClassNamer

/-! ## Styled trees -/

def StyledLayer.request (s : StyledLayer) : String × String := (s.layer.name, s.verdict.category.label)

namespace Styled

theorem run_buildAll {policy : Option ViewportPolicy} {ns : List Node}
    (each : ∀ n ∈ ns, ∀ namer c, namer.run ((build policy namer n c).1.values.map StyledLayer.request) =
      ((build policy namer n c).1.values.map StyledLayer.className, (build policy namer n c).2))
    (namer : ClassNamer) (cs : List Classification) :
    namer.run (((build.buildAll policy namer ns cs).1.flatMap Tree.values).map StyledLayer.request) =
      (((build.buildAll policy namer ns cs).1.flatMap Tree.values).map StyledLayer.className,
        (build.buildAll policy namer ns cs).2) := by
  induction ns generalizing namer cs with
  | nil => cases cs <;> rfl
  | cons n ns ih =>
    cases cs with
    | nil => rfl
    | cons c cs =>
      have first := each n (List.mem_cons_self ..) namer c
      have rest := ih (fun m hm => each m (List.mem_cons_of_mem _ hm)) (build policy namer n c).2 cs
      simp only [build.buildAll, List.flatMap_cons, List.map_append, ClassNamer.run_append, first, rest]

theorem run_build (policy : Option ViewportPolicy) (namer : ClassNamer) (n : Node)
    (c : Classification) : namer.run ((build policy namer n c).1.values.map StyledLayer.request) =
      ((build policy namer n c).1.values.map StyledLayer.className, (build policy namer n c).2) := by
  induction n using Tree.ind generalizing namer c with
  | node layer children ih =>
    cases c with
    | node verdict verdicts =>
      have below := run_buildAll (fun n hn namer c => ih n hn namer c)
        (namer.next layer.name verdict.category.label).2 verdicts
      simp only [build, Tree.values_node, List.map_cons, ClassNamer.run, StyledLayer.request, layerOf]
      rw [below]

theorem classNames_nodup (policy : Option ViewportPolicy) (n : Node) (c : Classification) :
    ((ofNode policy n c).values.map StyledLayer.className).Nodup := by
  have names : (ClassNamer.run {} ((ofNode policy n c).values.map StyledLayer.request)).1 =
      (ofNode policy n c).values.map StyledLayer.className := congrArg Prod.fst (run_build policy {} n c)
  rw [← names]
  exact ClassNamer.run_nodup ClassNamer.counted_new _

end Styled

namespace ClassNamer

/-- Whatever a new namer is asked for, names of any kind with the label of any category behind them: the
search for a number ends, and the names are distinct class names, each of them the base name while that
is free and the first free number behind it from then on. So the class names of a styled tree differ. -/
theorem run_classNames (requests : List (String × Category)) (policy : Option ViewportPolicy)
    (node : Node) (classification : Classification) :
    let names := (run {} (requests.map fun r => (r.1, r.2.label))).1
    names.length = requests.length ∧ names.Nodup ∧
      (∀ name ∈ names, Naming.IsClassName name.toList) ∧
      (∀ i name c, requests[i]? = some (name, c) → ∃ given, names[i]? = some given ∧
        Gives (names.take i) (base name c.label) given) ∧
      ((Styled.ofNode policy node classification).values.map StyledLayer.className).Nodup := by
  refine ⟨?_, run_nodup counted_new _, ?_, ?_, Styled.classNames_nodup policy node classification⟩
  · rw [length_run, List.length_map]
  · exact fun name hname => (run_ledByLetters {} requests name hname).isClassName
  · intro i name c asked
    have request : (requests.map fun r => (r.1, r.2.label))[i]? = some (name, c.label) := by
      rw [List.getElem?_map, asked]
      rfl
    obtain ⟨given, there, gives⟩ := run_gives counted_new request
    rw [List.append_nil] at gives
    exact ⟨given, there, gives⟩

/-- Names that others were given with a number come late, and the numbers step around them. -/
example : (run {} [("Label", "text"), ("Label", "text"), ("Label 2", "text"), ("Label", "text"),
    ("label 2 2", "text"), ("404", "card")]).1 =
      ["label", "label-2", "label-2-2", "label-3", "label-2-2-2", "card-404"] := by
  decide +kernel

end ClassNamer
end Handoff
