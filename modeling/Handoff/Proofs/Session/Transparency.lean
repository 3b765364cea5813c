import Handoff.Proofs.Cache.Key
import Handoff.Proofs.Scene.Printer
import Handoff.Proofs.Session.Step
/-!
# The cache cannot be seen from outside

A component out of the cache is the one that would be built now. The reason is that the key of a
request determines all that building reads: the options stand in it in full, and the digests of
node and custom code tell them apart as long as no two texts that occur share a digest.

The invariant is `Sound`: an entry is the component of every request that has its key. A step keeps it
because two requests with one key are the same request (`Request.key_inj`); by induction a run keeps it.

Result: `run_transparent`.
-/
namespace Handoff

/-- No two texts that the requests write down share a digest. -/
structure DigestsApart (settings : Settings) (requests : List Request) : Prop where
  nodes : ∀ r ∈ requests, ∀ s ∈ requests,
    settings.digest (Node.toJson r.node).text = settings.digest (Node.toJson s.node).text →
      (Node.toJson r.node).text = (Node.toJson s.node).text
  customs : ∀ r ∈ requests, ∀ s ∈ requests,
    settings.digest r.custom.toJson.text = settings.digest s.custom.toJson.text →
      r.custom.toJson.text = s.custom.toJson.text

/-- Every entry has the key of some request, and is the component of every request with that key. -/
def Sound (settings : Settings) (requests : List Request) (session : Session) : Prop :=
  ∀ key issued, session.cache.entries.get? key = some issued →
    (∃ r ∈ requests, r.key settings = key) ∧
      ∀ r ∈ requests, r.key settings = key → settings.component r = .ok issued.component

/-- All numbers of the scenes that an operation is given are finite. -/
def Operation.Finite : Operation → Prop
  | .generate document _ _ _ => document.Finite
  | .generateNode node _ _ => Node.Finite node
  | .generateMany document _ _ _ => document.Finite
  | .generateComponents document _ _ => document.Finite
  | .clear => True

variable {settings : Settings} {requests : List Request}

/-- Requests with one key are the same request. -/
theorem Request.key_inj (apart : DigestsApart settings requests) (finite : ∀ r ∈ requests, Node.Finite r.node)
    {r s : Request} (hr : r ∈ requests) (hs : s ∈ requests)
    (h : r.key settings = s.key settings) : r = s := by
  obtain ⟨-, node, options, custom⟩ := CacheKey.text_parts h
  have nodes := Node.text_inj (finite r hr) (finite s hs) (apart.nodes r hr s hs node)
  have customs := CustomCode.text_inj (apart.customs r hr s hs custom)
  cases r
  cases s
  congr

/-! ## Requests of a run over targets -/

theorem Document.Finite.target {document : Document} (h : document.Finite) {name : String}
    {node : Node} (resolved : Session.target document name = .ok node) : Node.Finite node := by
  unfold Session.target at resolved
  cases found : document.resolve name with
  | error e =>
    rw [found] at resolved
    cases resolved
  | ok n =>
    rw [found] at resolved
    cases resolved
    exact h.resolve found

theorem Operation.finite_targetRequests {document : Document} (h : document.Finite)
    (options : Options) (custom : CustomCode) (names : List String) :
    ∀ r ∈ targetRequests document options custom names, Node.Finite r.node := by
  induction names with
  | nil =>
    intro r hr
    cases hr
  | cons name rest ih =>
    intro r hr
    unfold targetRequests at hr
    split at hr
    · next node dialect resolved valid =>
      rcases List.mem_cons.mp hr with rfl | hr
      · exact h.target resolved
      · exact ih r hr
    · cases hr

theorem Operation.finite_requests {op : Operation} (h : op.Finite) :
    ∀ r ∈ op.requests, Node.Finite r.node := by
  cases op with
  | generate document name options custom => exact finite_targetRequests h options custom [name]
  | generateNode node options custom =>
    intro r hr
    cases valid : options.dialect with
    | error e =>
      simp only [Operation.requests, valid] at hr
      cases hr
    | ok dialect =>
      simp only [Operation.requests, valid] at hr
      rw [List.mem_singleton.mp hr]
      exact h
  | generateMany document names options custom => exact finite_targetRequests h options custom names
  | generateComponents document options custom =>
    exact finite_targetRequests h options custom document.components.keys
  | clear =>
    intro r hr
    cases hr

/-! ## One step -/

/-- Storing the component of a request keeps the cache sound: what else has the key is the same
request. -/
theorem Sound.store (apart : DigestsApart settings requests)
    (finite : ∀ r ∈ requests, Node.Finite r.node) {session : Session}
    (sound : Sound settings requests session) {r : Request} (mem : r ∈ requests) {issued : Issued}
    (built : settings.component r = .ok issued.component) {cache : Cache Issued}
    (kept : cache.entries = session.cache.entries) (count : Nat) :
    Sound settings requests ⟨cache.set (r.key settings) issued, count⟩ := by
  intro k other hit
  dsimp only [Cache.set] at hit
  rw [Keyed.get?_insert, kept] at hit
  split at hit
  · next eq =>
    cases hit
    refine ⟨⟨r, mem, eq.symm⟩, ?_⟩
    intro s hs same
    rw [Request.key_inj apart finite hs mem (same.trans eq)]
    exact built
  · exact sound k other hit

/-- A request is answered by its component, and the cache stays sound. -/
theorem generateNode_sound (apart : DigestsApart settings requests)
    (finite : ∀ r ∈ requests, Node.Finite r.node) {session : Session}
    (sound : Sound settings requests session) (r : Request)
    (asked : ∀ dialect, r.options.dialect = .ok dialect → r ∈ requests) :
    (session.generateNode settings r.node r.options r.custom).1.map (fun a => a.issued.component) =
        settings.component r ∧
      Sound settings requests (session.generateNode settings r.node r.options r.custom).2 := by
  cases session.generateNode_step settings r with
  | refused invalid step =>
    rw [step]
    refine ⟨?_, sound⟩
    unfold Settings.component
    rw [invalid]
    rfl
  | hit valid found step =>
    rw [step]
    exact ⟨((sound _ _ found).2 r (asked _ valid) rfl).symm, sound⟩
  | miss valid absent step =>
    rw [step]
    have mem := asked _ valid
    have built := settings.component_of_valid valid
    exact ⟨built.symm, sound.store apart finite mem built rfl (session.built + 1)⟩

theorem dialect_of_component {r : Request} {c : GeneratedComponent}
    (h : settings.component r = .ok c) : ∃ dialect, r.options.dialect = .ok dialect := by
  unfold Settings.component at h
  cases valid : r.options.dialect with
  | error e =>
    rw [valid] at h
    cases h
  | ok dialect => exact ⟨dialect, rfl⟩

theorem targetComponent_of_target {document : Document} {name : String} {node : Node}
    (resolved : Session.target document name = .ok node) (options : Options) (custom : CustomCode) :
    settings.targetComponent document options custom name =
      settings.component ⟨node, options, custom⟩ := by
  unfold Settings.targetComponent
  rw [resolved]
  rfl

/-- A target is answered by its component, and the cache stays sound. -/
theorem generate_sound (apart : DigestsApart settings requests)
    (finite : ∀ r ∈ requests, Node.Finite r.node) {session : Session}
    (sound : Sound settings requests session) (document : Document) (name : String) (options : Options)
    (custom : CustomCode)
    (asked : ∀ r ∈ Operation.targetRequests document options custom [name], r ∈ requests) :
    (session.generate settings document name options custom).1.map (fun a => a.issued.component) =
        settings.targetComponent document options custom name ∧
      Sound settings requests (session.generate settings document name options custom).2 := by
  cases resolved : Session.target document name with
  | error e =>
    rw [Session.generate_of_missing resolved]
    refine ⟨?_, sound⟩
    unfold Settings.targetComponent
    rw [resolved]
    rfl
  | ok node =>
    rw [Session.generate_eq resolved, targetComponent_of_target resolved]
    refine generateNode_sound apart finite sound ⟨node, options, custom⟩ fun dialect valid => ?_
    rw [Operation.targetRequests_cons resolved valid] at asked
    exact asked _ (List.mem_cons_self ..)

/-- Targets are answered by their components, up to the first one that is refused. -/
theorem generateMany_sound (apart : DigestsApart settings requests)
    (finite : ∀ r ∈ requests, Node.Finite r.node) (document : Document) (options : Options)
    (custom : CustomCode) (names : List String) {session : Session}
    (sound : Sound settings requests session)
    (asked : ∀ r ∈ Operation.targetRequests document options custom names, r ∈ requests) :
    (session.generateMany settings document names options custom).1.map
          (fun report => report.components.map Issued.component) =
        names.mapM (settings.targetComponent document options custom) ∧
      Sound settings requests (session.generateMany settings document names options custom).2 := by
  induction names generalizing session with
  | nil => exact ⟨rfl, sound⟩
  | cons name rest ih =>
    obtain ⟨first, sound_first⟩ := generate_sound apart finite sound document name options custom
      fun r hr => asked r (Operation.targetRequests_head_subset hr)
    rw [List.mapM_cons, ← first]
    cases session.generateMany_step settings document options custom name rest with
    | refused call run asks =>
      rw [call, run]
      exact ⟨rfl, sound⟩
    | @answered node dialect answer after resolved valid call run asks =>
      rw [call] at sound_first
      rw [asks, List.forall_mem_cons] at asked
      obtain ⟨more, sound_last⟩ := ih sound_first asked.2
      rw [call, run, ← more]
      refine ⟨?_, sound_last⟩
      dsimp only
      cases (after.generateMany settings document rest options custom).1 <;> rfl

/-- Every operation gives back the components that would be built anew, and keeps the cache sound. -/
theorem perform_sound (apart : DigestsApart settings requests)
    (finite : ∀ r ∈ requests, Node.Finite r.node) {session : Session}
    (sound : Sound settings requests session) (op : Operation)
    (asked : ∀ r ∈ op.requests, r ∈ requests) :
    (session.perform settings op).1.components = settings.expected op ∧
      Sound settings requests (session.perform settings op).2 := by
  cases op with
  | generate document name options custom =>
    obtain ⟨answered, sound⟩ := generate_sound apart finite sound document name options custom asked
    refine ⟨?_, sound⟩
    dsimp only [Session.perform, Settings.expected, Outcome.components]
    rw [List.mapM_cons, ← answered]
    cases (session.generate settings document name options custom).1 <;> rfl
  | generateNode node options custom =>
    obtain ⟨answered, sound⟩ := generateNode_sound apart finite sound ⟨node, options, custom⟩
      (by
        intro dialect valid
        simp only [Operation.requests, valid] at asked
        exact asked _ (List.mem_cons_self ..))
    refine ⟨?_, sound⟩
    dsimp only [Session.perform, Settings.expected, Outcome.components]
    rw [← answered]
    cases (session.generateNode settings node options custom).1 <;> rfl
  | generateMany document names options custom =>
    exact generateMany_sound apart finite document options custom names sound asked
  | generateComponents document options custom =>
    exact generateMany_sound apart finite document options custom document.components.keys sound asked
  | clear =>
    refine ⟨rfl, ?_⟩
    intro key issued hit
    cases hit

/-! ## Runs -/

theorem run_sound (apart : DigestsApart settings requests)
    (finite : ∀ r ∈ requests, Node.Finite r.node) (operations : List Operation) {session : Session}
    (sound : Sound settings requests session)
    (asked : ∀ op ∈ operations, ∀ r ∈ op.requests, r ∈ requests) :
    (session.run settings operations).1.map Outcome.components =
        operations.map settings.expected ∧
      Sound settings requests (session.run settings operations).2 := by
  induction operations generalizing session with
  | nil => exact ⟨rfl, sound⟩
  | cons op rest ih =>
    obtain ⟨answered, sound⟩ := perform_sound apart finite sound op (asked op (List.mem_cons_self ..))
    obtain ⟨later, sound⟩ := ih sound fun op hop => asked op (List.mem_cons_of_mem _ hop)
    refine ⟨?_, sound⟩
    unfold Session.run
    rw [List.map_cons, List.map_cons, answered, later]

/-- The cache cannot be seen from outside: in every run of a new session every operation gives back the
components that would be built anew, as long as no two texts that occur share a digest. At its end
every entry is the component of every request with its key. -/
theorem run_transparent (settings : Settings) (operations : List Operation)
    (finite : ∀ op ∈ operations, op.Finite)
    (apart : DigestsApart settings (operations.flatMap Operation.requests)) :
    (Session.run settings {} operations).1.map Outcome.components =
        operations.map settings.expected ∧
      Sound settings (operations.flatMap Operation.requests) (Session.run settings {} operations).2 := by
  apply run_sound apart
  · intro r hr
    obtain ⟨op, hop, hr⟩ := List.mem_flatMap.mp hr
    exact Operation.finite_requests (finite op hop) r hr
  · intro key issued hit
    cases hit
  · exact fun op hop r hr => List.mem_flatMap.mpr ⟨op, hop, hr⟩

/-! ## A run -/

/-- A page with one button, which the component index knows too. -/
def buttonPage (label : String) : Document where
  root := .node { id := "1:1", name := "Page", kind := .canvas }
    [Node.text "1:2" "Submit button" label]
  components := Keyed.ofList [("1:2", ⟨"submit", "Submit", none⟩)]

/-- Calls of every kind. Two nodes share an id, two requests differ in custom code only, one target is
not there, and one request comes again after the cache was cleared. -/
def mixedRun : List Operation :=
  let options : Options := { markup := some .static, stylesheet := some .plain }
  [.generate (buttonPage "Go") "submit" options {},
    .generateNode (Node.text "1:2" "Submit button" "Stop") options {},
    .generateMany (buttonPage "Go") ["1:2", "1:9"] options { styles := some "a: b" },
    .clear,
    .generateComponents (buttonPage "Stop") options {}]

theorem plainLayer_finite (id name : String) (kind : NodeKind) (characters : Option String) :
    Layer.Finite { id, name, kind, characters } := by
  have zero : (0 : Float).isFinite = true := by decide +kernel
  have layout : Layout.Finite {} := ⟨by simp, zero, zero, zero, zero⟩
  exact ⟨by simp, by simp, by simp, by simp, by simp, by simp, layout, by simp, by simp, by simp⟩

theorem buttonPage_finite (label : String) : (buttonPage label).Finite := by
  intro l hl
  unfold buttonPage Node.text Tree.leaf at hl
  simp only [Tree.values_node, List.flatMap_cons, List.flatMap_nil, List.append_nil, List.mem_cons,
    List.not_mem_nil, or_false] at hl
  rcases hl with rfl | rfl
  · exact plainLayer_finite ..
  · exact plainLayer_finite ..

theorem mixedRun_finite : ∀ op ∈ mixedRun, op.Finite := by
  intro op hop
  simp only [mixedRun, List.mem_cons, List.not_mem_nil, or_false] at hop
  rcases hop with rfl | rfl | rfl | rfl | rfl
  · exact buttonPage_finite _
  · intro l hl
    unfold Node.text Tree.leaf at hl
    rw [Tree.values_node] at hl
    rw [List.mem_singleton.mp hl]
    exact plainLayer_finite ..
  · exact buttonPage_finite _
  · trivial
  · exact buttonPage_finite _

theorem mixedRun_apart : DigestsApart {} (mixedRun.flatMap Operation.requests) where
  nodes := by decide +kernel
  customs := by decide +kernel

/-- The run of five calls asks the cache four times and gives back what would be built anew. -/
theorem run_transparent_mixedRun :
    (∀ op ∈ mixedRun, op.Finite) ∧ DigestsApart {} (mixedRun.flatMap Operation.requests) ∧
      (mixedRun.flatMap Operation.requests).length = 4 ∧
      (Session.run {} {} mixedRun).1.map Outcome.components = mixedRun.map (Settings.expected {}) ∧
      Sound {} (mixedRun.flatMap Operation.requests) (Session.run {} {} mixedRun).2 :=
  ⟨mixedRun_finite, mixedRun_apart, by decide +kernel,
    run_transparent {} mixedRun mixedRun_finite mixedRun_apart⟩

end Handoff
