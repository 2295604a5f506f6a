import AccessControl.Context
import AccessControl.Proofs.ChainRun
import AccessControl.Proofs.Results

namespace AccessControl

theorem Traced.run_bind {α β : Type} (x : Traced α) (f : α → Traced β) (trail : Trail) :
    (x >>= f).run trail = (f (x.run trail).1).run (x.run trail).2 := rfl

/-- The module that a cell keeps, if any, is the one that its factory gives. -/
def Cell.Faithful (registry : Registry Module) (cell : Cell) : Prop :=
  ∀ module, cell.built = some module → registry.result cell.entry.moduleId cell.entry.options = .ok module

/-- The module of a cell: the one it keeps, else a new one. -/
def Cell.module (registry : Registry Module) (cell : Cell) : Traced (Except Error Module) :=
  match cell.built with
  | some module => pure (.ok module)
  | none => (registry.create cell.entry.moduleId cell.entry.options).run

theorem Cell.module_run {registry : Registry Module} {cell : Cell}
    (steady : registry.Steady cell.entry.moduleId cell.entry.options) (faithful : cell.Faithful registry)
    (trail : Trail) :
    ((cell.module registry).run trail).1 = registry.result cell.entry.moduleId cell.entry.options := by
  unfold module
  cases kept : cell.built with
  | none => exact steady trail
  | some module => exact (faithful module kept).symm

theorem buildCells_cons (registry : Registry Module) (cell : Cell) (rest : List Cell) :
    buildCells registry (cell :: rest) = (do
      match ← cell.module registry with
      | .error e => pure (cell :: rest, .error e)
      | .ok module => do
        let (others, modules) ← buildCells registry rest
        pure ({ cell with built := some module } :: others, modules.map (module :: ·))) := by
  simp only [buildCells, Cell.module]
  cases cell.built <;> rfl

theorem Registry.results_cons {registry : Registry Module} {entry : ModuleEntry} {rest : List ModuleEntry}
    {module : Module} (built : registry.result entry.moduleId entry.options = .ok module) :
    registry.results (entry :: rest) = (registry.results rest).map (module :: ·) := by
  unfold results
  rw [List.mapM_cons, built]
  cases rest.mapM fun e => registry.result e.moduleId e.options <;> rfl

theorem Registry.results_cons_error {registry : Registry Module} {entry : ModuleEntry} {rest : List ModuleEntry}
    {e : Error} (failed : registry.result entry.moduleId entry.options = .error e) :
    registry.results (entry :: rest) = .error e := by
  unfold results
  rw [List.mapM_cons, failed]
  rfl

theorem Registry.results_single {registry : Registry Module} {entry : ModuleEntry} {module : Module}
    (built : registry.result entry.moduleId entry.options = .ok module) : registry.results [entry] = .ok [module] := by
  rw [results_cons built]
  rfl

theorem buildCells_entries (registry : Registry Module) (cells : List Cell) (trail : Trail) :
    ((buildCells registry cells).run trail).1.1.map (·.entry) = cells.map (·.entry) := by
  induction cells generalizing trail with
  | nil => rfl
  | cons cell rest ih =>
    rw [buildCells_cons, Traced.run_bind]
    cases ((cell.module registry).run trail).1 with
    | error e => rfl
    | ok module => exact congrArg (cell.entry :: ·) (ih ((cell.module registry).run trail).2)

/-- Building the missing modules gives what building all of them anew would give. -/
theorem buildCells_run {registry : Registry Module} {cells : List Cell}
    (steady : ∀ cell ∈ cells, registry.Steady cell.entry.moduleId cell.entry.options)
    (faithful : ∀ cell ∈ cells, cell.Faithful registry) (trail : Trail) :
    ((buildCells registry cells).run trail).1.2 = registry.results (cells.map (·.entry)) ∧
      ∀ cell ∈ ((buildCells registry cells).run trail).1.1, cell.Faithful registry := by
  induction cells generalizing trail with
  | nil => exact ⟨rfl, nofun⟩
  | cons cell rest ih =>
    obtain ⟨steadyHere, steadyRest⟩ := List.forall_mem_cons.mp steady
    obtain ⟨faithfulHere, faithfulRest⟩ := List.forall_mem_cons.mp faithful
    have here := Cell.module_run steadyHere faithfulHere trail
    rw [buildCells_cons, Traced.run_bind, here, List.map_cons]
    cases result : registry.result cell.entry.moduleId cell.entry.options with
    | error e => exact ⟨(Registry.results_cons_error result).symm, faithful⟩
    | ok module =>
      obtain ⟨built, kept⟩ := ih steadyRest faithfulRest ((cell.module registry).run trail).2
      refine ⟨?_, ?_⟩
      · rw [Registry.results_cons result, ← built]
        rfl
      · refine List.forall_mem_cons.mpr ⟨?_, kept⟩
        intro other same
        cases same
        exact result

/-- What no factory touches on the trail, building leaves as it was. -/
theorem buildCells_leaves {α : Type} {registry : Registry Module} {cells : List Cell} (view : Trail → α)
    (untouched : ∀ cell ∈ cells, ∀ trail,
      view ((registry.create cell.entry.moduleId cell.entry.options).run trail).2 = view trail) (trail : Trail) :
    view ((buildCells registry cells).run trail).2 = view trail := by
  induction cells generalizing trail with
  | nil => rfl
  | cons cell rest ih =>
    obtain ⟨here, later⟩ := List.forall_mem_cons.mp untouched
    have first : view ((cell.module registry).run trail).2 = view trail := by
      unfold Cell.module
      cases cell.built with
      | some module => rfl
      | none => exact here trail
    rw [buildCells_cons, Traced.run_bind, ← first]
    cases ((cell.module registry).run trail).1 with
    | error e => rfl
    | ok module => exact ih later ((cell.module registry).run trail).2

namespace Context

/-- Every factory that the chain needs always gives the same. -/
def Steady (c : Context) : Prop := ∀ e ∈ c.entries, c.registry.Steady e.moduleId e.options

/-- Every module kept is the one that its factory gives. -/
def Faithful (c : Context) : Prop := ∀ cell ∈ c.cells, cell.Faithful c.registry

/-- The flags of the entries with the outcomes of their modules. -/
def outcomes (c : Context) (lookup : AclLookup) (request : Request) (modules : List Module) :
    List (ControlFlag × Outcome) :=
  (c.entries.zip modules).map fun s => (s.1.flag, s.2.answer lookup request)

/-- What asking modules one after another leaves on the trail. -/
def asked (c : Context) (lookup : AclLookup) (request : Request) (trail : Trail)
    (steps : List (ModuleEntry × Module)) : Trail :=
  steps.foldl (fun t s => (t.write (s.2.lines request)).deliver c.sink
    (c.moduleEvent request.resource s.1 (s.2.answer lookup request))) trail

/-- The answer to a request as a value. Nothing is kept and nothing is left on the trail. -/
def verdict (c : Context) (lookup : AclLookup) (request : Request) : Except Error Decision := do
  let modules ← c.registry.results c.entries
  let resource ← c.settings.linkRoles request.resource
  c.conclude (aggregate (c.outcomes lookup { request with resource } modules))

theorem evaluate_run (c : Context) (lookup : AclLookup) (request : Request) (modules : List Module) (trail : Trail) :
    (c.evaluate lookup request modules).run trail =
      (aggregate (c.outcomes lookup request modules), c.asked lookup request trail
        ((c.entries.zip modules).take (aggregate (c.outcomes lookup request modules)).evaluated)) := by
  have run := runChain_visits (fun s : ModuleEntry × Module => s.1.flag) (fun s => s.2.answer lookup request)
    (fun s => (modify fun t => (t.write (s.2.lines request)).deliver c.sink
      (c.moduleEvent request.resource s.1 (s.2.answer lookup request)) : Traced Unit)) (c.entries.zip modules)
  have marks := forM_modify (fun (s : ModuleEntry × Module) (t : Trail) => (t.write (s.2.lines request)).deliver c.sink
      (c.moduleEvent request.resource s.1 (s.2.answer lookup request)))
    ((c.entries.zip modules).take (aggregate (c.outcomes lookup request modules)).evaluated) trail
  unfold evaluate ask
  rw [run, Traced.run_bind]
  have marked := congrArg Prod.snd marks
  exact Prod.ext rfl marked

/-- Answers a request with modules that have been built, or fails as building them did. -/
def judge (c : Context) (lookup : AclLookup) (request : Request) (modules : Except Error (List Module)) :
    Traced (Except Error Decision) :=
  match modules with
  | .error e => pure (.error e)
  | .ok modules =>
    match c.settings.linkRoles request.resource with
    | .error e => pure (.error e)
    | .ok resource => do
      let outcome ← c.evaluate lookup { request with resource } modules
      pure (c.conclude outcome)

theorem authorize_eq (c : Context) (lookup : AclLookup) (request : Request) :
    c.authorize lookup request = (do
      let (cells, modules) ← buildCells c.registry c.cells
      let result ← c.judge lookup request modules
      modify (·.deliver c.sink (c.decisionEvent request result))
      pure (result, { c with cells })) := by
  unfold authorize judge
  congr 1
  funext built
  obtain ⟨cells, modules⟩ := built
  cases modules with
  | error e => rfl
  | ok modules =>
    simp only
    cases c.settings.linkRoles request.resource <;> rfl

/-- Answering a request by its parts: building, judging, and the event about the answer. -/
theorem authorize_run (c : Context) (lookup : AclLookup) (request : Request) (trail : Trail) :
    let built := (buildCells c.registry c.cells).run trail
    let judged := (c.judge lookup request built.1.2).run built.2
    (c.authorize lookup request).run trail =
      ((judged.1, { c with cells := built.1.1 }), judged.2.deliver c.sink (c.decisionEvent request judged.1)) := by
  intro built judged
  rw [authorize_eq]
  rfl

theorem judge_verdict (c : Context) (lookup : AclLookup) (request : Request) (trail : Trail) :
    ((c.judge lookup request (c.registry.results c.entries)).run trail).1 = c.verdict lookup request := by
  unfold judge verdict
  cases c.registry.results c.entries with
  | error e => rfl
  | ok modules =>
    cases c.settings.linkRoles request.resource with
    | error e => rfl
    | ok resource =>
      simp only [Traced.run_bind, evaluate_run]
      rfl

/-- A context whose chain is that of another, and whose modules are what that chain's factories give. -/
structure Keeps (fresh c : Context) : Prop where
  domain : c.domain = fresh.domain
  entries : c.entries = fresh.entries
  settings : c.settings = fresh.settings
  registry : c.registry = fresh.registry
  sink : c.sink = fresh.sink
  faithful : c.Faithful

theorem Keeps.verdict_eq {fresh c : Context} (keeps : fresh.Keeps c) (lookup : AclLookup) (request : Request) :
    c.verdict lookup request = fresh.verdict lookup request := by
  simp only [verdict, conclude, outcomes, keeps.domain, keeps.entries, keeps.settings, keeps.registry]

/-- What a request is answered does not depend on what has been built or left on the trail before, and answering it
keeps the chain. -/
theorem Keeps.authorize {fresh c : Context} (keeps : fresh.Keeps c) (steady : fresh.Steady) (lookup : AclLookup)
    (request : Request) (trail : Trail) :
    ((c.authorize lookup request).run trail).1.1 = fresh.verdict lookup request ∧
      fresh.Keeps ((c.authorize lookup request).run trail).1.2 ∧
      ((c.authorize lookup request).run trail).2 =
        ((c.judge lookup request (c.registry.results c.entries)).run ((buildCells c.registry c.cells).run trail).2).2.deliver
          c.sink (c.decisionEvent request (fresh.verdict lookup request)) := by
  have steadyCells : ∀ cell ∈ c.cells, c.registry.Steady cell.entry.moduleId cell.entry.options := by
    intro cell member
    rw [keeps.registry]
    refine steady cell.entry ?_
    rw [← keeps.entries]
    exact List.mem_map_of_mem member
  obtain ⟨built, kept⟩ := buildCells_run steadyCells keeps.faithful trail
  have sameEntries := buildCells_entries c.registry c.cells trail
  have answer := c.judge_verdict lookup request ((buildCells c.registry c.cells).run trail).2
  rw [keeps.verdict_eq] at answer
  rw [authorize_eq, Traced.run_bind, Traced.run_bind, built]
  refine ⟨answer, ?_, ?_⟩
  · exact ⟨keeps.domain, sameEntries.trans keeps.entries, keeps.settings, keeps.registry, keeps.sink, kept⟩
  · rw [← answer]
    rfl

end Context

end AccessControl
