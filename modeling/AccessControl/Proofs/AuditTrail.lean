import AccessControl.Proofs.AuditEvents
import AccessControl.Proofs.ChainSpecification
import AccessControl.Proofs.ContextRefinement

namespace AccessControl

/-- The factory of this provider leaves the audit events as they are, whatever else it does. -/
def Registry.Quiet {α : Type} (r : Registry α) (id : String) (options : Options) : Prop :=
  ∀ trail, ((r.create id options).run trail).2.events = trail.events

theorem Registry.Silent.quiet {α : Type} {r : Registry α} {id : String} {options : Options}
    (silent : r.Silent id options) : r.Quiet id options := by
  intro trail
  rw [silent]
  rfl

/-- Building either gives every cell its module, or stops at a cell that has none. -/
theorem buildCells_built (registry : Registry Module) (cells : List Cell) (trail : Trail) :
    (∀ modules, ((buildCells registry cells).run trail).1.2 = .ok modules →
      ((buildCells registry cells).run trail).1.1.map (·.built) = modules.map some) ∧
    (∀ e, ((buildCells registry cells).run trail).1.2 = .error e →
      ∃ cell ∈ ((buildCells registry cells).run trail).1.1, cell.built = none) := by
  induction cells generalizing trail with
  | nil =>
    refine ⟨?_, nofun⟩
    rintro _ ⟨⟩
    rfl
  | cons cell rest ih =>
    rw [buildCells_cons, Traced.run_bind]
    cases made : ((cell.module registry).run trail).1 with
    | error e =>
      refine ⟨nofun, fun _ _ => ⟨cell, List.mem_cons_self, ?_⟩⟩
      unfold Cell.module at made
      cases kept : cell.built with
      | none => rfl
      | some module =>
        rw [kept] at made
        cases made
    | ok module =>
      obtain ⟨all, missing⟩ := ih ((cell.module registry).run trail).2
      refine ⟨fun modules built => ?_, fun e failed => ?_⟩
      · obtain ⟨others, rest', same⟩ := map_eq_ok.mp built
        subst same
        exact congrArg (some module :: ·) (all others rest')
      · obtain ⟨other, member, unbuilt⟩ := missing e (map_eq_error.mp failed)
        exact ⟨other, List.mem_cons_of_mem _ member, unbuilt⟩

theorem Settings.linkRoles_text {s : Settings} {resource linked : Resource}
    (accepted : s.linkRoles resource = .ok linked) : linked.text = resource.text := by
  unfold linkRoles at accepted
  split at accepted
  · cases accepted
    rfl
  · obtain ⟨link, _, given⟩ := bind_eq_ok.mp accepted
    cases link with
    | none =>
      cases given
      rfl
    | some role =>
      cases given
      rfl

/-- A request that has been answered: what it was decided on, the answer, and the context left behind. -/
structure Exchange where
  lookup : AclLookup
  request : Request
  answer : Except Error Decision
  after : Context

namespace Context

def exchange (c : Context) (lookup : AclLookup) (request : Request) : Traced Exchange := do
  let (answer, after) ← c.authorize lookup request
  pure ⟨lookup, request, answer, after⟩

/-- Answers requests one after another. -/
def serveAll (c : Context) : List (AclLookup × Request) → Traced (List Exchange)
  | [] => pure []
  | (lookup, request) :: rest => do
    let x ← c.exchange lookup request
    let later ← x.after.serveAll rest
    pure (x :: later)

end Context

namespace Exchange

/-- Which modules were asked in an exchange, and with what outcomes. Where a module could not be built, which is then
still missing, or where the role check was rejected, none was. Otherwise they were asked in order, up to the first that
ends the chain. -/
structure Asks (x : Exchange) (entries : List ModuleEntry) (settings : Settings)
    (asked : List (ModuleEntry × Outcome)) : Prop where
  chain : x.after.entries = entries
  unbuilt : (∃ cell ∈ x.after.cells, cell.built = none) → asked = []
  rejected : ∀ e, settings.linkRoles x.request.resource = .error e → asked = []
  evaluated : ∀ (modules : List Module) (resource : Resource), x.after.cells.map (·.built) = modules.map some →
    settings.linkRoles x.request.resource = .ok resource →
    let steps := entries.zip (modules.map (·.answer x.lookup { x.request with resource }))
    let outcomes := steps.map fun s => (s.1.flag, s.2)
    asked = steps.take (aggregate outcomes).evaluated ∧
      (∀ s, IsLeast {i | EndsAt outcomes i} s → asked.length = s + 1) ∧
      ((∀ i, ¬EndsAt outcomes i) → asked = steps)

/-- The audit events about an exchange: one for each module asked, in order, and then one for the answer. -/
def Reports (x : Exchange) (domain : String) (asked : List (ModuleEntry × Outcome)) (block : List AuditEvent) : Prop :=
  ∃ outcomes last, block = outcomes ++ [last] ∧
    List.Forall₂ (fun s event => event.TellsOutcome domain x.request.resource s.1 s.2) asked outcomes ∧
    last.TellsAnswer domain x.request x.answer

end Exchange

namespace Context

theorem moduleEvent_congr (c : Context) {resource resource' : Resource} (same : resource.text = resource'.text)
    (entry : ModuleEntry) (outcome : Outcome) :
    c.moduleEvent resource entry outcome = c.moduleEvent resource' entry outcome := by
  unfold moduleEvent
  rw [same]

/-- An exchange by its parts: building, judging, and the event about the answer. -/
theorem exchange_run (c : Context) (lookup : AclLookup) (request : Request) (trail : Trail) :
    let built := (buildCells c.registry c.cells).run trail
    let judged := (c.judge lookup request built.1.2).run built.2
    (c.exchange lookup request).run trail =
      (⟨lookup, request, judged.1, { c with cells := built.1.1 }⟩,
        judged.2.deliver c.sink (c.decisionEvent request judged.1)) := by
  intro built judged
  unfold exchange
  rw [authorize_eq]
  rfl

theorem deliver_events {c : Context} (kept : c.sink = .keep) (trail : Trail) (event : AuditEvent) :
    (trail.deliver c.sink event).events = trail.events ++ [event] := by
  rw [kept]
  rfl

/-- The events about the modules asked, and then the one about the answer. -/
theorem reports_of_asked (c : Context) (x : Exchange) {resource : Resource}
    (text : resource.text = x.request.resource.text) (asked : List (ModuleEntry × Outcome)) :
    x.Reports c.domain asked
      (asked.map (fun s => c.moduleEvent resource s.1 s.2) ++ [c.decisionEvent x.request x.answer]) := by
  refine ⟨_, _, rfl, ?_, c.decisionEvent_tells x.request x.answer⟩
  rw [List.forall₂_map_right_iff, List.forall₂_same]
  intro s _
  rw [c.moduleEvent_congr text]
  exact c.moduleEvent_tells x.request.resource s.1 s.2

theorem outcomes_eq (c : Context) (lookup : AclLookup) (request : Request) (modules : List Module) :
    c.outcomes lookup request modules =
      (c.entries.zip (modules.map (·.answer lookup request))).map fun s => (s.1.flag, s.2) := by
  rw [outcomes, List.zip_map_right, List.map_map]
  rfl

/-- The entries whose modules a request gets to ask, with the outcomes. -/
def consulted (c : Context) (lookup : AclLookup) (request : Request) (modules : List Module) :
    List (ModuleEntry × Outcome) :=
  (c.entries.zip (modules.map (·.answer lookup request))).take
    (aggregate (c.outcomes lookup request modules)).evaluated

theorem evaluate_events {c : Context} (kept : c.sink = .keep) (lookup : AclLookup) (request : Request)
    (modules : List Module) (trail : Trail) :
    ((c.evaluate lookup request modules).run trail).2.events = trail.events ++
      (c.consulted lookup request modules).map fun s => c.moduleEvent request.resource s.1 s.2 := by
  rw [evaluate_run, asked_events kept, consulted, List.zip_map_right, ← List.map_take, List.map_map]
  rfl

theorem length_consulted_of_first_end {c : Context} {lookup : AclLookup} {request : Request} {modules : List Module}
    {s : Nat} (first : IsLeast {i | EndsAt (c.outcomes lookup request modules) i} s) :
    (c.consulted lookup request modules).length = s + 1 := by
  have bound := aggregate_evaluated_le (c.outcomes lookup request modules)
  rw [aggregate_evaluated_of_first_end first] at bound
  rw [consulted, aggregate_evaluated_of_first_end first, List.length_take]
  rw [outcomes_eq, List.length_map] at bound
  exact Nat.min_eq_left bound

theorem consulted_of_no_end {c : Context} {lookup : AclLookup} {request : Request} {modules : List Module}
    (onward : ∀ i, ¬EndsAt (c.outcomes lookup request modules) i) :
    c.consulted lookup request modules = c.entries.zip (modules.map (·.answer lookup request)) := by
  rw [consulted, aggregate_of_no_end onward]
  refine List.take_of_length_le (Nat.le_of_eq ?_)
  change _ = (c.outcomes lookup request modules).length
  rw [outcomes_eq, List.length_map]

theorem built_of_complete {cells : List Cell} {modules : List Module}
    (complete : cells.map (·.built) = modules.map some) : ¬∃ cell ∈ cells, cell.built = none := by
  rintro ⟨cell, member, absent⟩
  have kept := List.mem_map_of_mem (f := fun cell : Cell => cell.built) member
  rw [complete, absent] at kept
  obtain ⟨module, _, impossible⟩ := List.mem_map.mp kept
  cases impossible

/-- Where something stands in the way of asking, asking nobody is right. -/
theorem asks_nobody {c : Context} {x : Exchange} (chain : x.after.entries = c.entries)
    (hindered : (∃ cell ∈ x.after.cells, cell.built = none) ∨
      ∃ e, c.settings.linkRoles x.request.resource = .error e) : x.Asks c.entries c.settings [] := by
  refine ⟨chain, fun _ => rfl, fun _ _ => rfl, fun modules resource complete linked => ?_⟩
  rcases hindered with missing | ⟨e, rejected⟩
  · exact absurd missing (built_of_complete complete)
  · cases rejected.symm.trans linked

/-- Where nothing stands in the way of asking, the chain says whom to ask. -/
theorem asks_consulted {c : Context} {x : Exchange} (chain : x.after.entries = c.entries) {modules : List Module}
    (complete : x.after.cells.map (·.built) = modules.map some) {resource : Resource}
    (linked : c.settings.linkRoles x.request.resource = .ok resource) :
    x.Asks c.entries c.settings (c.consulted x.lookup { x.request with resource } modules) := by
  refine ⟨chain, fun missing => absurd missing (built_of_complete complete), ?_, ?_⟩
  · intro e rejected
    cases linked.symm.trans rejected
  · intro modules' resource' complete' linked' steps outcomes
    have sameModules : modules = modules' :=
      List.map_injective_iff.mpr (Option.some_injective _) (complete.symm.trans complete')
    cases linked.symm.trans linked'
    subst sameModules
    have same : outcomes = c.outcomes x.lookup { x.request with resource } modules := (c.outcomes_eq ..).symm
    refine ⟨?_, fun s first => ?_, fun onward => ?_⟩
    · rw [same]
      rfl
    · rw [same] at first
      exact length_consulted_of_first_end first
    · rw [same] at onward
      exact consulted_of_no_end onward

/-- What one exchange adds to the audit trail, beside what the factories may add while modules are built. -/
theorem exchange_reports {c : Context} (kept : c.sink = .keep) (lookup : AclLookup) (request : Request)
    (trail : Trail) :
    let run := (c.exchange lookup request).run trail
    ∃ asked block, run.2.events = ((buildCells c.registry c.cells).run trail).2.events ++ block ∧
      run.1.Asks c.entries c.settings asked ∧ run.1.Reports c.domain asked block := by
  have chain := buildCells_entries c.registry c.cells trail
  obtain ⟨all, missing⟩ := buildCells_built c.registry c.cells trail
  rw [exchange_run]
  -- The three ways through `judge`: no modules, no linked role check, or a chain to be run.
  cases made : ((buildCells c.registry c.cells).run trail).1.2 with
  | error e =>
    exact ⟨[], _, deliver_events kept _ _, asks_nobody chain (.inl (missing e made)), c.reports_of_asked _ rfl []⟩
  | ok modules =>
    cases linked : c.settings.linkRoles request.resource with
    | error e =>
      simp only [judge, linked]
      exact ⟨[], _, deliver_events kept _ _, asks_nobody chain (.inr ⟨e, linked⟩), c.reports_of_asked _ rfl []⟩
    | ok resource =>
      simp only [judge, linked]
      refine ⟨c.consulted lookup { request with resource } modules, _, ?_, ?_,
        c.reports_of_asked _ (Settings.linkRoles_text linked) _⟩
      · rw [deliver_events kept, Traced.run_bind]
        change ((c.evaluate lookup { request with resource } modules).run _).2.events ++ _ = _
        rw [evaluate_events kept, List.append_assoc]
      · apply asks_consulted
        · exact chain
        · exact all modules made
        · exact linked

/-- What exchanges one after another add to the audit trail. -/
theorem serveAll_reports {c : Context} (kept : c.sink = .keep)
    (quiet : ∀ e ∈ c.entries, c.registry.Quiet e.moduleId e.options) (calls : List (AclLookup × Request))
    (trail : Trail) :
    let run := (c.serveAll calls).run trail
    run.1.map (fun x => (x.lookup, x.request)) = calls ∧
    ∃ blocks, run.2.events = trail.events ++ blocks.flatten ∧
      List.Forall₂ (fun x block => ∃ asked, x.Asks c.entries c.settings asked ∧ x.Reports c.domain asked block)
        run.1 blocks := by
  -- What has been built changes from call to call. The rest of the context stays, so that the later exchanges are
  -- reported in the terms of the first context.
  induction calls generalizing c trail with
  | nil =>
    refine ⟨rfl, [], ?_, .nil⟩
    rw [List.flatten_nil, List.append_nil]
    rfl
  | cons call rest ih =>
    obtain ⟨lookup, request⟩ := call
    have quietCells : ∀ cell ∈ c.cells, c.registry.Quiet cell.entry.moduleId cell.entry.options :=
      fun cell member => quiet cell.entry (List.mem_map_of_mem member)
    obtain ⟨asked, block, added, asks, reports⟩ := exchange_reports kept lookup request trail
    rw [buildCells_leaves Trail.events quietCells] at added
    have parts := c.exchange_run lookup request trail
    have run : (c.serveAll ((lookup, request) :: rest)).run trail =
      let first := (c.exchange lookup request).run trail
      let later := (first.1.after.serveAll rest).run first.2
      (first.1 :: later.1, later.2) := rfl
    rw [run]
    generalize (c.exchange lookup request).run trail = first at parts added asks reports ⊢
    obtain ⟨x, left⟩ := first
    have after : x.after = { c with cells := ((buildCells c.registry c.cells).run trail).1.1 } :=
      congrArg (·.1.after) parts
    have keptAfter : x.after.sink = .keep := (congrArg Context.sink after).trans kept
    have quietAfter : ∀ e ∈ x.after.entries, x.after.registry.Quiet e.moduleId e.options := by
      rw [asks.chain, congrArg Context.registry after]
      exact quiet
    obtain ⟨calls, blocks, events, each⟩ := ih keptAfter quietAfter left
    rw [asks.chain, congrArg Context.settings after, congrArg Context.domain after] at each
    have here : (x.lookup, x.request) = (lookup, request) := congrArg (fun p => (p.1.lookup, p.1.request)) parts
    refine ⟨?_, block :: blocks, ?_, .cons ⟨asked, asks, reports⟩ each⟩
    · rw [List.map_cons, calls, here]
    · rw [events, added, List.flatten_cons, List.append_assoc]

/-- Answering a request adds one block of events to the audit trail, beside what the factories themselves may add while
modules are built: an event for each module asked, in order, and one for the answer, each saying neither more nor less
than it should. So the trail of a run is one block after another, provided that the factories leave it alone. -/
theorem serveAll_audited :
    (∀ (c : Context) (lookup : AclLookup) (request : Request) (trail : Trail), c.sink = .keep →
      let run := (c.exchange lookup request).run trail
      ∃ asked block, run.2.events = ((buildCells c.registry c.cells).run trail).2.events ++ block ∧
        run.1.Asks c.entries c.settings asked ∧ run.1.Reports c.domain asked block) ∧
    (∀ (c : Context) (calls : List (AclLookup × Request)) (trail : Trail), c.sink = .keep →
      (∀ e ∈ c.entries, c.registry.Quiet e.moduleId e.options) →
      let run := (c.serveAll calls).run trail
      run.1.map (fun x => (x.lookup, x.request)) = calls ∧
      ∃ blocks, run.2.events = trail.events ++ blocks.flatten ∧
        List.Forall₂ (fun x block => ∃ asked, x.Asks c.entries c.settings asked ∧ x.Reports c.domain asked block)
          run.1 blocks) := by
  refine ⟨fun c lookup request trail kept => ?_, fun c calls trail kept quiet => ?_⟩
  · exact exchange_reports kept lookup request trail
  · exact serveAll_reports kept quiet calls trail

/-- The second module ends the chain each time, so the third is never asked. The attributes of the resource borrow the
names of core entries and replace none of them. -/
theorem serveAll_audited_borrowed_names :
    let gate := Module.constant (.error (.internal "down"))
    let registry := (Registry.empty .module).register "gate" (.ofOptions fun _ => .ok gate)
    let cells : List Cell := [⟨.plain "gate" .optional, none⟩, ⟨.plain "gate" .requisite, none⟩,
      ⟨.plain "gate" .required, none⟩]
    let c : Context := ⟨"ledger", cells, .standard, registry, .keep⟩
    let resource := ((Resource.generic ⟨.web, "/"⟩).withAttribute "domain" "other").withAttribute "decision" "PERMIT"
    let call : AclLookup × Request := (fun _ => .ok none, ⟨resource, .anonymous, .empty "Roles"⟩)
    let events := ((c.serveAll [call, call]).run .empty).2.events
    (∀ e ∈ c.entries, c.registry.Quiet e.moduleId e.options) ∧
      (∃ blocks : List (List AuditEvent), events = blocks.flatten ∧ blocks.length = 2) ∧
      events.map (·.level) = [.info, .info, .error, .info, .info, .error] ∧
      events.map (·.get? "outcome") = [some "error", some "error", none, some "error", some "error", none] ∧
      events.head?.map (·.context.entries) = some [("domain", "ledger"), ("flag", "OPTIONAL"), ("module", "gate"),
        ("outcome", "error"), ("resource", "web:/")] ∧
      events.getLast?.map (·.context.entries) = some [("attribute.decision", "PERMIT"), ("attribute.domain", "other"),
        ("caller", "<anonymous>"), ("domain", "ledger"), ("error_kind", "authorization"), ("resource", "web:/")] ∧
      events.getLast?.map (·.underlyingError) = some (some
        "Authorization error: requisite module failed in domain 'ledger': Internal error: down") := by
  intro gate registry cells c resource call events
  have quiet : ∀ e ∈ c.entries, c.registry.Quiet e.moduleId e.options := by
    intro e member
    have named : e.moduleId = "gate" := by
      simp only [c, cells, entries, List.map_cons, List.map_nil, List.mem_cons, List.not_mem_nil, or_false] at member
      rcases member with rfl | rfl | rfl <;> rfl
    have created : registry.create "gate" e.options = .ofResult (.ok gate) := by
      rw [Registry.create_register, if_pos rfl]
      rfl
    rw [named]
    exact (Registry.silent_of_create created).1.quiet
  obtain ⟨answered, blocks, recorded, each⟩ := serveAll_audited.2 c [call, call] .empty rfl quiet
  refine ⟨quiet, ⟨blocks, recorded, ?_⟩, ?_, ?_, ?_, ?_, ?_⟩
  · have number := congrArg List.length answered
    rw [List.length_map, each.length_eq] at number
    exact number
  · decide +kernel
  · decide +kernel
  · decide +kernel
  · decide +kernel
  · decide +kernel

end Context

end AccessControl
