import AccessControl.Proofs.ContextRun
import AccessControl.Proofs.ScriptedChain

namespace AccessControl

theorem Settings.linkRoles_eq_error {s : Settings} {resource : Resource} {e : Error} :
    s.linkRoles resource = .error e ↔
      ∃ check refs, resource.roleCheck? = some (check, refs) ∧ s.resolveRoleRef refs check.roleName = .error e := by
  unfold linkRoles
  cases checked : resource.roleCheck? with
  | none => exact ⟨nofun, fun ⟨_, _, impossible, _⟩ => nomatch impossible⟩
  | some question =>
    obtain ⟨check, refs⟩ := question
    simp only [bind_eq_error]
    constructor
    · rintro (rejected | ⟨link, _, impossible⟩)
      · exact ⟨check, refs, rfl, rejected⟩
      · cases link <;> cases impossible
    · rintro ⟨_, _, same, rejected⟩
      cases same
      exact .inl rejected

theorem Settings.linkRoles_of_check (s : Settings) {resource : Resource} {check : RoleCheck} {refs : List RoleRef}
    (asks : resource.roleCheck? = some (check, refs)) :
    s.linkRoles resource =
      (s.resolveRoleRef refs check.roleName).map fun link => link.elim resource resource.linkRole := by
  unfold linkRoles
  rw [asks]
  cases answer : s.resolveRoleRef refs check.roleName with
  | error e => simp only [answer]; rfl
  | ok link =>
    simp only [answer]
    cases link <;> rfl

theorem Settings.resolveRoleRef_error_kind {s : Settings} {refs : List RoleRef} {roleName : String} {e : Error}
    (rejected : s.resolveRoleRef refs roleName = .error e) : e.kind = .configuration := by
  simp only [resolveRoleRef] at rejected
  split at rejected
  · cases rejected
  · split at rejected
    · cases rejected
      rfl
    · split at rejected
      · cases rejected
        rfl
      · cases rejected

namespace Context

theorem ofConfig_eq_ok {config : DomainConfig} {registry : Registry Module} {sink : AuditSink} {c : Context} :
    ofConfig config registry sink = .ok c ↔
      config.validate = .ok () ∧ (∀ e ∈ config.authorization, registry.contains e.moduleId = true) ∧
      c = ⟨config.name, config.authorization.map (⟨·, none⟩), config.settings, registry, sink⟩ := by
  unfold ofConfig
  rw [bind_eq_ok]
  cases search : config.authorization.find? (fun e => !registry.contains e.moduleId) with
  | some e =>
    have unknown := List.find?_some search
    have member := List.mem_of_find?_eq_some search
    constructor
    · rintro ⟨_, _, impossible⟩
      cases impossible
    · rintro ⟨_, known, _⟩
      rw [known e member] at unknown
      cases unknown
  | none =>
    have known : ∀ e ∈ config.authorization, registry.contains e.moduleId = true := by
      intro e member
      simpa using List.find?_eq_none.mp search e member
    constructor
    · rintro ⟨_, valid, same⟩
      exact ⟨valid, known, (Except.ok.inj same).symm⟩
    · rintro ⟨valid, _, rfl⟩
      exact ⟨(), valid, rfl⟩

theorem ofConfig_keeps {config : DomainConfig} {registry : Registry Module} {sink : AuditSink} {c : Context}
    (made : ofConfig config registry sink = .ok c) : c.Keeps c := by
  obtain ⟨_, _, rfl⟩ := ofConfig_eq_ok.mp made
  refine ⟨rfl, rfl, rfl, rfl, rfl, ?_⟩
  intro cell member module kept
  obtain ⟨e, _, rfl⟩ := List.mem_map.mp member
  cases kept

/-- The contexts that answering requests one after another can lead to, whatever is asked, whatever the stored lists
are at each time, and whatever else happens in between. -/
inductive Reaches (fresh : Context) : Context → Prop
  | start : Reaches fresh fresh
  | next {c : Context} (lookup : AclLookup) (request : Request) (trail : Trail) :
      Reaches fresh c → Reaches fresh ((c.authorize lookup request).run trail).1.2

theorem Reaches.keeps {fresh c : Context} (reach : fresh.Reaches c) (steady : fresh.Steady)
    (start : fresh.Keeps fresh) : fresh.Keeps c := by
  induction reach with
  | start => exact start
  | next lookup request trail _ ih => exact (ih.authorize steady lookup request trail).2.1

theorem asked_events {c : Context} (kept : c.sink = .keep) (lookup : AclLookup) (request : Request) (trail : Trail)
    (steps : List (ModuleEntry × Module)) :
    (c.asked lookup request trail steps).events =
      trail.events ++ steps.map fun s => c.moduleEvent request.resource s.1 (s.2.answer lookup request) := by
  induction steps generalizing trail with
  | nil => rw [List.map_nil, List.append_nil]; rfl
  | cons step rest ih =>
    have first : ((trail.write (step.2.lines request)).deliver c.sink
        (c.moduleEvent request.resource step.1 (step.2.answer lookup request))).events =
          trail.events ++ [c.moduleEvent request.resource step.1 (step.2.answer lookup request)] := by
      rw [kept]
      rfl
    rw [List.map_cons, List.append_cons, ← first]
    exact ih _

theorem conclude_of_none {c : Context} {o : ChainOutcome} (undecided : o.decidingError = none) :
    c.conclude o = .ok (o.decision.orElse c.settings.emptyChainDecision) := by
  rw [conclude, undecided]

section Run

variable {fresh c : Context} (keeps : fresh.Keeps c) (steady : fresh.Steady) (lookup : AclLookup) (request : Request)
  (trail : Trail)

include keeps steady

end Run

theorem ofConfig_entries {config : DomainConfig} {registry : Registry Module} {sink : AuditSink} {c : Context}
    (made : ofConfig config registry sink = .ok c) : c.entries = config.authorization := by
  obtain ⟨_, _, rfl⟩ := ofConfig_eq_ok.mp made
  simp only [entries, List.map_map]
  exact List.map_id _

end Context

end AccessControl
