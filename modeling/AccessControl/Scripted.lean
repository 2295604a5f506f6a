import AccessControl.Providers

namespace AccessControl

namespace Scripted

/-- The text under an option, or the empty text. The providers of this namespace do what their options say and report
each time they are built or asked. -/
def textOption (options : Options) (key : String) : String := ((options.get? key).bind Json.text?).getD ""

/-- The line that a scripted module writes when it is asked. -/
def callLine (id : String) (request : Request) : String :=
  let caller := (request.subject.caller.map (·.name)).getD "-"
  let roles := ",".intercalate request.roles.leafNames.keys
  let checked := match request.resource.roleCheck? with
    | some (check, _) => " as " ++ check.effectiveRole
    | none => ""
  let resource := request.resource.text
  s!"call {id} {resource} {caller} [{roles}]" ++ checked

/-- A module with a fixed outcome. Its first builds may be made to fail. -/
def module : Factory Module := fun options => do
  let id := textOption options "id"
  modify (·.countBuild id)
  let build := (← get).buildCount id
  modify (·.write [s!"build {id} {build}"])
  if build ≤ ((options.get? "fail_builds").bind Json.nat?).getD 0 then
    throw (.internal s!"build {build} of {id} failed")
  match (options.get? "outcome").bind Outcome.ofJson? with
  | none => throw (.invalid "scripted outcome")
  | some outcome => pure ⟨fun _ _ => outcome, fun request => [callLine id request]⟩

def roleMapper : Factory RoleMapper := fun options =>
  pure ⟨fun _ _ => .error (.internal (textOption options "message"))⟩

def principalMapper : Factory PrincipalMapper := fun options =>
  pure ⟨fun _ => .error (.internal (textOption options "message"))⟩

/-- A trust module with a fixed answer; a text that is no answer makes it fail. -/
def trustModule : Factory TrustModule := fun options =>
  let id := textOption options "id"
  let answer := textOption options "outcome"
  let judgement : Except Error TrustDecision := match TrustDecision.ofStoredName? answer with
    | some decision => .ok decision
    | none => .error (.internal answer)
  pure ⟨fun _ => judgement, [s!"trust {id}"]⟩

/-- Adds the scripted providers to others. -/
def addTo (p : Providers) : Providers where
  modules := p.modules.register "scripted" module
  roleMappers := p.roleMappers.register "failing" roleMapper
  principalMappers := p.principalMappers.register "failing" principalMapper
  trustModules := p.trustModules.register "scripted" trustModule

/-- The identifier of a step in a scripted chain. -/
def stepId (index : Nat) : String := s!"step-{index}"

/-- A module with a fixed outcome that writes its name each time it is asked. -/
def step (name : String) (outcome : Outcome) : Module := ⟨fun _ _ => outcome, fun _ => [name]⟩

/-- A domain whose chain consists of scripted steps, and a registry that knows them beside the usual modules. -/
def chain (domain : String) (steps : List (ControlFlag × Outcome)) : DomainConfig × Registry Module :=
  steps.zipIdx.foldl
    (fun (config, registry) ((flag, outcome), index) =>
      (config.withModule (.plain (stepId index) flag),
        registry.register (stepId index) fun _ => pure (step (stepId index) outcome)))
    (.ofName domain, Providers.builtin.modules)

end Scripted

end AccessControl
