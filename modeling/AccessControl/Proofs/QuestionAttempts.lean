import AccessControl.Proofs.BuildAttempts

namespace AccessControl

namespace ManagerM

variable {α β : Type} (x : ManagerM β) (f : β → ManagerM α) (m : Manager) (trail : Trail)

theorem after_bind : (x >>= f).after m trail = match x.result m trail with
    | .ok b => (f b).after (x.after m trail) (x.left m trail)
    | .error _ => x.after m trail := by
  rw [after, bind_run]
  cases x.result m trail <;> rfl

theorem left_bind : (x >>= f).left m trail = match x.result m trail with
    | .ok b => (f b).left (x.after m trail) (x.left m trail)
    | .error _ => x.left m trail := by
  rw [left, bind_run]
  cases x.result m trail <;> rfl

end ManagerM

namespace Manager

/-- The attempts that asking for a part makes: one if it is missing. -/
def missing (m : Manager) (part : Part) (kept : Bool) (trail : Trail) : List Attempt :=
  if kept then [] else [⟨part, ((m.attempt part).run trail).1⟩]

def mappingAttempts (m : Manager) (trail : Trail) : List Attempt := m.missing .mapping m.mapping.isSome trail

def trustAttempts (m : Manager) (trail : Trail) : List Attempt := m.missing .trust m.trust.isSome trail

/-- The attempts that a request makes: the mapping chains first, and then the modules. -/
def authorizeAttempts (m : Manager) (request : Request) (trail : Trail) : List Attempt :=
  match getContext.result m trail with
  | .error _ => []
  | .ok c =>
    let ready := getContext.after m trail
    ready.mappingAttempts trail ++
      match (mapRequest request).result ready trail with
      | .error _ => []
      | .ok _ => buildAttempts c.registry 0 c.cells ((mapRequest request).left ready trail)

theorem keepPart_cases {α : Type} (build : Manager → Fallible α) (keep : α → Manager → Manager) (m : Manager)
    (trail : Trail) :
    (keepPart build keep).left m trail = ((build m).run trail).2 ∧
      match ((build m).run trail).1 with
      | .error _ => (keepPart build keep).after m trail = m
      | .ok part => (keepPart build keep).after m trail = keep part m := by
  rw [ManagerM.left, ManagerM.after, keepPart_run, ManagerM.ofFallible_bind_run]
  obtain ⟨_ | part, after⟩ := (build m).run trail
  · exact ⟨rfl, rfl⟩
  · exact ⟨rfl, rfl⟩

theorem fills_of_attempt {m m' : Manager} {part : Part} {succeeded : Bool} (missing : ¬m.Has part)
    (stays : ∀ other, m.Has other → m'.Has other) (filled : succeeded = true → m'.Has part) :
    m.Fills [⟨part, succeeded⟩] m' := by
  refine ⟨stays, ?_, ?_⟩
  · cases succeeded with
    | false => exact nofun
    | true => exact List.forall_mem_singleton.mpr ⟨missing, filled rfl⟩
  · cases succeeded with
    | false => exact .nil
    | true => exact List.nodup_singleton part

theorem makes_attempt (m : Manager) (part : Part) (trail : Trail) :
    m.Makes trail [⟨part, ((m.attempt part).run trail).1⟩] ((m.attempt part).run trail).2 := .next rfl (.done _)

theorem attempt_congr {m m' : Manager} (config : m.config = m'.config) (providers : m.providers = m'.providers) :
    m.attempt = m'.attempt := by
  funext part
  cases part <;> simp only [attempt, config, providers]

/-- Asking for a missing part makes one attempt to build it, and a part that has been built is kept. -/
theorem keepPart_attempts {α : Type} {build : Manager → Fallible α} {keep : α → Manager → Manager} {part : Part}
    {m : Manager} {trail : Trail}
    (attempted : (m.attempt part).run trail = (((build m).run trail).1.isOk, ((build m).run trail).2))
    (missing : ¬m.Has part) (kept : ∀ a other, m.Has other ∨ other = part → (keep a m).Has other) :
    m.Fills [⟨part, ((m.attempt part).run trail).1⟩] ((keepPart build keep).after m trail) ∧
      m.Makes trail [⟨part, ((m.attempt part).run trail).1⟩] ((keepPart build keep).left m trail) := by
  obtain ⟨left, after⟩ := keepPart_cases build keep m trail
  have makes := makes_attempt m part trail
  rw [attempted] at makes ⊢
  refine ⟨?_, left ▸ makes⟩
  cases made : ((build m).run trail).1 with
  | error e =>
    rw [made] at after
    rw [after]
    exact fills_of_attempt missing (fun _ has => has) nofun
  | ok a =>
    rw [made] at after
    rw [after]
    exact fills_of_attempt missing (fun other has => kept a other (.inl has)) fun _ => kept a part (.inr rfl)

theorem getMapping_attempts (m : Manager) (trail : Trail) :
    m.Fills (m.mappingAttempts trail) (getMapping.after m trail) ∧
      m.Makes trail (m.mappingAttempts trail) (getMapping.left m trail) := by
  unfold mappingAttempts Manager.missing
  rw [ManagerM.after, ManagerM.left, getMapping_run]
  cases kept : m.mapping with
  | some mapping => exact ⟨.none m, .done trail⟩
  | none =>
    refine keepPart_attempts rfl (fun has => ?_) fun mapping other has => ?_
    · rw [Has, kept] at has
      cases has
    · rcases has with has | rfl
      · cases other with
        | mapping => rfl
        | module place | trust => exact has
      · rfl

theorem getTrust_attempts (m : Manager) (trail : Trail) :
    m.Fills (m.trustAttempts trail) (getTrust.after m trail) ∧
      m.Makes trail (m.trustAttempts trail) (getTrust.left m trail) := by
  unfold trustAttempts Manager.missing
  rw [ManagerM.after, ManagerM.left, getTrust_run]
  cases kept : m.trust with
  | some trust => exact ⟨.none m, .done trail⟩
  | none =>
    refine keepPart_attempts rfl (fun has => ?_) fun trust other has => ?_
    · rw [Has, kept] at has
      cases has
    · rcases has with has | rfl
      · cases other with
        | trust => rfl
        | module place | mapping => exact has
      · rfl

/-- Getting the context builds nothing. What it leaves is a manager with that context. -/
theorem getContext_attempts (m : Manager) (trail : Trail) :
    m.Fills [] (getContext.after m trail) ∧ getContext.left m trail = trail ∧
      ∀ c, getContext.result m trail = .ok c → (getContext.after m trail).context = some c := by
  rw [ManagerM.after, ManagerM.left, ManagerM.result, getContext_run]
  cases kept : m.context with
  | some c =>
    refine ⟨.none m, rfl, ?_⟩
    rintro _ ⟨⟩
    exact kept
  | none =>
    cases Context.ofConfig m.config m.providers.modules m.sink with
    | error e =>
      refine ⟨.none m, rfl, ?_⟩
      rintro _ ⟨⟩
    | ok c =>
      refine ⟨.nothing fun part has => ?_, rfl, ?_⟩
      · cases part with
        | module place =>
          obtain ⟨_, present, _⟩ := has
          cases kept.symm.trans present
        | mapping | trust => exact has
      · rintro _ ⟨⟩
        rfl

theorem mapRequest_still (request : Request) (m : Manager) (trail : Trail) :
    (mapRequest request).after m trail = getMapping.after m trail ∧
      (mapRequest request).left m trail = getMapping.left m trail := by
  unfold mapRequest
  refine ManagerM.bind_still (fun mapping => ?_) m trail
  refine (ManagerM.still_ofResult _).bind fun subject => ?_
  exact (ManagerM.still_ofResult _).bind fun roles => ManagerM.still_ofResult (.ok { request with subject, roles })

theorem subjectRoles_still (subject : Subject) (roles : RoleGroup) (m : Manager) (trail : Trail) :
    (subjectRoles subject roles).after m trail = getMapping.after m trail ∧
      (subjectRoles subject roles).left m trail = getMapping.left m trail := by
  unfold subjectRoles
  refine ManagerM.bind_still (fun mapping => ?_) m trail
  exact (ManagerM.still_ofResult _).bind fun subject => ManagerM.still_ofResult _

theorem hasRole_still (subject : Subject) (roles : RoleGroup) (roleName : String) (m : Manager) (trail : Trail) :
    (hasRole subject roles roleName).after m trail = getMapping.after m trail ∧
      (hasRole subject roles roleName).left m trail = getMapping.left m trail := by
  obtain ⟨after, left⟩ := subjectRoles_still subject roles m trail
  rw [← after, ← left]
  unfold hasRole
  refine ManagerM.bind_still (fun held => ?_) m trail
  exact ManagerM.still_ofResult (.ok (held.holds roleName))

theorem getMapping_context (m : Manager) (trail : Trail) : (getMapping.after m trail).context = m.context := by
  rw [ManagerM.after, getMapping_run]
  cases m.mapping with
  | some mapping => rfl
  | none =>
    obtain ⟨_, after⟩ := keepPart_cases
      (fun m => Mapping.build m.config m.providers.roleMappers m.providers.principalMappers)
      (fun mapping m => { m with mapping := some mapping }) m trail
    change ((keepPart _ _).after m trail).context = m.context
    split at after <;> rw [after]

theorem Makes.of_attempt {m m' : Manager} (same : m.attempt = m'.attempt) {trail after : Trail}
    {attempts : List Attempt} (makes : m.Makes trail attempts after) : m'.Makes trail attempts after := by
  induction makes with
  | done trail => exact .done trail
  | next succeeded _ ih =>
    rw [same] at succeeded ih
    exact .next succeeded ih

theorem fills_of_cells {m : Manager} {c c' : Context} {attempts : List Attempt} (context : m.context = some c)
    (cells : CellsFill 0 c.cells attempts c'.cells) : m.Fills attempts { m with context := some c' } := by
  have has (place : Nat) : m.Has (.module place) ↔ Filled c.cells place := by
    constructor
    · rintro ⟨_, present, filled⟩
      cases context.symm.trans present
      exact filled
    · exact fun filled => ⟨c, context, filled⟩
  refine ⟨fun part here => ?_, fun part member => ?_, cells.once⟩
  · cases part with
    | module place => exact ⟨c', rfl, cells.stays place ((has place).mp here)⟩
    | mapping | trust => exact here
  · obtain ⟨i, rfl, empty, filled⟩ := cells.fills part member
    rw [Nat.zero_add]
    exact ⟨fun here => empty ((has i).mp here), c', rfl, filled⟩

/-- A kept context may be an old one, but its chain and its registry are those of the manager. -/
theorem Keeps.chain {fresh m : Manager} (keeps : fresh.Keeps m) {c : Context} (present : m.context = some c) :
    c.registry = m.providers.modules ∧ m.config.authorization.drop 0 = c.cells.map (·.entry) := by
  obtain ⟨made, ofConfig, keepsContext⟩ := keeps.context c present
  rw [List.drop_zero, keepsContext.registry, keeps.providers, keeps.config, ← Context.ofConfig_entries ofConfig]
  obtain ⟨_, _, rfl⟩ := Context.ofConfig_eq_ok.mp ofConfig
  exact ⟨rfl, keepsContext.entries.symm⟩

/-- The attempts are those that a step makes, in their order. They build parts that were missing, and beside what they
leave there are only lines and audit events. -/
def Attempts (m : Manager) {α : Type} (operation : ManagerM α) (trail : Trail) (attempts : List Attempt) : Prop :=
  m.Fills attempts (operation.after m trail) ∧
    ∃ middle, m.Makes trail attempts middle ∧ middle.Grows (operation.left m trail)

theorem authorize_attempts {fresh m : Manager} (keeps : fresh.Keeps m) (lookup : AclLookup) (request : Request)
    (trail : Trail) : m.Attempts (authorize lookup request) trail (m.authorizeAttempts request trail) := by
  obtain ⟨ready, untouched, present⟩ := getContext_attempts m trail
  have keepsReady := (getContext_yields fresh m trail keeps).2
  unfold Attempts authorize authorizeAttempts
  rw [ManagerM.after_bind, ManagerM.left_bind, untouched]
  cases given : getContext.result m trail with
  | error e => exact ⟨ready, trail, .done trail, .refl trail⟩
  | ok c =>
    have context := present c given
    have same : (getContext.after m trail).config = m.config ∧ (getContext.after m trail).providers = m.providers :=
      ⟨keepsReady.config.trans keeps.config.symm, keepsReady.providers.trans keeps.providers.symm⟩
    have attempt := attempt_congr same.1 same.2
    obtain ⟨registry, entries⟩ := keepsReady.chain context
    rw [same.2] at registry
    rw [same.1] at entries
    simp only
    generalize getContext.after m trail = m₁ at ready context attempt
    obtain ⟨fills, makes⟩ := getMapping_attempts m₁ trail
    have kept := getMapping_context m₁ trail
    obtain ⟨afterMapping, leftMapping⟩ := mapRequest_still request m₁ trail
    rw [ManagerM.after_bind, ManagerM.left_bind, afterMapping, leftMapping]
    have first := ready.append fills
    rw [List.nil_append] at first
    cases (mapRequest request).result m₁ trail with
    | error e =>
      simp only [List.append_nil]
      exact ⟨first, _, makes.of_attempt attempt, .refl _⟩
    | ok mapped =>
      simp only
      generalize getMapping.after m₁ trail = m₂ at fills kept first
      generalize getMapping.left m₁ trail = between at makes
      have built := c.authorize_fills lookup mapped between
      refine ⟨first.append (fills_of_cells (kept.trans context) built),
        ((buildCells c.registry c.cells).run between).2, ?_, ?_⟩
      · have modules := m.buildCells_makes entries between
        rw [← registry] at modules
        exact (makes.of_attempt attempt).append modules
      · exact c.authorize_grows lookup mapped between

section Questions

variable (m : Manager) (trail : Trail)

theorem attempts_of_still {α : Type} {operation : ManagerM α}
    (still : operation.after m trail = getMapping.after m trail ∧ operation.left m trail = getMapping.left m trail) :
    m.Attempts operation trail (m.mappingAttempts trail) := by
  obtain ⟨fills, makes⟩ := m.getMapping_attempts trail
  rw [Attempts, still.1, still.2]
  exact ⟨fills, _, makes, .refl _⟩

theorem isInRole_attempts (subject : Subject) (roles : RoleGroup) (roleName : String) (refs : List RoleRef) :
    m.Attempts (isInRole subject roles roleName refs) trail
      (match m.config.settings.resolveRoleRef refs roleName with
        | .error _ => []
        | .ok _ => m.mappingAttempts trail) := by
  rw [Attempts, ManagerM.after, ManagerM.left, isInRole_run]
  cases m.config.settings.resolveRoleRef refs roleName with
  | error e => exact ⟨.none m, trail, .done trail, .refl trail⟩
  | ok link => exact attempts_of_still m trail (hasRole_still subject roles (link.getD roleName) m trail)

theorem isTrusted_attempts (subject : Subject) : m.Attempts (isTrusted subject) trail (m.trustAttempts trail) := by
  obtain ⟨fills, makes⟩ := m.getTrust_attempts trail
  rw [Attempts, isTrusted, ManagerM.after_bind, ManagerM.left_bind]
  cases getTrust.result m trail with
  | error e => exact ⟨fills, _, makes, .refl _⟩
  | ok trust =>
    refine ⟨fills, _, makes, ?_⟩
    change (getTrust.left m trail).Grows ((trust.judge subject).run (getTrust.left m trail)).2
    rw [TrustContext.judge_run]
    exact Trail.grows_write _ _

end Questions

end Manager

/-- A question that can be put to a manager. -/
inductive Question
  | authorize (lookup : AclLookup) (request : Request)
  | subjectRoles (subject : Subject) (roles : RoleGroup)
  | hasRole (subject : Subject) (roles : RoleGroup) (roleName : String)
  | isInRole (subject : Subject) (roles : RoleGroup) (roleName : String) (refs : List RoleRef)
  | isTrusted (subject : Subject)

namespace Question

def Answer : Question → Type
  | authorize _ _ => Decision
  | subjectRoles _ _ => RoleGroup
  | hasRole _ _ _ | isInRole _ _ _ _ => Bool
  | isTrusted _ => TrustDecision

def put : (q : Question) → ManagerM q.Answer
  | authorize lookup request => Manager.authorize lookup request
  | subjectRoles subject roles => Manager.subjectRoles subject roles
  | hasRole subject roles roleName => Manager.hasRole subject roles roleName
  | isInRole subject roles roleName refs => Manager.isInRole subject roles roleName refs
  | isTrusted subject => Manager.isTrusted subject

theorem put_operation (q : Question) : Manager.Operation q.put := by
  cases q with
  | authorize lookup request => exact .authorize lookup request
  | subjectRoles subject roles => exact .subjectRoles subject roles
  | hasRole subject roles roleName => exact .hasRole subject roles roleName
  | isInRole subject roles roleName refs => exact .isInRole subject roles roleName refs
  | isTrusted subject => exact .isTrusted subject

/-- The attempts that a question makes a manager take. -/
def attempts (m : Manager) (trail : Trail) : Question → List Attempt
  | authorize _ request => m.authorizeAttempts request trail
  | subjectRoles _ _ | hasRole _ _ _ => m.mappingAttempts trail
  | isInRole _ _ roleName refs =>
    match m.config.settings.resolveRoleRef refs roleName with
    | .error _ => []
    | .ok _ => m.mappingAttempts trail
  | isTrusted _ => m.trustAttempts trail

theorem put_attempts {fresh m : Manager} (keeps : fresh.Keeps m) (q : Question) (trail : Trail) :
    m.Attempts q.put trail (q.attempts m trail) := by
  cases q with
  | authorize lookup request => exact Manager.authorize_attempts keeps lookup request trail
  | subjectRoles subject roles => exact m.attempts_of_still trail (Manager.subjectRoles_still subject roles m trail)
  | hasRole subject roles roleName =>
    exact m.attempts_of_still trail (Manager.hasRole_still subject roles roleName m trail)
  | isInRole subject roles roleName refs => exact m.isInRole_attempts trail subject roles roleName refs
  | isTrusted subject => exact m.isTrusted_attempts trail subject

end Question

end AccessControl
