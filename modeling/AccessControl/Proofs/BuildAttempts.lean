import AccessControl.Proofs.ManagerAudit

namespace AccessControl

/-- What a manager builds and keeps: the module of an entry of its chain, its mapping chains, and its trust chain. -/
inductive Part
  | module (place : Nat)
  | mapping
  | trust
  deriving DecidableEq

structure Attempt where
  part : Part
  succeeded : Bool
  deriving DecidableEq

/-- The parts that were built by some attempts, with repetitions. -/
def builtBy (attempts : List Attempt) : List Part := (attempts.filter (·.succeeded)).map (·.part)

/-- The attempts that building the missing modules of a chain makes. One that fails is the last. -/
def buildAttempts (registry : Registry Module) : Nat → List Cell → Trail → List Attempt
  | _, [], _ => []
  | place, cell :: rest, trail =>
    match cell.built with
    | some _ => buildAttempts registry (place + 1) rest trail
    | none =>
      match (registry.create cell.entry.moduleId cell.entry.options).run trail with
      | (.error _, _) => [⟨.module place, false⟩]
      | (.ok _, after) => ⟨.module place, true⟩ :: buildAttempts registry (place + 1) rest after

theorem buildCells_run_cons (registry : Registry Module) (cell : Cell) (rest : List Cell) (trail : Trail) :
    (buildCells registry (cell :: rest)).run trail =
      match cell.built with
      | some module =>
        let later := (buildCells registry rest).run trail
        (({ cell with built := some module } :: later.1.1, later.1.2.map (module :: ·)), later.2)
      | none =>
        match (registry.create cell.entry.moduleId cell.entry.options).run trail with
        | (.error e, after) => ((cell :: rest, .error e), after)
        | (.ok module, after) =>
          let later := (buildCells registry rest).run after
          (({ cell with built := some module } :: later.1.1, later.1.2.map (module :: ·)), later.2) := by
  rw [buildCells_cons, Traced.run_bind, Cell.module]
  cases cell.built with
  | some module => rfl
  | none =>
    unfold StateT.run
    simp only
    obtain ⟨_ | module, after⟩ := (registry.create cell.entry.moduleId cell.entry.options).run trail
    · rfl
    · rfl

theorem builtBy_append (attempts more : List Attempt) :
    builtBy (attempts ++ more) = builtBy attempts ++ builtBy more := by
  rw [builtBy, List.filter_append, List.map_append]
  rfl

def Filled (cells : List Cell) (place : Nat) : Prop := ∃ cell, cells[place]? = some cell ∧ cell.built.isSome = true

theorem filled_cons_zero {cell : Cell} {cells : List Cell} : Filled (cell :: cells) 0 ↔ cell.built.isSome = true := by
  constructor
  · rintro ⟨_, ⟨⟩, built⟩
    exact built
  · exact fun built => ⟨cell, rfl, built⟩

/-- Building fills cells that were empty, none of them twice, and empties none. -/
structure CellsFill (place : Nat) (cells : List Cell) (attempts : List Attempt) (after : List Cell) : Prop where
  stays : ∀ i, Filled cells i → Filled after i
  fills : ∀ part ∈ builtBy attempts, ∃ i, part = .module (place + i) ∧ ¬Filled cells i ∧ Filled after i
  once : (builtBy attempts).Nodup

theorem CellsFill.later {place : Nat} {first cell : Cell} {rest after : List Cell} {attempts : List Attempt}
    (later : CellsFill (place + 1) rest attempts after) (kept : first.built.isSome = true → cell.built.isSome = true) :
    CellsFill place (first :: rest) attempts (cell :: after) := by
  refine ⟨fun i filled => ?_, fun part member => ?_, later.once⟩
  · cases i with
    | zero => exact filled_cons_zero.mpr (kept (filled_cons_zero.mp filled))
    | succ i => exact later.stays i filled
  · obtain ⟨i, same, empty, filled⟩ := later.fills part member
    exact ⟨i + 1, by rw [same, Nat.add_right_comm, Nat.add_assoc], empty, filled⟩

theorem buildCells_fills (registry : Registry Module) (place : Nat) (cells : List Cell) (trail : Trail) :
    CellsFill place cells (buildAttempts registry place cells trail) ((buildCells registry cells).run trail).1.1 := by
  induction cells generalizing place trail with
  | nil => exact ⟨fun _ filled => filled, nofun, .nil⟩
  | cons cell rest ih =>
    rw [buildCells_run_cons, buildAttempts]
    cases kept : cell.built with
    | some module => exact (ih (place + 1) trail).later fun _ => rfl
    | none =>
      simp only
      obtain ⟨_ | module, after⟩ := (registry.create cell.entry.moduleId cell.entry.options).run trail
      -- A factory that fails ends the attempts, so the later cells stay as they are.
      · exact ⟨fun _ filled => filled, nofun, .nil⟩
      · have later := ih (place + 1) after
        have empty : ¬Filled (cell :: rest) 0 := fun filled => by
          rw [filled_cons_zero, kept] at filled
          cases filled
        have whole : CellsFill place (cell :: rest) (buildAttempts registry (place + 1) rest after)
            ({ cell with built := some module } :: ((buildCells registry rest).run after).1.1) :=
          later.later fun _ => rfl
        refine ⟨whole.stays, fun part member => ?_, List.nodup_cons.mpr ⟨fun member => ?_, later.once⟩⟩
        · rcases List.mem_cons.mp member with rfl | member
          · exact ⟨0, rfl, empty, filled_cons_zero.mpr rfl⟩
          · exact whole.fills part member
        · obtain ⟨i, same, _⟩ := later.fills _ member
          have impossible : place = place + 1 + i := Part.module.inj same
          omega

namespace Trail

/-- Only lines and audit events are added. -/
def Grows (t t' : Trail) : Prop :=
  ∃ lines events, t' = { t with lines := t.lines ++ lines, events := t.events ++ events }

theorem Grows.refl (t : Trail) : t.Grows t := ⟨[], [], by rw [List.append_nil, List.append_nil]⟩

theorem Grows.trans {t t' t'' : Trail} (first : t.Grows t') (second : t'.Grows t'') : t.Grows t'' := by
  obtain ⟨lines, events, rfl⟩ := first
  obtain ⟨lines', events', rfl⟩ := second
  exact ⟨lines ++ lines', events ++ events', by rw [← List.append_assoc, ← List.append_assoc]⟩

theorem grows_write (t : Trail) (lines : List String) : t.Grows (t.write lines) :=
  ⟨lines, [], by rw [List.append_nil]; rfl⟩

theorem grows_deliver (t : Trail) (sink : AuditSink) (event : AuditEvent) : t.Grows (t.deliver sink event) := by
  cases sink with
  | discard => exact .refl t
  | keep => exact ⟨[], [event], by rw [List.append_nil]; rfl⟩

end Trail

namespace Context

theorem asked_grows (c : Context) (lookup : AclLookup) (request : Request) (trail : Trail)
    (steps : List (ModuleEntry × Module)) : trail.Grows (c.asked lookup request trail steps) := by
  induction steps generalizing trail with
  | nil => exact .refl trail
  | cons step rest ih => exact ((trail.grows_write _).trans (Trail.grows_deliver _ _ _)).trans (ih _)

/-- After its modules have been built, a context leaves only lines and audit events. -/
theorem authorize_grows (c : Context) (lookup : AclLookup) (request : Request) (trail : Trail) :
    ((buildCells c.registry c.cells).run trail).2.Grows ((c.authorize lookup request).run trail).2 := by
  have judged (modules : Except Error (List Module)) (t : Trail) :
      t.Grows ((c.judge lookup request modules).run t).2 := by
    unfold judge
    cases modules with
    | error e => exact .refl t
    | ok modules =>
      cases c.settings.linkRoles request.resource with
      | error e => exact .refl t
      | ok resource =>
        simp only [Traced.run_bind, evaluate_run]
        exact c.asked_grows lookup { request with resource } t _
  rw [authorize_run]
  exact (judged _ _).trans (Trail.grows_deliver _ _ _)

theorem authorize_fills (c : Context) (lookup : AclLookup) (request : Request) (trail : Trail) :
    CellsFill 0 c.cells (buildAttempts c.registry 0 c.cells trail)
      ((c.authorize lookup request).run trail).1.2.cells := by
  rw [authorize_run]
  exact buildCells_fills c.registry 0 c.cells trail

end Context

namespace ManagerM

variable {α β : Type}

def Still (x : ManagerM α) : Prop := ∀ m trail, x.after m trail = m ∧ x.left m trail = trail

theorem still_ofResult (result : Except Error α) : Still (ofResult result) := fun _ _ => ⟨rfl, rfl⟩

theorem bind_still {x : ManagerM β} {f : β → ManagerM α} (still : ∀ b, (f b).Still) (m : Manager) (trail : Trail) :
    (x >>= f).after m trail = x.after m trail ∧ (x >>= f).left m trail = x.left m trail := by
  rw [after, left, bind_run]
  cases x.result m trail with
  | error e => exact ⟨rfl, rfl⟩
  | ok b => exact still b _ _

theorem Still.bind {x : ManagerM β} {f : β → ManagerM α} (first : x.Still) (still : ∀ b, (f b).Still) :
    (x >>= f).Still := fun m trail => by
  rw [(bind_still still m trail).1, (bind_still still m trail).2]
  exact first m trail

end ManagerM

namespace Manager

def Has (m : Manager) : Part → Prop
  | .module place => ∃ c, m.context = some c ∧ Filled c.cells place
  | .mapping => m.mapping.isSome = true
  | .trust => m.trust.isSome = true

/-- The attempts build parts that were missing, none of them twice, and no part is lost. -/
structure Fills (m : Manager) (attempts : List Attempt) (m' : Manager) : Prop where
  stays : ∀ part, m.Has part → m'.Has part
  fills : ∀ part ∈ builtBy attempts, ¬m.Has part ∧ m'.Has part
  once : (builtBy attempts).Nodup

theorem Fills.nothing {m m' : Manager} (stays : ∀ part, m.Has part → m'.Has part) : m.Fills [] m' :=
  ⟨stays, nofun, .nil⟩

theorem Fills.none (m : Manager) : m.Fills [] m := .nothing fun _ has => has

theorem Fills.append {m m' m'' : Manager} {attempts more : List Attempt} (first : m.Fills attempts m')
    (second : m'.Fills more m'') : m.Fills (attempts ++ more) m'' := by
  refine ⟨fun part has => second.stays part (first.stays part has), fun part member => ?_, ?_⟩
  · rw [builtBy_append, List.mem_append] at member
    rcases member with member | member
    · exact ⟨(first.fills part member).1, second.stays part (first.fills part member).2⟩
    · exact ⟨fun has => (second.fills part member).1 (first.stays part has), (second.fills part member).2⟩
  · rw [builtBy_append]
    refine first.once.append second.once fun part early late => ?_
    exact (second.fills part late).1 (first.fills part early).2

/-- Attempts to build a part of a manager for this domain, and says whether that succeeded. -/
def attempt (m : Manager) : Part → Traced Bool
  | .module place =>
    match m.config.authorization[place]? with
    | some e => do pure (← (m.providers.modules.create e.moduleId e.options).run).isOk
    | none => pure false
  | .mapping => do
    pure (← (Mapping.build m.config m.providers.roleMappers m.providers.principalMappers).run).isOk
  | .trust => do pure (← (TrustContext.build m.config.name m.config.trust m.providers.trustModules).run).isOk

/-- Making these attempts one after another leads from one trail to the other, and they end as noted. -/
inductive Makes (m : Manager) : Trail → List Attempt → Trail → Prop
  | done (trail : Trail) : Makes m trail [] trail
  | next {trail : Trail} {attempt : Attempt} {rest : List Attempt} {after : Trail} :
      attempt.succeeded = ((m.attempt attempt.part).run trail).1 →
      Makes m ((m.attempt attempt.part).run trail).2 rest after → Makes m trail (attempt :: rest) after

theorem Makes.append {m : Manager} {trail between after : Trail} {attempts more : List Attempt}
    (first : m.Makes trail attempts between) (second : m.Makes between more after) :
    m.Makes trail (attempts ++ more) after := by
  induction first with
  | done trail => exact second
  | next succeeded _ ih => exact .next succeeded (ih second)

theorem buildCells_makes (m : Manager) {place : Nat} {cells : List Cell}
    (entries : m.config.authorization.drop place = cells.map (·.entry)) (trail : Trail) :
    m.Makes trail (buildAttempts m.providers.modules place cells trail)
      ((buildCells m.providers.modules cells).run trail).2 := by
  induction cells generalizing place trail with
  | nil => exact .done trail
  | cons cell rest ih =>
    have here : m.config.authorization[place]? = some cell.entry := by
      have first := congrArg List.head? entries
      rwa [List.head?_drop] at first
    have later : m.config.authorization.drop (place + 1) = rest.map (·.entry) := by
      have tail := congrArg List.tail entries
      rwa [List.tail_drop] at tail
    rw [buildCells_run_cons, buildAttempts]
    cases cell.built with
    | some module => exact ih later trail
    | none =>
      have attempted : (m.attempt (.module place)).run trail =
          (((m.providers.modules.create cell.entry.moduleId cell.entry.options).run trail).1.isOk,
            ((m.providers.modules.create cell.entry.moduleId cell.entry.options).run trail).2) := by
        rw [attempt, here]
        rfl
      simp only
      generalize (m.providers.modules.create cell.entry.moduleId cell.entry.options).run trail = made at attempted ⊢
      obtain ⟨_ | module, after⟩ := made
      · refine .next (congrArg Prod.fst attempted).symm ?_
        rw [attempted]
        exact .done after
      · refine .next (congrArg Prod.fst attempted).symm ?_
        rw [attempted]
        exact ih later after

end Manager

end AccessControl
