import AccessControl.Proofs.Results
import AccessControl.Proofs.RoleLeaves

namespace AccessControl

namespace RoleMapper

/-- The names that a table gives for a role that is held. A replacing table keeps a name that it does not list. -/
def targets (table : SortedMap String (List String)) (replace : Bool) (held : String) : List String :=
  (table.get? held).getD (if replace then [held] else [])

theorem hasLeaf_grantByPrincipal {table : SortedMap String (List String)} {subject : Subject} {roles : RoleGroup}
    {name : String} :
    (grantByPrincipal table subject roles).HasLeaf name ↔
      roles.HasLeaf name ∨ ∃ p ∈ subject.principals, name ∈ (table.get? p.name).getD [] :=
  RoleGroup.hasLeaf_foldl_addNames _

theorem byTable_eq_foldl (table : SortedMap String (List String)) (replace : Bool) (roles : RoleGroup) :
    byTable table replace roles = roles.leafNames.keys.foldl (fun g held => g.addNames (targets table replace held))
      (if replace then .empty roles.name else roles) := by
  unfold byTable
  congr 1
  funext g held
  unfold targets
  cases table.get? held with
  | some names => rfl
  | none => cases replace <;> rfl

/-- A mapped role is a target of some role held, or a role held that is not to be replaced. Replacing drops a role only
where the table lists it. -/
theorem hasLeaf_byTable {table : SortedMap String (List String)} {replace : Bool} {roles : RoleGroup} {name : String} :
    (byTable table replace roles).HasLeaf name ↔
      (replace = false ∧ roles.HasLeaf name) ∨ ∃ held, roles.HasLeaf held ∧ name ∈ targets table replace held := by
  rw [byTable_eq_foldl, RoleGroup.hasLeaf_foldl_addNames]
  simp only [RoleGroup.mem_leafNames]
  cases replace with
  | false => simp only [Bool.false_eq_true, if_false, true_and]
  | true => simp only [if_true, RoleGroup.hasLeaf_empty, Bool.true_eq_false, false_and]

/-- The mappers that the library makes. -/
inductive Tabled : RoleMapper → Prop
  | byPrincipal (table : SortedMap String (List String)) :
      Tabled ⟨fun subject roles => .ok (grantByPrincipal table subject roles)⟩
  | byRole (table : SortedMap String (List String)) (replace : Bool) :
      Tabled ⟨fun _ roles => .ok (byTable table replace roles)⟩

theorem tabled_of_principalRoles {options : Options} {mapper : RoleMapper}
    (made : principalRoles options = .ok mapper) : mapper.Tabled := by
  obtain ⟨table, _, same⟩ := bind_eq_ok.mp made
  cases same
  exact .byPrincipal table

theorem tabled_of_roleMap {options : Options} {mapper : RoleMapper} (made : roleMap options = .ok mapper) :
    mapper.Tabled := by
  obtain ⟨table, _, made⟩ := bind_eq_ok.mp made
  obtain ⟨replace, _, same⟩ := bind_eq_ok.mp made
  cases same
  exact .byRole table (replace.getD false)

/-- A mapper that always succeeds and gives more roles for more roles. -/
def Widening (mapper : RoleMapper) : Prop :=
  ∀ (subject : Subject) (g h : RoleGroup), g.Within h →
    ∃ g' h', mapper.map subject g = .ok g' ∧ mapper.map subject h = .ok h' ∧ g'.Within h'

theorem Tabled.widening {mapper : RoleMapper} (tabled : mapper.Tabled) : mapper.Widening := by
  intro subject g h within
  cases tabled with
  | byPrincipal table =>
    refine ⟨_, _, rfl, rfl, fun name leaf => ?_⟩
    rw [hasLeaf_grantByPrincipal] at leaf ⊢
    exact leaf.imp_left (within name)
  | byRole table replace =>
    refine ⟨_, _, rfl, rfl, fun name leaf => ?_⟩
    rw [hasLeaf_byTable] at leaf ⊢
    rcases leaf with ⟨kept, leaf⟩ | ⟨held, leaf, target⟩
    · exact .inl ⟨kept, within name leaf⟩
    · exact .inr ⟨held, within held leaf, target⟩

end RoleMapper

/-- The mappers for callers that the library makes. -/
inductive PrincipalMapper.Tabled : PrincipalMapper → Prop
  | byName (table : SortedMap String String) :
      Tabled ⟨fun principal => .ok ((table.get? principal.name).map Principal.mk)⟩

theorem PrincipalMapper.tabled_of_principalMap {options : Options} {mapper : PrincipalMapper}
    (made : principalMap options = .ok mapper) : mapper.Tabled := by
  obtain ⟨table, _, same⟩ := bind_eq_ok.mp made
  cases same
  exact .byName table

/-- A mapper that never fails. -/
def PrincipalMapper.Total (mapper : PrincipalMapper) : Prop := ∀ p, ∃ q, mapper.map p = .ok q

theorem PrincipalMapper.Tabled.total {mapper : PrincipalMapper} (tabled : mapper.Tabled) : mapper.Total := by
  cases tabled with
  | byName table => exact fun p => ⟨_, rfl⟩

/-- A new caller stands in the first place. It is not among the others any more, who otherwise stay. -/
theorem Subject.replaceCaller_of_ne {s : Subject} {caller : Principal} (new : s.caller ≠ some caller) :
    s.replaceCaller caller = ⟨caller :: s.principals.tail.filter (· ≠ caller), s.credentials⟩ := by
  rw [replaceCaller, if_neg new]
  obtain ⟨principals, credentials⟩ := s
  cases principals with
  | nil => rfl
  | cons first rest =>
    have differs : first ≠ caller := fun same => new (congrArg some same)
    have kept : (first :: rest).filter (· ≠ caller) = first :: rest.filter (· ≠ caller) :=
      List.filter_cons_of_pos (decide_eq_true differs)
    simp only [kept, List.drop_one, List.tail_cons]

namespace Mapping

/-- A chain of widening mappers is widening. -/
theorem mapRoles_widening {m : Mapping} (each : ∀ mapper ∈ m.roleMappers, mapper.Widening) (subject : Subject)
    {g h : RoleGroup} (within : g.Within h) :
    ∃ g' h', m.mapRoles subject g = .ok g' ∧ m.mapRoles subject h = .ok h' ∧ g'.Within h' := by
  unfold mapRoles
  generalize m.roleMappers = mappers at each
  induction mappers generalizing g h with
  | nil => exact ⟨g, h, rfl, rfl, within⟩
  | cons mapper rest ih =>
    obtain ⟨first, later⟩ := List.forall_mem_cons.mp each
    obtain ⟨g₁, h₁, mapG, mapH, within₁⟩ := first subject g h within
    rw [List.foldlM_cons, List.foldlM_cons, mapG, mapH]
    exact ih within₁ later

theorem mapCaller_total {m : Mapping} (each : ∀ mapper ∈ m.principalMappers, mapper.Total) (caller : Principal) :
    ∃ mapped, m.mapCaller caller = .ok mapped := by
  unfold mapCaller
  generalize m.principalMappers = mappers at each
  induction mappers generalizing caller with
  | nil => exact ⟨caller, rfl⟩
  | cons mapper rest ih =>
    obtain ⟨first, later⟩ := List.forall_mem_cons.mp each
    obtain ⟨q, mapped⟩ := first caller
    rw [List.foldlM_cons, mapped]
    exact ih (q.getD caller) later

theorem mapSubject_total {m : Mapping} (each : ∀ mapper ∈ m.principalMappers, mapper.Total) (subject : Subject) :
    ∃ mapped, m.mapSubject subject = .ok mapped := by
  unfold mapSubject
  cases subject.caller with
  | none => exact ⟨subject, rfl⟩
  | some caller =>
    obtain ⟨mapped, run⟩ := mapCaller_total each caller
    simp only [run]
    exact ⟨_, rfl⟩

end Mapping

end AccessControl
