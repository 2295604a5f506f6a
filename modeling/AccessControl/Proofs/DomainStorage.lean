import AccessControl.Domain.Json
import AccessControl.Proofs.Records
import AccessControl.SortedMap.Lemmas

namespace AccessControl

theorem RecordStyle.fields?_obj (style : RecordStyle) (names : List String) (fields : Members) :
    style.fields? names (.obj fields) = some fields := rfl

theorem ControlFlag.ofJson?_toJson (flag : ControlFlag) : ofJson? flag.toJson = some flag := by
  cases flag <;> rfl

theorem Options.ofJson?_toJson (o : Options) : ofJson? o.toJson = some o := by
  simp [ofJson?, toJson, Json.members?]

theorem Options.isEmpty_iff {o : Options} : o.isEmpty = true ↔ o = .empty := by
  obtain ⟨values⟩ := o
  simp [isEmpty, empty, SortedMap.isEmpty_iff]

namespace ModuleEntry

/-- What is written for an entry: its identifier, its flag, and its options unless there are none. -/
theorem exists_fields (e : ModuleEntry) : ∃ fields : Members, e.toJson = .obj fields ∧
    fields.lookup "module" = some (.str e.moduleId) ∧ fields.lookup "flag" = some (.str e.flag.name) ∧
    fields.lookup "options" = if e.options.isEmpty then none else some e.options.toJson := by
  refine ⟨_, rfl, rfl, rfl, ?_⟩
  cases e.options.isEmpty <;> rfl

theorem read?_toJson (style : RecordStyle) (e : ModuleEntry) : read? style e.toJson = some e := by
  obtain ⟨fields, written, atModule, atFlag, atOptions⟩ := e.exists_fields
  have moduleId : fields.required "module" Json.text? = some e.moduleId := Members.required_of_lookup atModule
  have flag : fields.orElse "flag" .required ControlFlag.ofJson? = some e.flag := by
    rw [Members.orElse_of_lookup atFlag]
    exact e.flag.ofJson?_toJson
  have options : fields.orElse "options" .empty Options.ofJson? = some e.options :=
    Members.orElse_of_omitted atOptions Options.isEmpty_iff.mp e.options.ofJson?_toJson
  simp [read?, written, RecordStyle.fields?_obj, moduleId, flag, options]

end ModuleEntry

namespace MappingEntry

/-- What is written for an entry: its identifier, and its options unless there are none. -/
theorem exists_fields (e : MappingEntry) : ∃ fields : Members, e.toJson = .obj fields ∧
    fields.lookup "provider" = some (.str e.providerId) ∧
    fields.lookup "options" = if e.options.isEmpty then none else some e.options.toJson := by
  refine ⟨_, rfl, ?_, ?_⟩
  · cases e.options.isEmpty <;> rfl
  · cases e.options.isEmpty <;> rfl

theorem read?_toJson (style : RecordStyle) (e : MappingEntry) : read? style e.toJson = some e := by
  obtain ⟨fields, written, atProvider, atOptions⟩ := e.exists_fields
  have providerId : fields.required "provider" Json.text? = some e.providerId := Members.required_of_lookup atProvider
  have options : fields.orElse "options" .empty Options.ofJson? = some e.options :=
    Members.orElse_of_omitted atOptions Options.isEmpty_iff.mp e.options.ofJson?_toJson
  simp [read?, written, RecordStyle.fields?_obj, providerId, options]

end MappingEntry

namespace Settings

/-- What is written for the switches: both of them, and the declared roles in ascending order unless there are none. -/
theorem exists_fields (s : Settings) : ∃ fields : Members, s.toJson = .obj fields ∧
    fields.lookup "empty_chain_decision" = some s.emptyChainDecision.toJson ∧
    fields.lookup "enforce_role_ref_restriction" = some (.bool s.enforceRoleRefs) ∧
    fields.lookup "declared_roles" =
      if s.declaredRoles.isEmpty then none else some (Json.strs s.declaredRoles.keys) := by
  refine ⟨_, rfl, ?_, ?_, ?_⟩
  · cases s.declaredRoles.isEmpty <;> rfl
  · cases s.declaredRoles.isEmpty <;> rfl
  · cases s.declaredRoles.isEmpty <;> rfl

theorem read?_toJson (style : RecordStyle) (s : Settings) : read? style s.toJson = some s := by
  obtain ⟨fields, written, atDecision, atEnforce, atRoles⟩ := s.exists_fields
  have decision : fields.orElse "empty_chain_decision" .deny
      (fun d => (style.word? d).bind Decision.ofStoredName?) = some s.emptyChainDecision := by
    rw [Members.orElse_of_lookup atDecision]
    cases s.emptyChainDecision <;> rfl
  have enforce : fields.orElse "enforce_role_ref_restriction" false Json.flag? = some s.enforceRoleRefs :=
    Members.orElse_of_lookup atEnforce
  have roles : fields.orElse "declared_roles" [] (Json.list? Json.text?) = some s.declaredRoles.keys := by
    refine Members.orElse_of_omitted atRoles ?_ (Json.list?_map fun _ _ => rfl)
    intro none
    rw [SortedMap.isEmpty_iff.mp none]
    rfl
  simp [read?, written, RecordStyle.fields?_obj, decision, enforce, roles]

end Settings

namespace DomainConfig

/-- What is written for a domain: its name, its four chains and its switches. -/
theorem exists_fields (d : DomainConfig) : ∃ fields : Members, d.toJson = .obj fields ∧
    fields.lookup "name" = some (.str d.name) ∧
    fields.lookup "authorization" = some (.arr (d.authorization.map ModuleEntry.toJson)) ∧
    fields.lookup "role_mapping" = some (.arr (d.roleMapping.map MappingEntry.toJson)) ∧
    fields.lookup "principal_mapping" = some (.arr (d.principalMapping.map MappingEntry.toJson)) ∧
    fields.lookup "trust" = some (.arr (d.trust.map ModuleEntry.toJson)) ∧
    fields.lookup "settings" = some d.settings.toJson :=
  ⟨_, rfl, rfl, rfl, rfl, rfl, rfl, rfl⟩

/-- What is written for a domain is read as that domain, whichever style the records are read in. -/
theorem read?_toJson (style : RecordStyle) (d : DomainConfig) : read? style d.toJson = some d := by
  obtain ⟨fields, written, atName, atAuthorization, atRoles, atPrincipals, atTrust, atSettings⟩ := d.exists_fields
  have modules {name : String} {entries : List ModuleEntry}
      (found : fields.lookup name = some (.arr (entries.map ModuleEntry.toJson))) :
      fields.orElse name [] (Json.list? (ModuleEntry.read? style)) = some entries := by
    rw [Members.orElse_of_lookup found]
    exact Json.list?_map fun e _ => e.read?_toJson style
  have providers {name : String} {entries : List MappingEntry}
      (found : fields.lookup name = some (.arr (entries.map MappingEntry.toJson))) :
      fields.orElse name [] (Json.list? (MappingEntry.read? style)) = some entries := by
    rw [Members.orElse_of_lookup found]
    exact Json.list?_map fun e _ => e.read?_toJson style
  have name : fields.required "name" Json.text? = some d.name := Members.required_of_lookup atName
  have settings : fields.orElse "settings" .standard (Settings.read? style) = some d.settings := by
    rw [Members.orElse_of_lookup atSettings]
    exact d.settings.read?_toJson style
  simp [read?, written, RecordStyle.fields?_obj, name, modules atAuthorization, providers atRoles,
    providers atPrincipals, modules atTrust, settings]

end DomainConfig

end AccessControl
