import AccessControl.Proofs.DomainStorage
import AccessControl.Proofs.TextWords

namespace AccessControl

/-- The field under a name. One that is left out counts as if its default were written. -/
def Members.written (fields : Members) (name : String) (default : Json) : Json := (fields.lookup name).getD default

theorem Members.orElse_eq_written {α : Type} (fields : Members) (name : String) {default : α}
    {decode : Json → Option α} {j : Json} (read : decode j = some default) :
    fields.orElse name default decode = decode (fields.written name j) := by
  unfold orElse written
  cases fields.lookup name with
  | none => exact read.symm
  | some found => rfl

/-- A list that is left out is read like an empty one. -/
theorem Members.orElse_list? {α : Type} (fields : Members) (name : String) (decode : Json → Option α) :
    fields.orElse name [] (Json.list? decode) = Json.list? decode (fields.written name (.arr [])) :=
  fields.orElse_eq_written name rfl

/-- Options that are left out are read like empty ones. -/
theorem Options.orElse_eq_written (fields : Members) (name : String) :
    fields.orElse name .empty ofJson? = ofJson? (fields.written name (toJson .empty)) :=
  fields.orElse_eq_written name (ofJson?_toJson .empty)

/-- The values are the same, or they are lists whose items are alike one by one. -/
inductive Json.EachAlike (alike : Json → Json → Prop) : Json → Json → Prop
  | same (j : Json) : EachAlike alike j j
  | items {items items' : List Json} : List.Forall₂ alike items items' → EachAlike alike (.arr items) (.arr items')

theorem Json.EachAlike.list?_eq {α : Type} {alike : Json → Json → Prop} {decode : Json → Option α}
    (read : ∀ j j', alike j j' → decode j = decode j') {j j' : Json} (each : EachAlike alike j j') :
    list? decode j = list? decode j' := by
  cases each with
  | same => rfl
  | items pairs => exact mapM_of_alike read pairs

/-- The values are the same, or they are texts that differ in the case of ASCII letters and the blanks around them. -/
inductive ControlFlag.Respelled : Json → Json → Prop
  | same (j : Json) : Respelled j j
  | word {s t : String} : SameWord s t → Respelled (.str s) (.str t)

theorem ControlFlag.ofJson?_str (s : String) : ofJson? (.str s) = all.find? (·.name == upperAscii (trim s)) := by
  simp only [ofJson?, Json.text?, Option.bind_some, ofText]
  generalize all.find? (·.name == upperAscii (trim s)) = hit
  cases hit <;> rfl

theorem ControlFlag.Respelled.ofJson?_eq {j j' : Json} (respelled : Respelled j j') : ofJson? j = ofJson? j' := by
  cases respelled with
  | same => rfl
  | word same => rw [ofJson?_str, ofJson?_str, same.upperAscii_trim_eq]

/-- Two ways of writing an entry of a module chain. -/
inductive ModuleEntry.Respelled : Json → Json → Prop
  | same (j : Json) : Respelled j j
  | record {fields fields' : Members} : fields.lookup "module" = fields'.lookup "module" →
      ControlFlag.Respelled (fields.written "flag" (ControlFlag.toJson .required))
        (fields'.written "flag" (ControlFlag.toJson .required)) →
      fields.written "options" (Options.toJson .empty) = fields'.written "options" (Options.toJson .empty) →
      Respelled (.obj fields) (.obj fields')

/-- Two ways of writing an entry of a mapping chain. -/
inductive MappingEntry.Respelled : Json → Json → Prop
  | same (j : Json) : Respelled j j
  | record {fields fields' : Members} : fields.lookup "provider" = fields'.lookup "provider" →
      fields.written "options" (Options.toJson .empty) = fields'.written "options" (Options.toJson .empty) →
      Respelled (.obj fields) (.obj fields')

/-- Two ways of writing the switches of a domain. -/
inductive Settings.Respelled : Json → Json → Prop
  | same (j : Json) : Respelled j j
  | record {fields fields' : Members} :
      fields.written "empty_chain_decision" (Decision.toJson .deny) =
        fields'.written "empty_chain_decision" (Decision.toJson .deny) →
      fields.written "enforce_role_ref_restriction" (.bool false) =
        fields'.written "enforce_role_ref_restriction" (.bool false) →
      fields.written "declared_roles" (.arr []) = fields'.written "declared_roles" (.arr []) →
      Respelled (.obj fields) (.obj fields')

/-- Two ways of writing a domain, which may differ in each of its parts. -/
inductive DomainConfig.Respelled : Json → Json → Prop
  | same (j : Json) : Respelled j j
  | record {fields fields' : Members} : fields.lookup "name" = fields'.lookup "name" →
      Json.EachAlike ModuleEntry.Respelled (fields.written "authorization" (.arr []))
        (fields'.written "authorization" (.arr [])) →
      Json.EachAlike MappingEntry.Respelled (fields.written "role_mapping" (.arr []))
        (fields'.written "role_mapping" (.arr [])) →
      Json.EachAlike MappingEntry.Respelled (fields.written "principal_mapping" (.arr []))
        (fields'.written "principal_mapping" (.arr [])) →
      Json.EachAlike ModuleEntry.Respelled (fields.written "trust" (.arr [])) (fields'.written "trust" (.arr [])) →
      Settings.Respelled (fields.written "settings" (Settings.toJson .standard))
        (fields'.written "settings" (Settings.toJson .standard)) →
      Respelled (.obj fields) (.obj fields')

theorem ModuleEntry.Respelled.ofJson?_eq {j j' : Json} (respelled : Respelled j j') : ofJson? j = ofJson? j' := by
  cases respelled with
  | same => rfl
  | @record fields fields' moduleId flag options =>
    have flags (fields : Members) : fields.orElse "flag" .required ControlFlag.ofJson? =
        ControlFlag.ofJson? (fields.written "flag" (ControlFlag.toJson .required)) :=
      fields.orElse_eq_written "flag" (ControlFlag.ofJson?_toJson _)
    simp only [ofJson?, read?, RecordStyle.fields?_obj, Option.bind_eq_bind, Option.bind_some, Members.required,
      moduleId, flags, flag.ofJson?_eq, Options.orElse_eq_written, options]

theorem MappingEntry.Respelled.read?_eq {j j' : Json} (respelled : Respelled j j') :
    read? .json j = read? .json j' := by
  cases respelled with
  | same => rfl
  | @record fields fields' providerId options =>
    simp only [read?, RecordStyle.fields?_obj, Option.bind_eq_bind, Option.bind_some, Members.required, providerId,
      Options.orElse_eq_written, options]

theorem Settings.Respelled.ofJson?_eq {j j' : Json} (respelled : Respelled j j') : ofJson? j = ofJson? j' := by
  cases respelled with
  | same => rfl
  | @record fields fields' decision enforce roles =>
    have decisions (fields : Members) :
        fields.orElse "empty_chain_decision" .deny (fun d => (RecordStyle.json.word? d).bind Decision.ofStoredName?) =
          (RecordStyle.json.word? (fields.written "empty_chain_decision" (Decision.toJson .deny))).bind
            Decision.ofStoredName? :=
      fields.orElse_eq_written "empty_chain_decision" rfl
    have switches (fields : Members) : fields.orElse "enforce_role_ref_restriction" false Json.flag? =
        Json.flag? (fields.written "enforce_role_ref_restriction" (.bool false)) :=
      fields.orElse_eq_written "enforce_role_ref_restriction" rfl
    simp only [ofJson?, read?, RecordStyle.fields?_obj, Option.bind_eq_bind, Option.bind_some, decisions, decision,
      switches, enforce, Members.orElse_list?, roles]

/-- A domain may be written in either way. -/
theorem DomainConfig.Respelled.ofJson?_eq {j j' : Json} (respelled : Respelled j j') : ofJson? j = ofJson? j' := by
  cases respelled with
  | same => rfl
  | @record fields fields' name authorization roleMapping principalMapping trust settings =>
    have switches (fields : Members) : fields.orElse "settings" .standard (Settings.read? .json) =
        Settings.read? .json (fields.written "settings" (Settings.toJson .standard)) :=
      fields.orElse_eq_written "settings" (Settings.read?_toJson .json .standard)
    have entries {j j' : Json} (each : Json.EachAlike ModuleEntry.Respelled j j') :
        Json.list? (ModuleEntry.read? .json) j = Json.list? (ModuleEntry.read? .json) j' :=
      each.list?_eq fun _ _ respelled => respelled.ofJson?_eq
    have mappings {j j' : Json} (each : Json.EachAlike MappingEntry.Respelled j j') :
        Json.list? (MappingEntry.read? .json) j = Json.list? (MappingEntry.read? .json) j' :=
      each.list?_eq fun _ _ respelled => respelled.read?_eq
    have settingsEq := settings.ofJson?_eq
    simp only [Settings.ofJson?] at settingsEq
    simp only [ofJson?, read?, RecordStyle.fields?_obj, Option.bind_eq_bind, Option.bind_some, Members.required, name,
      Members.orElse_list?, switches, entries authorization, mappings roleMapping, mappings principalMapping,
      entries trust, settingsEq]

/-- A domain is stored without loss, although what is empty is left out: its encoding is read as the domain, and so is
every other way of writing it. Flags are written in capitals and declared roles in ascending order. -/
theorem DomainConfig.restored_from_json :
    (∀ d : DomainConfig, ofJson? d.toJson = some d) ∧
    (∀ e : ModuleEntry, e.toJson.member? "flag" = some (.str e.flag.name) ∧ upperAscii e.flag.name = e.flag.name ∧
      e.toJson.member? "options" = if e.options.isEmpty then none else some e.options.toJson) ∧
    (∀ e : MappingEntry,
      e.toJson.member? "options" = if e.options.isEmpty then none else some e.options.toJson) ∧
    (∀ s : Settings, s.declaredRoles.keys.Pairwise (· < ·) ∧ s.toJson.member? "declared_roles" =
      if s.declaredRoles.isEmpty then none else some (Json.strs s.declaredRoles.keys)) ∧
    (∀ (j : Json) (d : DomainConfig), ofJson? j = some d → (ofJson? d.toJson).map toJson = some d.toJson) ∧
    (∀ j j' : Json, ModuleEntry.Respelled j j' → ModuleEntry.ofJson? j = ModuleEntry.ofJson? j') ∧
    (∀ j j' : Json, Respelled j j' → ofJson? j = ofJson? j') := by
  refine ⟨read?_toJson .json, fun e => ?_, fun e => ?_, fun s => ?_, fun j d _ => ?_, fun j j' => ?_, fun j j' => ?_⟩
  · obtain ⟨fields, written, _, atFlag, atOptions⟩ := e.exists_fields
    rw [written]
    refine ⟨atFlag, ?_, atOptions⟩
    cases e.flag <;> decide
  · obtain ⟨fields, written, _, atOptions⟩ := e.exists_fields
    rw [written]
    exact atOptions
  · obtain ⟨fields, written, _, _, atRoles⟩ := s.exists_fields
    rw [written]
    have ascending : s.declaredRoles.keys.Pairwise (· < ·) :=
      List.pairwise_map.mpr (s.declaredRoles.ascending.imp compareOfLessAndEq_eq_lt.mp)
    exact ⟨ascending, atRoles⟩
  · rw [ofJson?, read?_toJson .json d]
    rfl
  · exact ModuleEntry.Respelled.ofJson?_eq
  · exact DomainConfig.Respelled.ofJson?_eq

/-- An entry without a flag and one whose flag is small and padded are read like their full forms, and settings that
are left out like those that are written. -/
theorem DomainConfig.restored_from_json_respelled :
    let brief := Json.obj [("module", .str "ejb")]
    let full := Json.obj [("flag", .str "REQUIRED"), ("module", .str "ejb"), ("options", .obj [])]
    let padded := Json.obj [("flag", .str " Sufficient\n"), ("module", .str "acl")]
    let plain := Json.obj [("flag", .str "SUFFICIENT"), ("module", .str "acl")]
    let j := Json.obj [("authorization", .arr [brief, padded]), ("name", .str "payroll")]
    let j' := Json.obj [("authorization", .arr [full, plain]), ("name", .str "payroll"),
      ("settings", .obj [("empty_chain_decision", .str "deny")]), ("trust", .arr [])]
    let d : DomainConfig := ⟨"payroll", [.plain "ejb" .required, .plain "acl" .sufficient], [], [], [], .standard⟩
    ModuleEntry.Respelled padded plain ∧ ModuleEntry.ofJson? padded = ModuleEntry.ofJson? plain ∧
      Respelled j j' ∧ ofJson? j' = some d ∧ ofJson? j = some d ∧
      (ofJson? d.toJson).map toJson = some d.toJson := by
  intro brief full padded plain j j' d
  obtain ⟨_, _, _, _, fixpoint, entries, domains⟩ := restored_from_json
  have blanks : ∀ c ∈ [' ', '\n'], isBlank c = true := List.all_eq_true.mp rfl
  have word : SameWord " Sufficient\n" "SUFFICIENT" :=
    ⟨[' '], "Sufficient".toList, ['\n'], [], "SUFFICIENT".toList, [], rfl, rfl, blanks, by decide⟩
  have first : ModuleEntry.Respelled brief full := .record rfl (.same _) rfl
  have second : ModuleEntry.Respelled padded plain := .record rfl (.word word) rfl
  have respelled : Respelled j j' :=
    .record rfl (.items (.cons first (.cons second .nil))) (.same _) (.same _) (.same _) (.record rfl rfl rfl)
  have read' : ofJson? j' = some d := by rfl
  have read : ofJson? j = some d := (domains j j' respelled).trans read'
  exact ⟨second, entries padded plain second, respelled, read', read, fixpoint j d read⟩

end AccessControl
