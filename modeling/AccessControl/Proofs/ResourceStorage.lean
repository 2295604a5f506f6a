import AccessControl.Proofs.PermissionStorage
import AccessControl.Proofs.RoleStorage
import AccessControl.Resource.Json

namespace AccessControl

theorem ResourceKind.ofJson?_toJson (kind : ResourceKind) : ofJson? kind.toJson = some kind := by
  cases kind <;> rfl

namespace ResourceId

theorem exists_fields (id : ResourceId) : ∃ fields : Members, id.toJson = .obj fields ∧
    fields.lookup "kind" = some id.kind.toJson ∧ fields.lookup "key" = some (.str id.key) :=
  ⟨_, rfl, rfl, rfl⟩

theorem ofJson?_toJson (id : ResourceId) : ofJson? id.toJson = some id := by
  obtain ⟨fields, written, atKind, atKey⟩ := id.exists_fields
  have kind : fields.required "kind" ResourceKind.ofJson? = some id.kind := by
    rw [Members.required_of_lookup atKind, ResourceKind.ofJson?_toJson]
  have key : fields.required "key" Json.text? = some id.key := Members.required_of_lookup atKey
  simp [ofJson?, written, Json.fields?, kind, key]

end ResourceId

theorem TransportGuarantee.ofJson?_toJson (guarantee : TransportGuarantee) :
    ofJson? guarantee.toJson = some guarantee := by
  cases guarantee <;> rfl

namespace RoleRef

/-- What is written for a reference: its name and its link, and its description if it has one. -/
theorem exists_fields (r : RoleRef) : ∃ fields : Members, r.toJson = .obj fields ∧
    fields.lookup "name" = some (.str r.name) ∧ fields.lookup "link" = some (.str r.link) ∧
    fields.lookup "description" = r.description.map .str := by
  obtain ⟨name, link, description⟩ := r
  refine ⟨_, rfl, ?_⟩
  cases description <;> exact ⟨rfl, rfl, rfl⟩

theorem ofJson?_toJson (r : RoleRef) : ofJson? r.toJson = some r := by
  obtain ⟨fields, written, atName, atLink, atDescription⟩ := r.exists_fields
  have name : fields.required "name" Json.text? = some r.name := Members.required_of_lookup atName
  have link : fields.required "link" Json.text? = some r.link := Members.required_of_lookup atLink
  have description : fields.optional "description" Json.text? = some r.description :=
    Members.optional_of_omitted atDescription rfl fun _ => rfl
  simp [ofJson?, written, Json.fields?, name, link, description]

end RoleRef

namespace RoleCheck

/-- What is written for a role check: the name that is asked for, and the linked role if there is one. -/
theorem exists_fields (c : RoleCheck) : ∃ fields : Members, c.toJson = .obj fields ∧
    fields.lookup "role_name" = some (.str c.roleName) ∧
    fields.lookup "linked_role" = c.linkedRole.map .str := by
  obtain ⟨roleName, linkedRole⟩ := c
  refine ⟨_, rfl, ?_⟩
  cases linkedRole <;> exact ⟨rfl, rfl⟩

theorem ofJson?_toJson (c : RoleCheck) : ofJson? c.toJson = some c := by
  obtain ⟨fields, written, atName, atLinked⟩ := c.exists_fields
  have roleName : fields.required "role_name" Json.text? = some c.roleName := Members.required_of_lookup atName
  have linkedRole : fields.optional "linked_role" Json.text? = some c.linkedRole :=
    Members.optional_of_omitted atLinked rfl fun _ => rfl
  simp [ofJson?, written, Json.fields?, roleName, linkedRole]

end RoleCheck

namespace Members

section Requests

variable {fields : Members} {name : String}

/-- A role check is stored in the same way in every request: `null` stands for none. -/
theorem optional_roleCheck {check : Option RoleCheck}
    (found : fields.lookup name = some (.ofOption RoleCheck.toJson check)) :
    fields.optional name RoleCheck.ofJson? = some check :=
  optional_of_lookup found rfl RoleCheck.ofJson?_toJson

theorem required_roleRefs {refs : List RoleRef} (found : fields.lookup name = some (.arr (refs.map RoleRef.toJson))) :
    fields.required name (Json.list? RoleRef.ofJson?) = some refs := by
  rw [required_of_lookup found]
  exact Json.list?_map fun r _ => r.ofJson?_toJson

theorem required_roles {g : RoleGroup} (built : Role.Built g) (found : fields.lookup name = some g.toJson) :
    fields.required name RoleGroup.ofJson? = some g := by
  rw [required_of_lookup found, RoleGroup.ofJson?_toJson built.irredundant]

theorem built_of_required {g : RoleGroup} (read : fields.required name RoleGroup.ofJson? = some g) : Role.Built g := by
  obtain ⟨body, _, made⟩ := Option.bind_eq_some_iff.mp read
  exact .read (Role.ofJson?_eq_some.mpr (.inr ⟨body, g, rfl, made, rfl⟩))

end Requests

end Members

namespace BeanCall

/-- What is written for a call: every field, with `null` for what is missing. -/
theorem exists_fields (c : BeanCall) : ∃ fields : Members, c.toJson = .obj fields ∧
    fields.lookup "bean_name" = some (.str c.beanName) ∧
    fields.lookup "method_name" = some (.ofOption .str c.methodName) ∧
    fields.lookup "method_interface" = some (.ofOption .str c.methodInterface) ∧
    fields.lookup "method_roles" = some c.methodRoles.toJson ∧
    fields.lookup "unchecked" = some (.bool c.unchecked) ∧ fields.lookup "excluded" = some (.bool c.excluded) ∧
    fields.lookup "role_ref" = some (.ofOption RoleCheck.toJson c.roleCheck) ∧
    fields.lookup "security_role_refs" = some (.arr (c.roleRefs.map RoleRef.toJson)) :=
  ⟨_, rfl, rfl, rfl, rfl, rfl, rfl, rfl, rfl, rfl⟩

theorem ofJson?_toJson {c : BeanCall} (built : Role.Built c.methodRoles) : ofJson? c.toJson = some c := by
  obtain ⟨fields, written, atBean, atMethod, atInterface, atRoles, atUnchecked, atExcluded, atCheck, atRefs⟩ :=
    c.exists_fields
  have beanName : fields.required "bean_name" Json.text? = some c.beanName := Members.required_of_lookup atBean
  have methodName : fields.optional "method_name" Json.text? = some c.methodName :=
    Members.optional_of_lookup atMethod rfl fun _ => rfl
  have methodInterface : fields.optional "method_interface" Json.text? = some c.methodInterface :=
    Members.optional_of_lookup atInterface rfl fun _ => rfl
  have methodRoles := Members.required_roles built atRoles
  have unchecked : fields.required "unchecked" Json.flag? = some c.unchecked := Members.required_of_lookup atUnchecked
  have excluded : fields.required "excluded" Json.flag? = some c.excluded := Members.required_of_lookup atExcluded
  have roleCheck := Members.optional_roleCheck atCheck
  have roleRefs := Members.required_roleRefs atRefs
  simp [ofJson?, written, Json.fields?, beanName, methodName, methodInterface, methodRoles, unchecked, excluded,
    roleCheck, roleRefs]

theorem built_of_ofJson? {j : Json} {c : BeanCall} (read : ofJson? j = some c) : Role.Built c.methodRoles := by
  simp only [ofJson?, Option.bind_eq_bind, Option.bind_eq_some_iff, Option.pure_def, Option.some.injEq] at read
  obtain ⟨fields, _, _, _, _, _, _, _, g, roles, _, _, _, _, _, _, _, _, rfl⟩ := read
  exact Members.built_of_required roles

end BeanCall

namespace WebRequest

/-- What is written for a request: every field, with `null` for a missing role check. -/
theorem exists_fields (r : WebRequest) : ∃ fields : Members, r.toJson = .obj fields ∧
    fields.lookup "uri" = some (.str r.uri) ∧ fields.lookup "http_method" = some (.str r.httpMethod) ∧
    fields.lookup "required_roles" = some r.requiredRoles.toJson ∧
    fields.lookup "unchecked" = some (.bool r.unchecked) ∧ fields.lookup "excluded" = some (.bool r.excluded) ∧
    fields.lookup "transport_guarantee" = some r.transportGuarantee.toJson ∧
    fields.lookup "secure" = some (.bool r.secure) ∧
    fields.lookup "role_ref" = some (.ofOption RoleCheck.toJson r.roleCheck) ∧
    fields.lookup "security_role_refs" = some (.arr (r.roleRefs.map RoleRef.toJson)) :=
  ⟨_, rfl, rfl, rfl, rfl, rfl, rfl, rfl, rfl, rfl, rfl⟩

theorem ofJson?_toJson {r : WebRequest} (built : Role.Built r.requiredRoles) : ofJson? r.toJson = some r := by
  obtain ⟨fields, written, atUri, atMethod, atRoles, atUnchecked, atExcluded, atGuarantee, atSecure, atCheck, atRefs⟩ :=
    r.exists_fields
  have uri : fields.required "uri" Json.text? = some r.uri := Members.required_of_lookup atUri
  have httpMethod : fields.required "http_method" Json.text? = some r.httpMethod :=
    Members.required_of_lookup atMethod
  have requiredRoles := Members.required_roles built atRoles
  have unchecked : fields.required "unchecked" Json.flag? = some r.unchecked := Members.required_of_lookup atUnchecked
  have excluded : fields.required "excluded" Json.flag? = some r.excluded := Members.required_of_lookup atExcluded
  have guarantee : fields.required "transport_guarantee" TransportGuarantee.ofJson? = some r.transportGuarantee := by
    rw [Members.required_of_lookup atGuarantee, TransportGuarantee.ofJson?_toJson]
  have secure : fields.required "secure" Json.flag? = some r.secure := Members.required_of_lookup atSecure
  have roleCheck := Members.optional_roleCheck atCheck
  have roleRefs := Members.required_roleRefs atRefs
  simp [ofJson?, written, Json.fields?, uri, httpMethod, requiredRoles, unchecked, excluded, guarantee, secure,
    roleCheck, roleRefs]

theorem built_of_ofJson? {j : Json} {r : WebRequest} (read : ofJson? j = some r) : Role.Built r.requiredRoles := by
  simp only [ofJson?, Option.bind_eq_bind, Option.bind_eq_some_iff, Option.pure_def, Option.some.injEq] at read
  obtain ⟨fields, _, _, _, _, _, g, roles, _, _, _, _, _, _, _, _, _, _, _, _, rfl⟩ := read
  exact Members.built_of_required roles

end WebRequest

namespace Detail

/-- The role group of a request, where its layer has one. -/
def roles? : Detail → Option RoleGroup
  | ejb call => some call.methodRoles
  | web request => some request.requiredRoles
  | generic | acl _ => none

/-- The role group of a request, if there is one, was made by the operations on roles. -/
def Built (d : Detail) : Prop := ∀ g, d.roles? = some g → Role.Built g

theorem ofJson?_toJson {d : Detail} (built : d.Built) : ofJson? d.toJson = some d := by
  cases d with
  | generic => rfl
  | ejb call =>
    have content := BeanCall.ofJson?_toJson (built call.methodRoles rfl)
    change (BeanCall.ofJson? call.toJson).map ejb = some (ejb call)
    rw [content, Option.map_some]
  | web request =>
    have content := WebRequest.ofJson?_toJson (built request.requiredRoles rfl)
    change (WebRequest.ofJson? request.toJson).map web = some (web request)
    rw [content, Option.map_some]
  | acl permission =>
    have content := permission.ofJson?_toJson
    change (Permission.ofJson? permission.toJson).bind (fun p => some (acl p)) = some (acl permission)
    rw [content, Option.bind_some]

theorem built_of_ofJson? {j : Json} {d : Detail} (read : ofJson? j = some d) : d.Built := by
  intro g roles
  unfold ofJson? at read
  split at read
  · cases read
    cases roles
  · split at read
    · obtain ⟨call, made, rfl⟩ := Option.map_eq_some_iff.mp read
      cases roles
      exact BeanCall.built_of_ofJson? made
    · obtain ⟨request, made, rfl⟩ := Option.map_eq_some_iff.mp read
      cases roles
      exact WebRequest.built_of_ofJson? made
    · simp only [Option.bind_eq_bind, Option.bind_eq_some_iff, Option.pure_def, Option.some.injEq] at read
      obtain ⟨_, _, _, _, rfl⟩ := read
      cases roles
    · cases read

end Detail

namespace Resource

/-- What is written for a resource: its identity, its detail and its attributes, even where they are the defaults. -/
theorem exists_fields (r : Resource) : ∃ fields : Members, r.toJson = .obj fields ∧
    fields.lookup "id" = some r.id.toJson ∧ fields.lookup "detail" = some r.detail.toJson ∧
    fields.lookup "attributes" = some (Json.ofTexts r.attributes) :=
  ⟨_, rfl, rfl, rfl, rfl⟩

theorem ofJson?_toJson {r : Resource} (built : r.detail.Built) : ofJson? r.toJson = some r := by
  obtain ⟨fields, written, atId, atDetail, atAttributes⟩ := r.exists_fields
  have id : fields.required "id" ResourceId.ofJson? = some r.id := by
    rw [Members.required_of_lookup atId, ResourceId.ofJson?_toJson]
  have detail : fields.orElse "detail" .generic Detail.ofJson? = some r.detail := by
    rw [Members.orElse_of_lookup atDetail, Detail.ofJson?_toJson built]
  have attributes : fields.orElse "attributes" .empty Json.texts? = some r.attributes := by
    rw [Members.orElse_of_lookup atAttributes, Json.texts?_ofTexts]
  simp [ofJson?, written, Json.fields?, id, detail, attributes]

theorem built_of_ofJson? {j : Json} {r : Resource} (read : ofJson? j = some r) : r.detail.Built := by
  simp only [ofJson?, Option.bind_eq_bind, Option.bind_eq_some_iff, Option.pure_def, Option.some.injEq,
    Members.orElse_eq_some] at read
  obtain ⟨fields, _, _, _, detail, atDetail, _, _, rfl⟩ := read
  rcases atDetail with ⟨_, rfl⟩ | ⟨_, _, made⟩
  · exact nofun
  · exact Detail.built_of_ofJson? made

/-- A resource whose roles were made by the operations on roles comes back from its encoding as it was: with the same
identity, the same detail in every field and the same attributes, and not only as an equal resource. What is read from
any JSON value is such a resource. -/
theorem storage_restores_detail :
    (∀ r : Resource, r.detail.Built → ofJson? r.toJson = some r) ∧
    (∀ (v : Json) (r : Resource), ofJson? v = some r → r.detail.Built ∧ ofJson? r.toJson = some r) := by
  refine ⟨fun r built => ofJson?_toJson built, fun v r read => ?_⟩
  have built := built_of_ofJson? read
  exact ⟨built, ofJson?_toJson built⟩

/-- A call with a nested group of roles, a linked role and references with and without a description, and a request for
permissions of which two have no name. -/
theorem storage_restores_detail_nested :
    let inner : RoleGroup := ⟨"Clerks", [.named "clerk", .simple ⟨"clerk", some "staff"⟩]⟩
    let g : RoleGroup := ⟨"MethodRoles", [inner, .named "clerk"]⟩
    let call : BeanCall := ⟨"Account", some "debit", none, g, false, true, some ⟨"teller", some "clerk"⟩,
      [⟨"teller", "clerk", none⟩, ⟨"teller", "boss", some "never reached"⟩]⟩
    let r : Resource := ⟨⟨.custom "ejb", "Account"⟩, .ejb call, .ofList [("zone", "eu"), ("area", "")]⟩
    let p : Permission := ⟨0b10100101⟩
    let q := ofAclRequest ⟨.acl, "folder"⟩ p
    r.detail.Built ∧ ofJson? r.toJson = some r ∧ p.storedText = "READ | CREATE | 0xa0" ∧ q.detail.Built ∧
      ofJson? q.toJson = some q := by
  intro inner g call r p q
  obtain ⟨restored, _⟩ := storage_restores_detail
  have members : ∀ m ∈ inner.members, Role.Built m := by
    intro m member
    rcases List.mem_pair.mp member with rfl | rfl
    · exact .simple _
    · exact .simple _
  have outer : ∀ m ∈ g.members, Role.Built m := by
    intro m member
    rcases List.mem_pair.mp member with rfl | rfl
    · exact .withRoles "Clerks" members
    · exact .simple _
  have built : r.detail.Built := by
    rintro _ ⟨⟩
    exact .withRoles "MethodRoles" outer
  have roleless : q.detail.Built := nofun
  exact ⟨built, restored r built, by decide, roleless, restored q roleless⟩

end Resource

end AccessControl
