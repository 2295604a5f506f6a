import AccessControl.Acl
import AccessControl.Proofs.Traversals
import Mathlib.Data.List.Nodup

namespace AccessControl

/-- How an error names an identity. A user and a role of one name are told apart. -/
def AclIdentity.wording : AclIdentity → String
  | user name => "user:" ++ name
  | role name => "role:" ++ name

theorem AclIdentity.text_eq_wording (identity : AclIdentity) : identity.text = identity.wording := by
  cases identity <;> simp [text, kindWord, name, wording]

namespace Acl

/-- No two entries are for one identity. -/
def Distinct (acl : Acl) : Prop := (acl.entries.map (·.identity)).Nodup

instance (acl : Acl) : Decidable acl.Distinct := inferInstanceAs (Decidable (List.Nodup _))

/-- The entry is the first of a list that stands behind another entry for its identity. -/
def FirstRepeated (entries : List AclEntry) (e : AclEntry) : Prop :=
  ∃ before after, entries = before ++ e :: after ∧ (before.map (·.identity)).Nodup ∧
    e.identity ∈ before.map (·.identity)

/-- The error about a second entry for one identity. -/
def repetition (resource : ResourceId) (e : AclEntry) : Error :=
  .invalid s!"ACL for {resource.text} has more than one entry for {e.identity.wording}"

/-- Takes in one more entry, or reports it as a repetition. -/
def takeIn (resource : ResourceId) (acl : Acl) (e : AclEntry) : Except Error Acl :=
  match acl.add e with
  | (true, next) => .ok next
  | (false, _) => .error (repetition resource e)

theorem withEntries_eq_foldlM (resource : ResourceId) (entries : List AclEntry) :
    withEntries resource entries = entries.foldlM (takeIn resource) (empty resource) := by
  have step : takeIn resource = fun acl e =>
      match acl.add e with
      | (true, next) => .ok next
      | (false, _) => .error (.invalid s!"ACL for {resource.text} has more than one entry for {e.identity.text}") := by
    funext acl e
    rw [takeIn, repetition, ← AclIdentity.text_eq_wording]
  rw [step]
  rfl

theorem hasEntry_iff {acl : Acl} {identity : AclIdentity} :
    (acl.entry? identity).isSome = true ↔ identity ∈ acl.entries.map (·.identity) := by
  unfold entry?
  rw [List.find?_isSome, List.mem_map]
  simp only [beq_iff_eq]

theorem add_of_present {acl : Acl} {e : AclEntry} (present : e.identity ∈ acl.entries.map (·.identity)) :
    acl.add e = (false, acl) := by
  rw [add, if_pos (hasEntry_iff.mpr present)]

theorem add_of_absent {acl : Acl} {e : AclEntry} (absent : e.identity ∉ acl.entries.map (·.identity)) :
    acl.add e = (true, { acl with entries := acl.entries ++ [e] }) := by
  rw [add, if_neg fun found => absent (hasEntry_iff.mp found)]

theorem takeIn_of_present {resource : ResourceId} {acl : Acl} {e : AclEntry}
    (present : e.identity ∈ acl.entries.map (·.identity)) : acl.takeIn resource e = .error (repetition resource e) := by
  rw [takeIn, add_of_present present]

theorem takeIn_of_absent {resource : ResourceId} {acl : Acl} {e : AclEntry}
    (absent : e.identity ∉ acl.entries.map (·.identity)) :
    acl.takeIn resource e = .ok { acl with entries := acl.entries ++ [e] } := by
  rw [takeIn, add_of_absent absent]

theorem Distinct.append {acl : Acl} {e : AclEntry} (distinct : acl.Distinct)
    (absent : e.identity ∉ acl.entries.map (·.identity)) : Distinct { acl with entries := acl.entries ++ [e] } := by
  rw [Distinct, List.map_append]
  exact List.Nodup.append distinct (List.nodup_singleton _) (List.disjoint_singleton.mpr absent)

/-- One more entry stands behind the others, or it is reported because its identity has an entry already. -/
theorem takeIn_cases (resource : ResourceId) (seen : List AclEntry) (acl : Acl) (e : AclEntry)
    (kept : acl = ⟨resource, seen⟩ ∧ acl.Distinct) :
    (∃ next, acl.takeIn resource e = .ok next ∧ next = ⟨resource, seen ++ [e]⟩ ∧ next.Distinct) ∨
      ∃ error, acl.takeIn resource e = .error error ∧ e.identity ∈ seen.map (·.identity) ∧
        error = repetition resource e := by
  obtain ⟨rfl, distinct⟩ := kept
  by_cases present : e.identity ∈ seen.map (·.identity)
  · exact .inr ⟨_, takeIn_of_present present, present, rfl⟩
  · exact .inl ⟨_, takeIn_of_absent present, rfl, distinct.append present⟩

/-- A list is made of exactly the given entries, or the first of them that repeats an identity is reported. -/
theorem withEntries_cases (resource : ResourceId) (entries : List AclEntry) :
    ((entries.map (·.identity)).Nodup ∧ withEntries resource entries = .ok ⟨resource, entries⟩) ∨
      ∃ e, FirstRepeated entries e ∧ withEntries resource entries = .error (repetition resource e) := by
  have start : empty resource = ⟨resource, []⟩ ∧ (empty resource).Distinct := ⟨rfl, List.nodup_nil⟩
  rw [withEntries_eq_foldlM]
  -- Only the entries so far can be repeated, and these are distinct.
  rcases foldlM_cases (fun seen (acl : Acl) => acl = ⟨resource, seen⟩ ∧ acl.Distinct)
      (fun seen e error => e.identity ∈ seen.map (·.identity) ∧ error = repetition resource e)
      (takeIn_cases resource) start entries with
    ⟨_, run, rfl, distinct⟩ | ⟨before, e, after, _, split, ⟨_, rfl, distinct⟩, ⟨member, rfl⟩, run⟩
  · exact .inl ⟨distinct, run⟩
  · exact .inr ⟨e, ⟨before, after, split, distinct, member⟩, run⟩

theorem FirstRepeated.not_nodup {entries : List AclEntry} {e : AclEntry} (first : FirstRepeated entries e) :
    ¬(entries.map (·.identity)).Nodup := by
  obtain ⟨before, after, rfl, _, member⟩ := first
  rw [List.map_append, List.map_cons]
  intro nodup
  exact (List.nodup_append'.mp nodup).2.2 member List.mem_cons_self

end Acl

end AccessControl
