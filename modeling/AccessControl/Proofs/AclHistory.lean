import AccessControl.Proofs.AclEntries
import AccessControl.Proofs.Traversals
import Mathlib.Data.List.Induction

namespace AccessControl

namespace Acl

/-- A change to an access-control list. -/
inductive Edit
  | add (e : AclEntry)
  | update (e : AclEntry)
  | remove (identity : AclIdentity)
  deriving DecidableEq

/-- The identity whose entry is to change. -/
def Edit.identity : Edit → AclIdentity
  | add e | update e => e.identity
  | remove identity => identity

/-- Makes a change, and says whether it took place. -/
def edit (acl : Acl) : Edit → Bool × Acl
  | .add e => acl.add e
  | .update e => acl.update e
  | .remove identity => acl.remove identity

/-- The lists on a resource that changes can lead to, with the changes and their answers in order. The entries that a
list was made with count as added. -/
inductive Reaches (resource : ResourceId) : List (Edit × Bool) → Acl → Prop
  | empty : Reaches resource [] (Acl.empty resource)
  | withEntries {entries : List AclEntry} {acl : Acl} : Acl.withEntries resource entries = .ok acl →
      Reaches resource (entries.map fun e => (.add e, true)) acl
  | next {log : List (Edit × Bool)} {acl : Acl} (change : Edit) : Reaches resource log acl →
      Reaches resource (log ++ [(change, (acl.edit change).1)]) (acl.edit change).2

/-- The call put this entry into its list. -/
def Writes (call : Edit × Bool) (e : AclEntry) : Prop := call = (.add e, true) ∨ call = (.update e, true)

/-- The entry was written, and since then nothing was written or removed for its identity. -/
def LastWritten (log : List (Edit × Bool)) (e : AclEntry) : Prop :=
  Since (Writes · e) (fun later => later.2 = true → later.1.identity ≠ e.identity) log

section Split

variable {acl : Acl}

theorem exists_split {identity : AclIdentity} (present : identity ∈ acl.entries.map (·.identity)) :
    ∃ before old after, acl.entries = before ++ old :: after ∧ old.identity = identity := by
  obtain ⟨old, member, same⟩ := List.mem_map.mp present
  obtain ⟨before, after, split⟩ := List.mem_iff_append.mp member
  exact ⟨before, old, after, split, same⟩

variable (distinct : acl.Distinct)

include distinct

/-- No other entry of a list has the identity of this one. -/
theorem Distinct.others {before after : List AclEntry} {old : AclEntry} (split : acl.entries = before ++ old :: after) :
    ∀ e ∈ before ++ after, e.identity ≠ old.identity := by
  intro e member same
  rw [Distinct, split, List.map_append, List.map_cons, List.nodup_middle, ← List.map_append] at distinct
  exact (List.nodup_cons.mp distinct).1 (List.mem_map.mpr ⟨e, member, same⟩)

theorem Distinct.mem_others {before after : List AclEntry} {old : AclEntry} (split : acl.entries = before ++ old :: after)
    {e : AclEntry} : e ∈ before ++ after ↔ old.identity ≠ e.identity ∧ e ∈ acl.entries := by
  rw [split, List.perm_middle.mem_iff, List.mem_cons]
  constructor
  · intro member
    exact ⟨(distinct.others split e member).symm, .inr member⟩
  · rintro ⟨apart, rfl | member⟩
    · exact absurd rfl apart
    · exact member

/-- Another entry in the place of this one, for the same identity, repeats no identity. -/
theorem Distinct.replaced {before after : List AclEntry} {old e : AclEntry}
    (split : acl.entries = before ++ old :: after) (same : e.identity = old.identity) :
    Distinct { acl with entries := before ++ e :: after } := by
  rw [Distinct, split, List.map_append, List.map_cons] at distinct
  rw [Distinct, List.map_append, List.map_cons, same]
  exact distinct

theorem Distinct.dropped {before after : List AclEntry} {old : AclEntry}
    (split : acl.entries = before ++ old :: after) : Distinct { acl with entries := before ++ after } := by
  rw [Distinct, split, List.map_append, List.map_cons, List.nodup_middle, ← List.map_append] at distinct
  exact (List.nodup_cons.mp distinct).2

/-- The entry for an identity is the only one in the list that has it. -/
theorem Distinct.entry?_eq_some {identity : AclIdentity} {e : AclEntry} :
    acl.entry? identity = some e ↔ e ∈ acl.entries ∧ e.identity = identity := by
  constructor
  · intro found
    exact ⟨List.mem_of_find?_eq_some found, by simpa using List.find?_some found⟩
  · rintro ⟨member, rfl⟩
    obtain ⟨before, after, split⟩ := List.mem_iff_append.mp member
    refine List.find?_eq_some_iff_append.mpr ⟨by simp, before, after, split, fun other earlier => ?_⟩
    have apart := distinct.others split other (List.mem_append_left after earlier)
    simpa using apart

end Split

section Edits

variable {acl : Acl}

theorem replaceFirst_of_absent {e : AclEntry} {entries : List AclEntry}
    (absent : e.identity ∉ entries.map (·.identity)) : replaceFirst e entries = entries := by
  induction entries with
  | nil => rfl
  | cons old rest ih =>
    rw [List.map_cons, List.mem_cons, not_or] at absent
    rw [replaceFirst, if_neg (Ne.symm absent.1), ih absent.2]

theorem replaceFirst_of_split {e old : AclEntry} {before after : List AclEntry} (same : old.identity = e.identity)
    (earlier : ∀ b ∈ before, b.identity ≠ e.identity) :
    replaceFirst e (before ++ old :: after) = before ++ e :: after := by
  induction before with
  | nil => rw [List.nil_append, replaceFirst, if_pos same, List.nil_append]
  | cons b rest ih =>
    obtain ⟨first, later⟩ := List.forall_mem_cons.mp earlier
    rw [List.cons_append, replaceFirst, if_neg first, ih later, List.cons_append]

theorem update_of_absent {e : AclEntry} (absent : e.identity ∉ acl.entries.map (·.identity)) :
    acl.update e = (false, acl) := by
  have missing : (acl.entry? e.identity).isSome = false :=
    Bool.eq_false_iff.mpr fun found => absent (hasEntry_iff.mp found)
  rw [update, missing, replaceFirst_of_absent absent]

theorem remove_of_absent {identity : AclIdentity} (absent : identity ∉ acl.entries.map (·.identity)) :
    acl.remove identity = (false, acl) := by
  have kept : acl.entries.filter (·.identity ≠ identity) = acl.entries := by
    refine List.filter_eq_self.mpr fun e member => decide_eq_true fun same => ?_
    exact absent (List.mem_map.mpr ⟨e, member, same⟩)
  simp only [remove, kept, bne_self_eq_false]

variable {before after : List AclEntry} {old : AclEntry} (distinct : acl.Distinct)
  (split : acl.entries = before ++ old :: after)

include distinct split

theorem update_of_split {e : AclEntry} (same : e.identity = old.identity) :
    acl.update e = (true, { acl with entries := before ++ e :: after }) := by
  have present : e.identity ∈ acl.entries.map (·.identity) :=
    List.mem_map.mpr ⟨old, by simp [split], same.symm⟩
  have earlier : ∀ b ∈ before, b.identity ≠ e.identity := fun b member =>
    same ▸ distinct.others split b (List.mem_append_left after member)
  rw [update, hasEntry_iff.mpr present, split, replaceFirst_of_split same.symm earlier]

theorem remove_of_split : acl.remove old.identity = (true, { acl with entries := before ++ after }) := by
  have others : (before ++ after).filter (·.identity ≠ old.identity) = before ++ after :=
    List.filter_eq_self.mpr fun e member => decide_eq_true (distinct.others split e member)
  have kept : acl.entries.filter (·.identity ≠ old.identity) = before ++ after := by
    rw [split, List.filter_append, List.filter_cons_of_neg (by simp), ← List.filter_append, others]
  have shorter : (before ++ after).length ≠ acl.entries.length := by
    simp only [split, List.length_append, List.length_cons]
    omega
  simp only [remove, kept, bne_iff_ne.mpr shorter]

end Edits

section Cases

variable {acl : Acl}

theorem entry?_eq_none {identity : AclIdentity} :
    acl.entry? identity = none ↔ identity ∉ acl.entries.map (·.identity) := by
  rw [← hasEntry_iff, Option.not_isSome_iff_eq_none]

theorem add_cases (acl : Acl) (e : AclEntry) :
    acl.entry? e.identity ≠ none ∧ acl.add e = (false, acl) ∨
      acl.entry? e.identity = none ∧ acl.add e = (true, { acl with entries := acl.entries ++ [e] }) := by
  rw [ne_eq, entry?_eq_none, not_not]
  by_cases present : e.identity ∈ acl.entries.map (·.identity)
  · exact .inl ⟨present, add_of_present present⟩
  · exact .inr ⟨present, add_of_absent present⟩

variable (distinct : acl.Distinct)

include distinct

theorem update_cases (e : AclEntry) :
    acl.entry? e.identity = none ∧ acl.update e = (false, acl) ∨
      acl.entry? e.identity ≠ none ∧ ∃ before old after, acl.entries = before ++ old :: after ∧
        e.identity = old.identity ∧ acl.update e = (true, { acl with entries := before ++ e :: after }) := by
  rw [ne_eq, entry?_eq_none, not_not]
  by_cases present : e.identity ∈ acl.entries.map (·.identity)
  · obtain ⟨before, old, after, split, same⟩ := exists_split present
    exact .inr ⟨present, before, old, after, split, same.symm, update_of_split distinct split same.symm⟩
  · exact .inl ⟨present, update_of_absent present⟩

theorem remove_cases (identity : AclIdentity) :
    acl.entry? identity = none ∧ acl.remove identity = (false, acl) ∨
      acl.entry? identity ≠ none ∧ ∃ before old after, acl.entries = before ++ old :: after ∧
        old.identity = identity ∧ acl.remove identity = (true, { acl with entries := before ++ after }) := by
  rw [ne_eq, entry?_eq_none, not_not]
  by_cases present : identity ∈ acl.entries.map (·.identity)
  · obtain ⟨before, old, after, split, rfl⟩ := exists_split present
    exact .inr ⟨present, before, old, after, split, rfl, remove_of_split distinct split⟩
  · exact .inl ⟨present, remove_of_absent present⟩

end Cases

section Runs

variable {resource : ResourceId} {log : List (Edit × Bool)} {acl : Acl}

theorem writes_add {new e : AclEntry} : Writes (.add new, true) e ↔ e = new := by
  simp [Writes, eq_comm]

theorem writes_update {new e : AclEntry} : Writes (.update new, true) e ↔ e = new := by
  simp [Writes, eq_comm]

theorem not_writes_remove {identity : AclIdentity} {answer : Bool} {e : AclEntry} :
    ¬Writes (.remove identity, answer) e := by
  simp [Writes]

theorem not_writes_refused {change : Edit} {e : AclEntry} : ¬Writes (change, false) e := by
  simp [Writes]

theorem identity_of_writes {change : Edit} {answer : Bool} {e : AclEntry} (writes : Writes (change, answer) e) :
    change.identity = e.identity := by
  rcases writes with same | same
  · cases same
    rfl
  · cases same
    rfl

theorem lastWritten_append {call : Edit × Bool} {e : AclEntry} : LastWritten (log ++ [call]) e ↔
    Writes call e ∨ (call.2 = true → call.1.identity ≠ e.identity) ∧ LastWritten log e :=
  since_append_singleton

/-- A change either is refused and alters nothing, or it takes place. Then the list still has one entry for each
identity, and its entries are what the change wrote and those of the other identities. -/
theorem edit_cases (distinct : acl.Distinct) (change : Edit) :
    acl.edit change = (false, acl) ∨ ∃ entries : List AclEntry,
      acl.edit change = (true, { acl with entries }) ∧ Distinct { acl with entries } ∧
      ∀ e, e ∈ entries ↔ Writes (change, true) e ∨ change.identity ≠ e.identity ∧ e ∈ acl.entries := by
  cases change with
  | add new =>
    rcases acl.add_cases new with ⟨_, run⟩ | ⟨absent, run⟩
    · exact .inl run
    · rw [entry?_eq_none] at absent
      refine .inr ⟨_, run, distinct.append absent, fun e => ?_⟩
      have apart : e ∈ acl.entries → new.identity ≠ e.identity := fun member same =>
        absent (List.mem_map.mpr ⟨e, member, same.symm⟩)
      rw [List.mem_append, List.mem_singleton, writes_add, Edit.identity, and_iff_right_of_imp apart, or_comm]
  | update new =>
    rcases update_cases distinct new with ⟨_, run⟩ | ⟨_, before, old, after, split, same, run⟩
    · exact .inl run
    · refine .inr ⟨_, run, distinct.replaced split same, fun e => ?_⟩
      rw [List.perm_middle.mem_iff, List.mem_cons, writes_update, Edit.identity, same, distinct.mem_others split]
  | remove identity =>
    rcases remove_cases distinct identity with ⟨_, run⟩ | ⟨_, before, old, after, split, rfl, run⟩
    · exact .inl run
    · refine .inr ⟨_, run, distinct.dropped split, fun e => ?_⟩
      rw [or_iff_right not_writes_remove, Edit.identity, distinct.mem_others split]

/-- Of entries that were added to an empty list one after another, each was last written for its own identity. -/
theorem lastWritten_added {entries : List AclEntry} (nodup : (entries.map (·.identity)).Nodup) {e : AclEntry} :
    LastWritten (entries.map fun e => (.add e, true)) e ↔ e ∈ entries := by
  induction entries using List.reverseRecOn with
  | nil => exact ⟨fun written => absurd written not_since_nil, nofun⟩
  | append_singleton entries last ih =>
    rw [List.map_append, List.nodup_append'] at nodup
    obtain ⟨earlier, _, apart⟩ := nodup
    have other : e ∈ entries → last.identity ≠ e.identity := fun member same =>
      apart (List.mem_map.mpr ⟨e, member, same.symm⟩) (List.mem_singleton_self _)
    rw [List.map_append, List.map_singleton, lastWritten_append, ih earlier, writes_add, List.mem_append,
      List.mem_singleton, or_comm]
    simp only [Edit.identity, true_implies, and_iff_right_of_imp other]

theorem eq_of_withEntries {entries : List AclEntry} (made : withEntries resource entries = .ok acl) :
    (entries.map (·.identity)).Nodup ∧ acl = ⟨resource, entries⟩ := by
  rcases withEntries_cases resource entries with ⟨nodup, run⟩ | ⟨e, _, run⟩
  · exact ⟨nodup, Except.ok.inj (made.symm.trans run)⟩
  · cases made.symm.trans run

/-- After every run of changes a list has at most one entry for each identity, and what it holds is what was last written
for the identities and not removed. -/
theorem Reaches.recorded (reaches : Reaches resource log acl) :
    acl.resource = resource ∧ acl.Distinct ∧ ∀ e, e ∈ acl.entries ↔ LastWritten log e := by
  induction reaches with
  | empty => exact ⟨rfl, List.nodup_nil, fun e => ⟨nofun, fun written => absurd written not_since_nil⟩⟩
  | withEntries made =>
    obtain ⟨nodup, rfl⟩ := eq_of_withEntries made
    exact ⟨rfl, nodup, fun e => (lastWritten_added nodup).symm⟩
  | @next log acl change _ ih =>
    obtain ⟨same, distinct, holds⟩ := ih
    rcases edit_cases distinct change with run | ⟨entries, run, still, members⟩
    · rw [run]
      refine ⟨same, distinct, fun e => ?_⟩
      rw [lastWritten_append, or_iff_right not_writes_refused, holds e]
      exact (and_iff_right nofun).symm
    · rw [run]
      refine ⟨same, still, fun e => ?_⟩
      rw [lastWritten_append, members, holds e]
      simp only [true_implies]

/-- A change to the entry of one identity leaves the entry of every other identity as it was. -/
theorem entry?_edit_of_ne (distinct : acl.Distinct) {change : Edit} {identity : AclIdentity}
    (elsewhere : change.identity ≠ identity) : Acl.entry? (acl.edit change).2 identity = acl.entry? identity := by
  rcases edit_cases distinct change with run | ⟨entries, run, still, members⟩
  · rw [run]
  · rw [run]
    refine Option.ext fun e => ?_
    rw [still.entry?_eq_some, distinct.entry?_eq_some, members]
    constructor
    · rintro ⟨written | ⟨_, member⟩, rfl⟩
      · exact absurd (identity_of_writes written) elsewhere
      · exact ⟨member, rfl⟩
    · rintro ⟨member, rfl⟩
      exact ⟨.inr ⟨elsewhere, member⟩, rfl⟩

end Runs

section Answers

variable {acl : Acl}

theorem add_answers (acl : Acl) (e : AclEntry) :
    ((acl.add e).1 = true ↔ acl.entry? e.identity = none) ∧
      ((acl.add e).1 = true → (acl.add e).2.entries = acl.entries ++ [e]) := by
  rcases acl.add_cases e with ⟨present, run⟩ | ⟨absent, run⟩
  · rw [run]
    exact ⟨⟨nofun, fun absent => absurd absent present⟩, nofun⟩
  · rw [run]
    exact ⟨⟨fun _ => absent, fun _ => rfl⟩, fun _ => rfl⟩

variable (distinct : acl.Distinct)

include distinct

theorem update_answers (e : AclEntry) :
    ((acl.update e).1 = true ↔ acl.entry? e.identity ≠ none) ∧
      ((acl.update e).1 = true → ∃ before old after, acl.entries = before ++ old :: after ∧
        old.identity = e.identity ∧
        (acl.update e).2.entries = before ++ { old with permission := e.permission } :: after) := by
  rcases update_cases distinct e with ⟨absent, run⟩ | ⟨present, before, old, after, split, same, run⟩
  · rw [run]
    exact ⟨⟨nofun, fun present => absurd absent present⟩, nofun⟩
  · have changed : { old with permission := e.permission } = e := by rw [← same]
    rw [run]
    exact ⟨⟨fun _ => present, fun _ => rfl⟩, fun _ => ⟨before, old, after, split, same.symm, by rw [changed]⟩⟩

theorem remove_answers (identity : AclIdentity) :
    ((acl.remove identity).1 = true ↔ acl.entry? identity ≠ none) ∧
      ((acl.remove identity).1 = true → ∃ before old after, acl.entries = before ++ old :: after ∧
        old.identity = identity ∧ (acl.remove identity).2.entries = before ++ after) := by
  rcases remove_cases distinct identity with ⟨absent, run⟩ | ⟨present, before, old, after, split, same, run⟩
  · rw [run]
    exact ⟨⟨nofun, fun present => absurd absent present⟩, nofun⟩
  · rw [run]
    exact ⟨⟨fun _ => present, fun _ => rfl⟩, fun _ => ⟨before, old, after, split, same, rfl⟩⟩

theorem edit_refused {change : Edit} (refused : (acl.edit change).1 = false) : (acl.edit change).2 = acl := by
  rcases edit_cases distinct change with run | ⟨entries, run, _, _⟩
  · rw [run]
  · rw [run] at refused
    cases refused

end Answers

/-- A list is a map from identities to permissions that keeps the order in which they were added. After every run of
changes an identity has the entry that was last written for it, unless that was removed since. An addition takes place
when the identity has no entry and appends one; an update when it has one, whose permission it changes in its place; a
removal when it has one, which it takes out of the others. Nothing else changes the list, and users and roles of one name
do not touch each other. A list is made of given entries as they are, unless an identity is repeated: then the first
repetition is reported. -/
theorem edits_as_ordered_map (resource : ResourceId) :
    (∀ (log : List (Edit × Bool)) (acl : Acl), Reaches resource log acl →
      acl.Distinct ∧
      (∀ identity e, acl.entry? identity = some e ↔ LastWritten log e ∧ e.identity = identity) ∧
      (∀ e, ((acl.add e).1 = true ↔ acl.entry? e.identity = none) ∧
        ((acl.add e).1 = true → (acl.add e).2.entries = acl.entries ++ [e])) ∧
      (∀ e, ((acl.update e).1 = true ↔ acl.entry? e.identity ≠ none) ∧
        ((acl.update e).1 = true → ∃ before old after, acl.entries = before ++ old :: after ∧
          old.identity = e.identity ∧
          (acl.update e).2.entries = before ++ { old with permission := e.permission } :: after)) ∧
      (∀ identity, ((acl.remove identity).1 = true ↔ acl.entry? identity ≠ none) ∧
        ((acl.remove identity).1 = true → ∃ before old after, acl.entries = before ++ old :: after ∧
          old.identity = identity ∧ (acl.remove identity).2.entries = before ++ after)) ∧
      (∀ change, (acl.edit change).2.resource = resource ∧ ((acl.edit change).1 = false → (acl.edit change).2 = acl)) ∧
      (∀ name change,
        (change.identity = .user name → Acl.entry? (acl.edit change).2 (.role name) = acl.entry? (.role name)) ∧
        (change.identity = .role name → Acl.entry? (acl.edit change).2 (.user name) = acl.entry? (.user name)))) ∧
    (∀ entries : List AclEntry,
      (∀ acl, withEntries resource entries = .ok acl ↔
        (entries.map (·.identity)).Nodup ∧ acl = ⟨resource, entries⟩) ∧
      (¬(entries.map (·.identity)).Nodup →
        ∃ e, FirstRepeated entries e ∧ withEntries resource entries =
          .error (.invalid s!"ACL for {resource.text} has more than one entry for {e.identity.wording}"))) := by
  refine ⟨fun log acl reaches => ?_, fun entries => ?_⟩
  · obtain ⟨_, distinct, holds⟩ := reaches.recorded
    refine ⟨distinct, fun identity e => ?_, acl.add_answers, update_answers distinct, remove_answers distinct,
      fun change => ⟨(reaches.next change).recorded.1, edit_refused distinct⟩, fun name change => ⟨?_, ?_⟩⟩
    · rw [distinct.entry?_eq_some, holds e]
    · exact fun user => entry?_edit_of_ne distinct (user ▸ nofun)
    · exact fun role => entry?_edit_of_ne distinct (role ▸ nofun)
  · rcases withEntries_cases resource entries with ⟨nodup, run⟩ | ⟨e, first, run⟩
    · refine ⟨fun acl => ⟨eq_of_withEntries, ?_⟩, fun repeats => absurd nodup repeats⟩
      rintro ⟨_, rfl⟩
      exact run
    · refine ⟨fun acl => ⟨eq_of_withEntries, fun ⟨nodup, _⟩ => absurd nodup first.not_nodup⟩, fun _ => ⟨e, first, run⟩⟩

/-- The user and the role of one name have entries of their own. A second addition for the user is refused, the update is
made in front of the other entry, and the role comes back behind it with the permission that it is given last. An error
about a repetition says whether it is the user's or the role's. -/
theorem edits_as_ordered_map_same_name :
    let report : ResourceId := ⟨.acl, "report"⟩
    let user (permission : Permission) : AclEntry := ⟨.user "ann", permission⟩
    let role (permission : Permission) : AclEntry := ⟨.role "ann", permission⟩
    let log : List (Edit × Bool) := [(.add (role ⟨15⟩), true), (.add (user ⟨1⟩), true), (.add (user ⟨15⟩), false),
      (.update (user ⟨8⟩), true), (.remove (.role "ann"), true), (.add (role ⟨4⟩), true)]
    let acl : Acl := ⟨report, [user ⟨8⟩, role ⟨4⟩]⟩
    Reaches report log acl ∧ LastWritten log (role ⟨4⟩) ∧ ¬LastWritten log (role ⟨15⟩) ∧ ¬LastWritten log (user ⟨15⟩) ∧
      ¬([user ⟨1⟩, role ⟨1⟩, user ⟨15⟩].map (·.identity)).Nodup ∧
      (∃ e, FirstRepeated [user ⟨1⟩, role ⟨1⟩, user ⟨15⟩] e ∧
        withEntries report [user ⟨1⟩, role ⟨1⟩, user ⟨15⟩] = .error (repetition report e)) ∧
      withEntries report [user ⟨1⟩, role ⟨1⟩, user ⟨15⟩] =
        .error (.invalid "ACL for acl:report has more than one entry for user:ann") ∧
      withEntries report [role ⟨1⟩, user ⟨1⟩, role ⟨15⟩] =
        .error (.invalid "ACL for acl:report has more than one entry for role:ann") := by
  intro report user role log acl
  have made : withEntries report [role ⟨15⟩, user ⟨1⟩] = .ok ⟨report, [role ⟨15⟩, user ⟨1⟩]⟩ := by rfl
  have refusedLater := (Reaches.withEntries made).next (.add (user ⟨15⟩))
  have updated := refusedLater.next (.update (user ⟨8⟩))
  have removed := updated.next (.remove (.role "ann"))
  have reaches : Reaches report log acl := removed.next (.add (role ⟨4⟩))
  have repeats : ¬([user ⟨1⟩, role ⟨1⟩, user ⟨15⟩].map (·.identity)).Nodup := by decide
  obtain ⟨runs, makes⟩ := edits_as_ordered_map report
  obtain ⟨_, entry, _⟩ := runs log acl reaches
  have found : acl.entry? (.role "ann") = some (role ⟨4⟩) := by decide
  have overwritten : acl.entry? (.role "ann") ≠ some (role ⟨15⟩) := by decide
  have refused : acl.entry? (.user "ann") ≠ some (user ⟨15⟩) := by decide
  refine ⟨reaches, ((entry _ _).mp found).1, fun written => overwritten ((entry _ _).mpr ⟨written, rfl⟩),
    fun written => refused ((entry _ _).mpr ⟨written, rfl⟩), repeats, (makes _).2 repeats, by decide, by decide⟩

end Acl

end AccessControl
