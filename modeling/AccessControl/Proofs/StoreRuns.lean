import AccessControl.Acl.Store
import AccessControl.Proofs.AclEntries
import AccessControl.SortedMap.Lemmas
import Mathlib.Data.Finmap

namespace AccessControl

/-- The layer of a resource decides its place, then the tag of a layer of its own, then the key. -/
def ResourceId.Precedes (a b : ResourceId) : Prop :=
  a.kind.rank < b.kind.rank ∨ a.kind.rank = b.kind.rank ∧
    (a.kind.tag < b.kind.tag ∨ a.kind.tag = b.kind.tag ∧ a.key < b.key)

theorem compare_text_eq_lt {a b : String} : compare a b = .lt ↔ a < b := compareOfLessAndEq_eq_lt

theorem ResourceKind.compare_eq_lt {a b : ResourceKind} :
    compare a b = .lt ↔ a.rank < b.rank ∨ a.rank = b.rank ∧ a.tag < b.tag := by
  have split : compare a b = (compare a.rank b.rank).then (compare a.tag b.tag) := rfl
  rw [split, Ordering.then_eq_lt, Std.compare_eq_lt, Std.LawfulEqCmp.compare_eq_iff_eq, compare_text_eq_lt]

theorem ResourceId.compare_eq_lt {a b : ResourceId} : compare a b = .lt ↔ a.Precedes b := by
  have split : compare a b = (compare a.kind b.kind).then (compare a.key b.key) := rfl
  have kinds : a.kind = b.kind ↔ a.kind.rank = b.kind.rank ∧ a.kind.tag = b.kind.tag :=
    ⟨fun same => ⟨congrArg _ same, congrArg _ same⟩, fun same => ResourceKind.eq_of_rank_tag same.1 same.2⟩
  rw [split, Ordering.then_eq_lt, ResourceKind.compare_eq_lt, Std.LawfulEqCmp.compare_eq_iff_eq, compare_text_eq_lt,
    kinds, Precedes, or_assoc, and_assoc, ← and_or_left]

/-- A call of a store of access-control lists. -/
inductive StoreCall
  | create (resource : ResourceId) (entries : List AclEntry)
  | get (resource : ResourceId)
  | list
  | update (acl : Acl)
  | remove (resource : ResourceId)
  | size

/-- The resource that a call is about. -/
def StoreCall.subject? : StoreCall → Option ResourceId
  | create resource _ | get resource | remove resource => some resource
  | update acl => some acl.resource
  | list | size => none

/-- What a call gives back. -/
inductive StoreAnswer
  | created (result : Except Error Acl)
  | found (acl : Option Acl)
  | listed (acls : List Acl)
  | changed (stored : Bool)
  | counted (n : Nat)

namespace MemoryStore

/-- Serves one call. -/
def serve (s : MemoryStore) : StoreCall → StoreAnswer × MemoryStore
  | .create resource entries => (.created (s.create resource entries).1, (s.create resource entries).2)
  | .get resource => (.found (s.get? resource), s)
  | .list => (.listed s.list, s)
  | .update acl => (.changed (s.update acl).1, (s.update acl).2)
  | .remove resource => (.changed (s.remove resource).1, (s.remove resource).2)
  | .size => (.counted s.size, s)

/-- Serves calls one after another. -/
def serveAll (s : MemoryStore) : List StoreCall → List StoreAnswer × MemoryStore
  | [] => ([], s)
  | call :: rest =>
    let (answer, next) := s.serve call
    let (answers, last) := next.serveAll rest
    (answer :: answers, last)

end MemoryStore

/-- A finite map from resources to their lists. -/
abbrev AclMap := Finmap fun _ : ResourceId => Acl

/-- The error about a resource that already has a list. -/
def Acl.taken (resource : ResourceId) : Error := .alreadyExists s!"ACL for {resource.text} already exists"

/-- How a finite map answers a call, and what the map is afterwards. -/
inductive AclMap.Serves (mode : CreateMode) : AclMap → StoreCall → StoreAnswer → AclMap → Prop
  | createRepeated {m : AclMap} {resource : ResourceId} {entries : List AclEntry} {e : AclEntry} :
      ¬(entries.map (·.identity)).Nodup → Acl.FirstRepeated entries e →
      Serves mode m (.create resource entries) (.created (.error (Acl.repetition resource e))) m
  | createTaken {m : AclMap} {resource : ResourceId} {entries : List AclEntry} :
      (entries.map (·.identity)).Nodup → mode = .reject → resource ∈ m →
      Serves mode m (.create resource entries) (.created (.error (Acl.taken resource))) m
  | create {m : AclMap} {resource : ResourceId} {entries : List AclEntry} :
      (entries.map (·.identity)).Nodup → (mode = .overwrite ∨ resource ∉ m) →
      Serves mode m (.create resource entries) (.created (.ok ⟨resource, entries⟩))
        (m.insert resource ⟨resource, entries⟩)
  | get {m : AclMap} {resource : ResourceId} : Serves mode m (.get resource) (.found (m.lookup resource)) m
  | list {m : AclMap} {acls : List Acl} :
      acls.Pairwise (fun a b => a.resource.Precedes b.resource) →
      (∀ acl, acl ∈ acls ↔ m.lookup acl.resource = some acl) →
      Serves mode m .list (.listed acls) m
  | updateStored {m : AclMap} {acl : Acl} :
      acl.resource ∈ m → Serves mode m (.update acl) (.changed true) (m.insert acl.resource acl)
  | updateMissing {m : AclMap} {acl : Acl} : acl.resource ∉ m → Serves mode m (.update acl) (.changed false) m
  | remove {m : AclMap} {resource : ResourceId} :
      Serves mode m (.remove resource) (.changed (decide (resource ∈ m))) (m.erase resource)
  | size {m : AclMap} : Serves mode m .size (.counted m.keys.card) m

/-- How a finite map answers calls one after another. -/
inductive AclMap.ServesAll (mode : CreateMode) : AclMap → List StoreCall → List StoreAnswer → AclMap → Prop
  | done {m : AclMap} : ServesAll mode m [] [] m
  | next {m next last : AclMap} {call : StoreCall} {calls : List StoreCall} {answer : StoreAnswer}
      {answers : List StoreAnswer} :
      m.Serves mode call answer next → next.ServesAll mode calls answers last →
      ServesAll mode m (call :: calls) (answer :: answers) last

/-- The store keeps what the map says, and keeps each list under the resource that the list itself names. -/
structure MemoryStore.Represents (s : MemoryStore) (m : AclMap) : Prop where
  same : ∀ resource, s.get? resource = m.lookup resource
  own : ∀ resource acl, s.get? resource = some acl → acl.resource = resource

namespace MemoryStore

/-- The store with this list under a resource. -/
def storing (s : MemoryStore) (resource : ResourceId) (acl : Acl) : MemoryStore :=
  { s with acls := s.acls.insert resource acl }

/-- The store without the list of a resource. -/
def without (s : MemoryStore) (resource : ResourceId) : MemoryStore := { s with acls := s.acls.erase resource }

theorem get?_storing (s : MemoryStore) (resource other : ResourceId) (acl : Acl) :
    (s.storing resource acl).get? other = if resource = other then some acl else s.get? other :=
  s.acls.get?_insert resource other acl

theorem get?_without (s : MemoryStore) (resource other : ResourceId) :
    (s.without resource).get? other = if resource = other then none else s.get? other :=
  s.acls.get?_erase resource other

theorem represents_empty (mode : CreateMode) : (empty mode).Represents ∅ := ⟨fun _ => rfl, nofun⟩

section Represents

variable {s : MemoryStore} {m : AclMap} (represents : s.Represents m)

include represents

theorem Represents.contains_iff (resource : ResourceId) : s.acls.contains resource = true ↔ resource ∈ m := by
  rw [← Finmap.lookup_isSome, ← represents.same]
  rfl

theorem Represents.insert {resource : ResourceId} {acl : Acl} (own : acl.resource = resource) :
    (s.storing resource acl).Represents (m.insert resource acl) := by
  constructor
  · intro other
    rw [get?_storing]
    split_ifs with here
    · rw [← here, Finmap.lookup_insert]
    · rw [Finmap.lookup_insert_of_ne _ (Ne.symm here), represents.same]
  · intro other stored found
    rw [get?_storing] at found
    split_ifs at found with here
    · cases found
      exact own.trans here
    · exact represents.own other stored found

theorem Represents.erase (resource : ResourceId) : (s.without resource).Represents (m.erase resource) := by
  constructor
  · intro other
    rw [get?_without]
    split_ifs with here
    · rw [← here, Finmap.lookup_erase]
    · rw [Finmap.lookup_erase_ne (Ne.symm here), represents.same]
  · intro other stored found
    rw [get?_without] at found
    split_ifs at found with here
    exact represents.own other stored found

theorem Represents.size_eq : s.size = m.keys.card := by
  have keys : m.keys = s.acls.keys.toFinset := by
    ext resource
    rw [Finmap.mem_keys, List.mem_toFinset, SortedMap.mem_keys, represents.contains_iff]
  rw [keys, List.toFinset_card_of_nodup s.acls.keys_nodup]
  exact (List.length_map _).symm

theorem Represents.entry_own {e : ResourceId × Acl} (member : e ∈ s.acls.entries) : e.2.resource = e.1 :=
  represents.own e.1 e.2 (s.acls.mem_entries_iff.mp member)

theorem Represents.mem_list {acl : Acl} : acl ∈ s.list ↔ m.lookup acl.resource = some acl := by
  rw [← represents.same]
  constructor
  · intro listed
    obtain ⟨e, member, rfl⟩ := List.mem_map.mp listed
    rw [represents.entry_own member]
    exact s.acls.mem_entries_iff.mp member
  · intro found
    exact List.mem_map.mpr ⟨(acl.resource, acl), s.acls.mem_entries_iff.mpr found, rfl⟩

theorem Represents.list_ascending : s.list.Pairwise fun a b => a.resource.Precedes b.resource := by
  refine List.pairwise_map.mpr (s.acls.ascending.imp_of_mem fun {a b} inA inB before => ?_)
  rw [represents.entry_own inA, represents.entry_own inB]
  exact ResourceId.compare_eq_lt.mp before

end Represents

/-- A creation fails on a repeated identity, then on a resource that already has a list, and either way hands back the
store that it was given. Else it stores exactly the given entries. -/
theorem create_cases (s : MemoryStore) (resource : ResourceId) (entries : List AclEntry) :
    (∃ e, Acl.FirstRepeated entries e ∧ s.create resource entries = (.error (Acl.repetition resource e), s)) ∨
    ((entries.map (·.identity)).Nodup ∧ s.mode = .reject ∧ s.acls.contains resource = true ∧
      s.create resource entries = (.error (Acl.taken resource), s)) ∨
    ((entries.map (·.identity)).Nodup ∧ (s.mode = .overwrite ∨ ¬s.acls.contains resource = true) ∧
      s.create resource entries = (.ok ⟨resource, entries⟩, s.storing resource ⟨resource, entries⟩)) := by
  rcases Acl.withEntries_cases resource entries with ⟨nodup, made⟩ | ⟨e, first, failed⟩
  · have run : s.create resource entries =
        if decide (s.mode = .reject) && s.acls.contains resource then (.error (Acl.taken resource), s)
        else (.ok ⟨resource, entries⟩, s.storing resource ⟨resource, entries⟩) := by
      unfold create
      rw [made]
      rfl
    rw [run]
    refine .inr ?_
    cases mode : s.mode with
    | overwrite => exact .inr ⟨nodup, .inl rfl, rfl⟩
    | reject =>
      by_cases stored : s.acls.contains resource = true
      · rw [stored]
        exact .inl ⟨nodup, rfl, rfl, rfl⟩
      · refine .inr ⟨nodup, .inr stored, ?_⟩
        rw [Bool.eq_false_of_not_eq_true stored]
        rfl
  · refine .inl ⟨e, first, ?_⟩
    unfold create
    rw [failed]

/-- A creation that fails leaves the store as it was, whatever the mode and whatever is stored. -/
theorem create_refused {s : MemoryStore} {resource : ResourceId} {entries : List AclEntry} {e : Error}
    (refused : (s.create resource entries).1 = .error e) : (s.create resource entries).2 = s := by
  rcases s.create_cases resource entries with ⟨_, _, run⟩ | ⟨_, _, _, run⟩ | ⟨_, _, run⟩
  · rw [run]
  · rw [run]
  · rw [run] at refused
    cases refused

theorem update_of_stored {s : MemoryStore} {acl : Acl} (stored : s.acls.contains acl.resource = true) :
    s.update acl = (true, s.storing acl.resource acl) := if_pos stored

theorem update_of_missing {s : MemoryStore} {acl : Acl} (missing : ¬s.acls.contains acl.resource = true) :
    s.update acl = (false, s) := if_neg missing

/-- Whatever the call, the store answers as the map that it represents does, and represents what becomes of the map. -/
theorem Represents.serve {s : MemoryStore} {m : AclMap} (represents : s.Represents m) (call : StoreCall) :
    ∃ next, m.Serves s.mode call (s.serve call).1 next ∧ (s.serve call).2.Represents next := by
  cases call with
  | create resource entries =>
    simp only [MemoryStore.serve]
    rcases s.create_cases resource entries with
      ⟨e, first, run⟩ | ⟨nodup, rejects, stored, run⟩ | ⟨nodup, free, run⟩
    · rw [run]
      exact ⟨m, .createRepeated first.not_nodup first, represents⟩
    · rw [run]
      exact ⟨m, .createTaken nodup rejects ((represents.contains_iff resource).mp stored), represents⟩
    · rw [run]
      rw [represents.contains_iff] at free
      exact ⟨_, .create nodup free, represents.insert rfl⟩
  | get resource =>
    simp only [MemoryStore.serve, represents.same]
    exact ⟨m, .get, represents⟩
  | list => exact ⟨m, .list represents.list_ascending fun _ => represents.mem_list, represents⟩
  | update acl =>
    simp only [MemoryStore.serve]
    by_cases stored : s.acls.contains acl.resource = true
    · rw [update_of_stored stored]
      exact ⟨_, .updateStored ((represents.contains_iff _).mp stored), represents.insert rfl⟩
    · rw [update_of_missing stored]
      exact ⟨m, .updateMissing fun member => stored ((represents.contains_iff _).mpr member), represents⟩
  | remove resource =>
    have answer : (s.remove resource).1 = decide (resource ∈ m) := by
      rw [Bool.eq_iff_iff, decide_eq_true_eq]
      exact represents.contains_iff resource
    simp only [MemoryStore.serve, answer]
    exact ⟨_, .remove, represents.erase resource⟩
  | size =>
    simp only [MemoryStore.serve, represents.size_eq]
    exact ⟨m, .size, represents⟩

/-- All that a call can do to the store. A list that is put into it by creation has one entry for each identity. -/
theorem serve_cases (s : MemoryStore) (call : StoreCall) :
    (s.serve call).2 = s ∨
    (∃ resource acl, call.subject? = some resource ∧ (call = .update acl ∨ acl.Distinct) ∧
      (s.serve call).2 = s.storing resource acl) ∨
    ∃ resource, call.subject? = some resource ∧ (s.serve call).2 = s.without resource := by
  cases call with
  | get _ | list | size => exact .inl rfl
  | create resource entries =>
    simp only [MemoryStore.serve]
    rcases s.create_cases resource entries with ⟨e, _, run⟩ | ⟨_, _, _, run⟩ | ⟨nodup, _, run⟩
    · rw [run]
      exact .inl rfl
    · rw [run]
      exact .inl rfl
    · rw [run]
      exact .inr (.inl ⟨resource, ⟨resource, entries⟩, rfl, .inr nodup, rfl⟩)
  | update acl =>
    simp only [MemoryStore.serve]
    by_cases stored : s.acls.contains acl.resource = true
    · rw [update_of_stored stored]
      exact .inr (.inl ⟨acl.resource, acl, rfl, .inl rfl, rfl⟩)
    · rw [update_of_missing stored]
      exact .inl rfl
  | remove resource => exact .inr (.inr ⟨resource, rfl, rfl⟩)

theorem serve_mode (s : MemoryStore) (call : StoreCall) : (s.serve call).2.mode = s.mode := by
  rcases s.serve_cases call with same | ⟨_, _, _, _, same⟩ | ⟨_, _, same⟩
  · rw [same]
  · rw [same]
    rfl
  · rw [same]
    rfl

/-- A call about one resource leaves the list of every other resource as it was. -/
theorem get?_serve_of_other {s : MemoryStore} {call : StoreCall} {other : ResourceId}
    (elsewhere : call.subject? ≠ some other) : (s.serve call).2.get? other = s.get? other := by
  have apart {resource : ResourceId} (subject : call.subject? = some resource) : resource ≠ other := by
    intro same
    exact elsewhere (same ▸ subject)
  rcases s.serve_cases call with same | ⟨resource, acl, subject, _, same⟩ | ⟨resource, subject, same⟩
  · rw [same]
  · rw [same, get?_storing, if_neg (apart subject)]
  · rw [same, get?_without, if_neg (apart subject)]

/-- No stored list has two entries for one identity. -/
def EachDistinct (s : MemoryStore) : Prop := ∀ resource acl, s.get? resource = some acl → acl.Distinct

theorem EachDistinct.serve {s : MemoryStore} {call : StoreCall} (each : s.EachDistinct)
    (given : ∀ acl, call = .update acl → acl.Distinct) : (s.serve call).2.EachDistinct := by
  intro other stored found
  rcases s.serve_cases call with same | ⟨resource, acl, _, origin, same⟩ | ⟨resource, _, same⟩
  · rw [same] at found
    exact each other stored found
  · rw [same, get?_storing] at found
    split_ifs at found with here
    · cases found
      exact origin.elim (given _) id
    · exact each other stored found
  · rw [same, get?_without] at found
    split_ifs at found with here
    exact each other stored found

section Runs

variable {s : MemoryStore} {calls : List StoreCall}

theorem Represents.serveAll {m : AclMap} (represents : s.Represents m) (calls : List StoreCall) :
    ∃ last, m.ServesAll s.mode calls (s.serveAll calls).1 last ∧ (s.serveAll calls).2.Represents last := by
  induction calls generalizing s m with
  | nil => exact ⟨m, .done, represents⟩
  | cons call rest ih =>
    obtain ⟨next, served, after⟩ := represents.serve call
    obtain ⟨last, later, final⟩ := ih after
    rw [serve_mode] at later
    exact ⟨last, .next served later, final⟩

theorem EachDistinct.serveAll (each : s.EachDistinct)
    (given : ∀ acl : Acl, StoreCall.update acl ∈ calls → acl.Distinct) : (s.serveAll calls).2.EachDistinct := by
  induction calls generalizing s with
  | nil => exact each
  | cons call rest ih =>
    have next : (s.serve call).2.EachDistinct := each.serve fun acl same => given acl (same ▸ List.mem_cons_self)
    exact ih next fun acl later => given acl (List.mem_cons_of_mem _ later)

end Runs

/-- A store answers every run of calls as a finite map from resources to lists does, and after the run it holds what
the map holds. Each list stands under its own resource, all of them are listed in the order of the resources, and a call
about one resource never touches another. As long as no list with a repeated identity is handed in as an update, none is
stored. A creation that fails leaves the store exactly as it was. -/
theorem serves_as_finite_map (mode : CreateMode) :
    (∀ calls : List StoreCall, ∃ m : AclMap,
      let answers := ((empty mode).serveAll calls).1
      let s := ((empty mode).serveAll calls).2
      AclMap.ServesAll mode ∅ calls answers m ∧
      (∀ resource, s.get? resource = m.lookup resource) ∧
      (∀ resource acl, s.get? resource = some acl → acl.resource = resource) ∧
      s.list.Pairwise (fun a b => a.resource.Precedes b.resource) ∧
      s.list.length = s.size ∧ s.size = m.keys.card ∧
      ((∀ acl : Acl, StoreCall.update acl ∈ calls → acl.Distinct) →
        ∀ resource acl, s.get? resource = some acl → acl.Distinct)) ∧
    (∀ (s : MemoryStore) (call : StoreCall) (other : ResourceId), call.subject? ≠ some other →
      (s.serve call).2.get? other = s.get? other) ∧
    (∀ (s : MemoryStore) (resource : ResourceId) (entries : List AclEntry) (e : Error),
      (s.create resource entries).1 = .error e → (s.create resource entries).2 = s) := by
  refine ⟨fun calls => ?_, fun s call other => get?_serve_of_other, fun s resource entries e => create_refused⟩
  obtain ⟨m, served, represents⟩ := (represents_empty mode).serveAll calls
  have start : (empty mode).EachDistinct := nofun
  refine ⟨m, served, represents.same, represents.own, represents.list_ascending, ?_, represents.size_eq, ?_⟩
  · exact List.length_map _
  · exact start.serveAll

/-- A creation with a repeated identity fails although lists may be overwritten, and leaves what was stored. The update
behind it replaces the list, and the other resource keeps its own. A store that does not overwrite refuses a second list
for a resource, and keeps the first. -/
theorem serves_as_finite_map_overwriting :
    let report : ResourceId := ⟨.acl, "report"⟩
    let budget : ResourceId := ⟨.custom "ledger", "budget"⟩
    let read : AclEntry := ⟨.user "ann", ⟨1⟩⟩
    let full : AclEntry := ⟨.user "ann", ⟨15⟩⟩
    let calls : List StoreCall := [.create budget [full], .create report [read], .create report [full, full],
      .update ⟨report, [full]⟩, .update ⟨⟨.web, "report"⟩, [read]⟩]
    let s := ((empty .overwrite).serveAll calls).2
    let careful := ((empty .reject).serveAll [.create report [read]]).2
    (∀ acl : Acl, StoreCall.update acl ∈ calls → acl.Distinct) ∧
      (∀ resource acl, s.get? resource = some acl → acl.resource = resource ∧ acl.Distinct) ∧
      s.list = [⟨report, [full]⟩, ⟨budget, [full]⟩] ∧ s.size = 2 ∧
      (StoreCall.remove report).subject? ≠ some budget ∧
      (s.serve (.remove report)).2.get? budget = some ⟨budget, [full]⟩ ∧
      (s.create report [full, full]).1 =
        .error (.invalid "ACL for acl:report has more than one entry for user:ann") ∧
      (s.create report [full, full]).2 = s ∧
      (careful.create report [full]).1 = .error (.alreadyExists "ACL for acl:report already exists") ∧
      (careful.create report [full]).2 = careful := by
  intro report budget read full calls s careful
  have given : ∀ acl : Acl, StoreCall.update acl ∈ calls → acl.Distinct := by
    intro acl member
    simp only [calls, List.mem_cons, reduceCtorEq, StoreCall.update.injEq, List.not_mem_nil, or_false,
      false_or] at member
    rcases member with rfl | rfl
    · exact List.nodup_singleton _
    · exact List.nodup_singleton _
  obtain ⟨runs, apart, unchanged⟩ := serves_as_finite_map .overwrite
  obtain ⟨m, _, _, own, _, _, _, distinct⟩ := runs calls
  have elsewhere : (StoreCall.remove report).subject? ≠ some budget := by decide
  have kept : s.get? budget = some ⟨budget, [full]⟩ := by decide
  have repeated : (s.create report [full, full]).1 =
      .error (.invalid "ACL for acl:report has more than one entry for user:ann") := by decide
  have refused : (careful.create report [full]).1 = .error (.alreadyExists "ACL for acl:report already exists") := by
    decide
  refine ⟨given, ?_, by decide, by decide, elsewhere, (apart s _ budget elsewhere).trans kept, repeated,
    unchanged s report _ _ repeated, refused, unchanged careful report _ _ refused⟩
  intro resource acl found
  exact ⟨own resource acl found, distinct given resource acl found⟩

end MemoryStore

end AccessControl
