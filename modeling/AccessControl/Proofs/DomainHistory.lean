import AccessControl.Proofs.DomainRuns

namespace AccessControl

namespace Domains

/-- The manager with a number is one of a domain, whatever it has built by now. -/
def Serves (d : Domains) (name : String) (number : Nat) : Prop :=
  ∃ config fresh m, d.configuration.domain name = .ok config ∧
    Manager.ofConfig config d.providers d.sink = .ok fresh ∧ d.managers[number]? = some m ∧ fresh.Keeps m

theorem Serves.present {d : Domains} {name : String} {number : Nat} (serves : d.Serves name number) :
    ∃ m, d.managers[number]? = some m := by
  obtain ⟨_, _, m, _, _, present, _⟩ := serves
  exact ⟨m, present⟩

/-- Every manager is still there under its number. It is one of the same domain, and it has lost no part. -/
structure Advances (d d' : Domains) : Prop where
  configuration : d'.configuration = d.configuration
  providers : d'.providers = d.providers
  sink : d'.sink = d.sink
  managers : ∀ (number : Nat) (m : Manager), d.managers[number]? = some m → ∃ m', d'.managers[number]? = some m' ∧
    (∀ fresh : Manager, fresh.Steady → fresh.Keeps m → fresh.Keeps m') ∧ ∀ part, m.Has part → m'.Has part

theorem Advances.refl (d : Domains) : d.Advances d :=
  ⟨rfl, rfl, rfl, fun _ m found => ⟨m, found, fun _ _ keeps => keeps, fun _ has => has⟩⟩

theorem Advances.trans {d d' d'' : Domains} (first : d.Advances d') (second : d'.Advances d'') : d.Advances d'' := by
  refine ⟨second.configuration.trans first.configuration, second.providers.trans first.providers,
    second.sink.trans first.sink, fun number m found => ?_⟩
  obtain ⟨m', found', keeps, has⟩ := first.managers number m found
  obtain ⟨m'', found'', keeps', has'⟩ := second.managers number m' found'
  exact ⟨m'', found'', fun fresh steady kept => keeps' fresh steady (keeps fresh steady kept),
    fun part here => has' part (has part here)⟩

theorem Advances.serves {d d' : Domains} (advances : d.Advances d') (deterministic : d.providers.Deterministic)
    {name : String} {number : Nat} (serves : d.Serves name number) : d'.Serves name number := by
  obtain ⟨config, fresh, m, found, made, present, keeps⟩ := serves
  obtain ⟨m', present', keeps', _⟩ := advances.managers number m present
  refine ⟨config, fresh, m', ?_, ?_, present', keeps' fresh (deterministic.allSteady made).toSteady keeps⟩
  · rw [advances.configuration, found]
  · rw [advances.providers, advances.sink, made]

theorem advances_adding (d : Domains) (name : String) (m : Manager) : d.Advances (d.adding name m) := by
  refine ⟨rfl, rfl, rfl, fun number other found => ⟨other, ?_, fun _ _ keeps => keeps, fun _ has => has⟩⟩
  have bound := (List.getElem?_eq_some_iff.mp found).1
  exact (List.getElem?_append_left bound).trans found

theorem advances_replacing {d : Domains} {number : Nat} {m m' : Manager} (found : d.managers[number]? = some m)
    (keeps : ∀ fresh : Manager, fresh.Steady → fresh.Keeps m → fresh.Keeps m')
    (has : ∀ part, m.Has part → m'.Has part) : d.Advances (d.replacing number m') := by
  refine ⟨rfl, rfl, rfl, fun other kept present => ?_⟩
  by_cases same : other = number
  · subst same
    cases found.symm.trans present
    have bound := (List.getElem?_eq_some_iff.mp found).1
    exact ⟨m', List.getElem?_set_self bound, keeps, has⟩
  · exact ⟨kept, (List.getElem?_set_ne (Ne.symm same)).trans present, fun _ _ keeps => keeps, fun _ has => has⟩

/-- Every domain can have a manager, every cached manager is one of its domain, and every manager is one of some
domain. -/
structure Sound (d : Domains) : Prop where
  deterministic : d.providers.Deterministic
  valid : d.configuration.Valid
  cached : ∀ name number, d.cached.get? name = some number → d.Serves name number
  numbered : ∀ (number : Nat) (m : Manager), d.managers[number]? = some m → ∃ name, d.Serves name number

theorem Sound.advance {d d' : Domains} (sound : d.Sound) (advances : d.Advances d')
    (cached : ∀ name number, d'.cached.get? name = some number →
      d.cached.get? name = some number ∨ d'.Serves name number)
    (numbered : ∀ (number : Nat) (m : Manager), d'.managers[number]? = some m →
      (∃ before, d.managers[number]? = some before) ∨ ∃ name, d'.Serves name number) : d'.Sound := by
  refine ⟨advances.providers ▸ sound.deterministic, advances.configuration ▸ sound.valid, fun name number found => ?_,
    fun number m found => ?_⟩
  · rcases cached name number found with before | serves
    · exact advances.serves sound.deterministic (sound.cached name number before)
    · exact serves
  · rcases numbered number m found with ⟨before, present⟩ | serves
    · obtain ⟨name, serves⟩ := sound.numbered number before present
      exact ⟨name, advances.serves sound.deterministic serves⟩
    · exact serves

theorem mem_cachedNames {d : Domains} {name : String} :
    name ∈ d.cachedNames ↔ ∃ number, d.cached.get? name = some number := by
  rw [cachedNames, SortedMap.mem_keys, SortedMap.contains, Option.isSome_iff_exists]

section Steps

variable {d : Domains} (sound : d.Sound)

include sound

theorem Sound.manager_unconfigured {name : String} {e : Error} (missing : d.configuration.domain name = .error e)
    (trail : Trail) : ((manager name).run.run d).run trail = ((.error e, d), trail) := by
  rw [manager_run, missing]
  cases cached : d.cached.get? name with
  | none => rfl
  | some number =>
    obtain ⟨_, _, _, found, _⟩ := sound.cached name number cached
    cases missing.symm.trans found

/-- Looking up a configured domain gives the number of a manager for it, which is cached from then on. -/
theorem Sound.manager_configured {name : String} {config : DomainConfig}
    (found : d.configuration.domain name = .ok config) (trail : Trail) :
    ∃ number d', ((manager name).run.run d).run trail = ((.ok number, d'), trail) ∧ d.Advances d' ∧ d'.Sound ∧
      d'.Serves name number ∧ ∀ other, other ∈ d'.cachedNames ↔ other = name ∨ other ∈ d.cachedNames := by
  rw [manager_run, found]
  cases cached : d.cached.get? name with
  | some number =>
    refine ⟨number, d, rfl, .refl d, sound, sound.cached name number cached, fun other => ⟨.inr, ?_⟩⟩
    rintro (rfl | present)
    · exact mem_cachedNames.mpr ⟨number, cached⟩
    · exact present
  | none =>
    have made : Manager.ofConfig config d.providers d.sink = .ok ⟨config, d.providers, d.sink, none, none, none⟩ :=
      Manager.ofConfig_eq_ok.mpr ⟨sound.valid name config found, rfl⟩
    simp only [made]
    generalize Manager.mk config d.providers d.sink none none none = m at made
    have serves : (d.adding name m).Serves name d.managers.length :=
      ⟨config, m, m, found, made, List.getElem?_concat_length, Manager.ofConfig_keeps made⟩
    refine ⟨_, _, rfl, d.advances_adding name m, ?_, serves, fun other => ?_⟩
    · refine sound.advance (d.advances_adding name m) (fun other number given => ?_) fun number other given => ?_
      · rw [adding, SortedMap.get?_insert] at given
        split at given
        · rename_i same
          cases given
          exact .inr (same ▸ serves)
        · exact .inl given
      · by_cases old : number < d.managers.length
        · exact .inl ⟨_, List.getElem?_eq_getElem old⟩
        · have bound := (List.getElem?_eq_some_iff.mp given).1
          have here : number = d.managers.length := by
            rw [adding, List.length_append, List.length_singleton] at bound
            omega
          exact .inr ⟨name, here ▸ serves⟩
    · simp only [cachedNames, SortedMap.mem_keys, adding, SortedMap.contains_insert]
      exact or_comm

/-- A question to a manager is answered as a fresh manager of its domain answers it. It builds parts that were missing,
and changes nothing else that a later call could notice. -/
theorem Sound.ask_present {number : Nat} {m : Manager} (present : d.managers[number]? = some m) (q : Question)
    (trail : Trail) :
    ∃ d', (withManager number q.put).after d trail = d' ∧ d.Advances d' ∧ d'.Sound ∧ d'.cached = d.cached ∧
      (∃ m', d'.managers[number]? = some m' ∧ m.Fills (q.attempts m trail) m') ∧
      ∀ name config fresh, d.Serves name number → d.configuration.domain name = .ok config →
        Manager.ofConfig config d.providers d.sink = .ok fresh →
        ∀ other, (withManager number q.put).result d trail = q.put.result fresh other := by
  have run := withManager_of_present d trail present q.put
  obtain ⟨name, config, fresh, kept, found, made, presentToo, keeps⟩ := sound.numbered number m present
  cases present.symm.trans presentToo
  obtain ⟨fills, _⟩ := q.put_attempts keeps trail
  have bound := (List.getElem?_eq_some_iff.mp present).1
  have advances : d.Advances (d.replacing number (q.put.after m trail)) :=
    advances_replacing present (fun other steady keeps => (q.put_operation.yields steady m trail keeps).2) fills.stays
  refine ⟨_, congrArg (·.1.2) run, advances, ?_, rfl, ⟨_, List.getElem?_set_self bound, fills⟩, ?_⟩
  · refine sound.advance advances (fun _ _ given => .inl given) fun other _ given => .inl ?_
    have within := (List.getElem?_eq_some_iff.mp given).1
    rw [replacing, List.length_set] at within
    exact ⟨_, List.getElem?_eq_getElem within⟩
  · rintro name config fresh ⟨config', fresh', _, found', made', presentToo, keeps⟩ found made other
    cases present.symm.trans presentToo
    cases found.symm.trans found'
    cases made.symm.trans made'
    have same := q.put_operation.result_eq (sound.deterministic.allSteady made) keeps (Manager.ofConfig_keeps made)
      trail other
    exact (congrArg (·.1.1) run).trans same

/-- A request to a configured domain is a question to the manager that looking up the domain gives. -/
theorem Sound.authorize_configured {name : String} {config : DomainConfig}
    (found : d.configuration.domain name = .ok config) (lookup : AclLookup) (request : Request) (trail : Trail) :
    ∃ number d', ((manager name).run.run d).run trail = ((.ok number, d'), trail) ∧ d.Advances d' ∧ d'.Sound ∧
      d'.Serves name number ∧ (∀ other, other ∈ d'.cachedNames ↔ other = name ∨ other ∈ d.cachedNames) ∧
      ((authorize name lookup request).run.run d).run trail =
        ((withManager number (Question.authorize lookup request).put).run.run d').run trail := by
  obtain ⟨number, d', run, advances, sound', serves, names⟩ := sound.manager_configured found trail
  refine ⟨number, d', run, advances, sound', serves, names, ?_⟩
  rw [authorize_run, DomainsM.result, DomainsM.after, DomainsM.left, run]
  rfl

theorem Sound.authorize_unconfigured {name : String} {e : Error} (missing : d.configuration.domain name = .error e)
    (lookup : AclLookup) (request : Request) (trail : Trail) :
    ((authorize name lookup request).run.run d).run trail = ((.error e, d), trail) := by
  rw [authorize_run, DomainsM.result, DomainsM.after, DomainsM.left, sound.manager_unconfigured missing trail]

end Steps

/-- Every part that was built was built once, and its manager has kept it. -/
structure BuiltOnce (d : Domains) (log : List (Nat × Part)) : Prop where
  once : log.Nodup
  kept : ∀ number part, (number, part) ∈ log → ∃ m, d.managers[number]? = some m ∧ m.Has part

theorem BuiltOnce.advance {d d' : Domains} {log : List (Nat × Part)} (built : d.BuiltOnce log)
    (advances : d.Advances d') : d'.BuiltOnce log := by
  refine ⟨built.once, fun number part member => ?_⟩
  obtain ⟨m, present, has⟩ := built.kept number part member
  obtain ⟨m', present', _, keeps⟩ := advances.managers number m present
  exact ⟨m', present', keeps part has⟩

theorem BuiltOnce.fill {d d' : Domains} {log : List (Nat × Part)} {number : Nat} {m m' : Manager}
    {attempts : List Attempt} (built : d.BuiltOnce log) (advances : d.Advances d')
    (present : d.managers[number]? = some m) (present' : d'.managers[number]? = some m') (fills : m.Fills attempts m') :
    d'.BuiltOnce (log ++ (builtBy attempts).map (number, ·)) := by
  refine ⟨?_, fun other part member => ?_⟩
  · refine built.once.append (fills.once.map fun _ _ same => (Prod.mk.inj same).2) ?_
    -- A part that was built before is still there, so it is not missing now.
    rintro ⟨other, part⟩ before now
    obtain ⟨_, new, same⟩ := List.mem_map.mp now
    cases same
    obtain ⟨_, presentToo, has⟩ := built.kept _ _ before
    cases present.symm.trans presentToo
    exact (fills.fills part new).1 has
  · rcases List.mem_append.mp member with before | now
    · exact (built.advance advances).kept other part before
    · obtain ⟨_, new, same⟩ := List.mem_map.mp now
      cases same
      exact ⟨m', present', (fills.fills part new).2⟩

/-- What a history has led to, as far as its calls tell. -/
structure Recorded (start : Domains) (past : List Deed) (d : Domains) : Prop where
  sound : d.Sound
  advances : start.Advances d
  handed : ∀ name number, Deed.manager name (.ok number) ∈ past → d.Serves name number
  names : ∀ name, name ∈ d.cachedNames ↔
    (∃ config, start.configuration.domain name = .ok config) ∧ Current past name
  built : d.BuiltOnce (past.flatMap Deed.built)

theorem recorded_start {configuration : Configuration} {providers : Providers} {sink : AuditSink}
    (valid : configuration.Valid) (deterministic : providers.Deterministic) :
    (start configuration providers sink).Recorded [] (start configuration providers sink) := by
  have uncached (name : String) : (start configuration providers sink).cached.get? name = none :=
    SortedMap.get?_empty name
  refine ⟨⟨deterministic, valid, fun name number found => ?_, fun number m found => ?_⟩, .refl _,
    fun _ _ member => ?_, fun name => ?_, .nil, fun _ _ member => ?_⟩
  · rw [uncached] at found
    cases found
  · cases found
  · cases member
  · rw [mem_cachedNames, uncached]
    constructor
    · rintro ⟨_, ⟨⟩⟩
    · rintro ⟨_, before, _, _, split, _⟩
      exact absurd split.symm (List.append_ne_nil_of_right_ne_nil _ (List.cons_ne_nil _ _))
  · cases member

section Record

variable {start d d' : Domains} {past : List Deed} (recorded : start.Recorded past d) (sound : d'.Sound)
  (advances : d.Advances d')

include recorded

theorem Recorded.configuration : d.configuration = start.configuration := recorded.advances.configuration

include sound advances

theorem Recorded.next {deed : Deed}
    (handed : ∀ name number, deed = .manager name (.ok number) → d'.Serves name number)
    (names : ∀ other, other ∈ d'.cachedNames ↔ (∃ config, start.configuration.domain other = .ok config) ∧
      (deed.lookup? = some other ∨ deed ≠ .remove other ∧ Current past other))
    (built : d'.BuiltOnce (past.flatMap Deed.built ++ deed.built)) : start.Recorded (past ++ [deed]) d' := by
  refine ⟨sound, recorded.advances.trans advances, fun name number member => ?_, fun name => ?_, ?_⟩
  · rcases List.mem_append.mp member with before | now
    · exact advances.serves recorded.sound.deterministic (recorded.handed name number before)
    · exact handed name number (List.mem_singleton.mp now).symm
  · rw [current_append]
    exact names name
  · rw [List.flatMap_append, List.flatMap_singleton]
    exact built

theorem Recorded.next_of_lookup {deed : Deed} {name : String} (looked : deed.lookup? = some name)
    (handed : ∀ name number, deed = .manager name (.ok number) → d'.Serves name number)
    (names : ∀ other, other ∈ d'.cachedNames ↔
      (other = name ∧ ∃ config, start.configuration.domain name = .ok config) ∨ other ∈ d.cachedNames)
    (built : d'.BuiltOnce (past.flatMap Deed.built ++ deed.built)) : start.Recorded (past ++ [deed]) d' := by
  refine recorded.next sound advances handed (fun other => ?_) built
  have kept : deed ≠ .remove other := fun same => by
    rw [same] at looked
    cases looked
  rw [names, recorded.names, looked]
  constructor
  · rintro (⟨rfl, configured⟩ | ⟨configured, current⟩)
    · exact ⟨configured, .inl rfl⟩
    · exact ⟨configured, .inr ⟨kept, current⟩⟩
  · rintro ⟨configured, same | ⟨_, current⟩⟩
    · cases same
      exact .inl ⟨rfl, configured⟩
    · exact .inr ⟨configured, current⟩

theorem Recorded.next_of_ask {number : Nat} {attempts : List Attempt} (cached : d'.cached = d.cached)
    (built : d'.BuiltOnce (past.flatMap Deed.built ++ (builtBy attempts).map (number, ·))) :
    start.Recorded (past ++ [.ask number attempts]) d' := by
  refine recorded.next sound advances (fun _ _ same => by cases same) (fun other => ?_) built
  rw [cachedNames, cached]
  refine (recorded.names other).trans (and_congr_right fun _ => ?_)
  rw [Deed.lookup?]
  constructor
  · intro current
    refine .inr ⟨?_, current⟩
    rintro ⟨⟩
  · rintro (impossible | ⟨_, current⟩)
    · cases impossible
    · exact current

end Record

section Calls

variable {start d : Domains} {past : List Deed} (recorded : start.Recorded past d)

include recorded

/-- Looking up a domain that is not configured is recorded without a change. -/
theorem Recorded.next_unconfigured {deed : Deed} {name : String} {e : Error}
    (missing : d.configuration.domain name = .error e) (looked : deed.lookup? = some name)
    (handed : ∀ name number, deed = .manager name (.ok number) → d.Serves name number) (built : deed.built = []) :
    start.Recorded (past ++ [deed]) d := by
  refine recorded.next_of_lookup recorded.sound (.refl d) looked handed (fun other => ⟨.inr, ?_⟩) ?_
  · rintro (⟨_, config, configured⟩ | present)
    · rw [← recorded.configuration, missing] at configured
      cases configured
    · exact present
  · rw [built, List.append_nil]
    exact recorded.built

theorem Recorded.next_manager (name : String) (trail : Trail) :
    start.Recorded (past ++ [.manager name ((manager name).result d trail)]) ((manager name).after d trail) := by
  rw [DomainsM.result, DomainsM.after]
  cases found : d.configuration.domain name with
  | error e =>
    rw [recorded.sound.manager_unconfigured found trail]
    exact recorded.next_unconfigured found rfl (fun _ _ same => by cases same) rfl
  | ok config =>
    obtain ⟨number, d', run, advances, sound, serves, names⟩ := recorded.sound.manager_configured found trail
    rw [run]
    refine recorded.next_of_lookup sound advances rfl ?_ (fun other => ?_) ?_
    · rintro _ _ ⟨⟩
      exact serves
    · rw [names, and_iff_left ⟨config, recorded.configuration ▸ found⟩]
    · rw [Deed.built, List.append_nil]
      exact recorded.built.advance advances

theorem Recorded.next_authorize (name : String) (lookup : AclLookup) (request : Request) (trail : Trail) :
    start.Recorded
      (past ++ [.authorize name ((manager name).result d trail) (d.authorizeAttempts name lookup request trail)])
      ((authorize name lookup request).after d trail) := by
  rw [authorizeAttempts, DomainsM.result, DomainsM.after, DomainsM.after, DomainsM.left]
  cases found : d.configuration.domain name with
  | error e =>
    rw [recorded.sound.manager_unconfigured found trail,
      recorded.sound.authorize_unconfigured found lookup request trail]
    exact recorded.next_unconfigured found rfl (fun _ _ same => by cases same) rfl
  | ok config =>
    obtain ⟨number, ready, run, advances, sound, serves, names, authorized⟩ :=
      recorded.sound.authorize_configured found lookup request trail
    obtain ⟨m, present⟩ := serves.present
    obtain ⟨d', after, advances', sound', cached, ⟨m', present', fills⟩, _⟩ :=
      sound.ask_present present (.authorize lookup request) trail
    have attempts : ready.attempts number (.authorize lookup request) trail =
        (Question.authorize lookup request).attempts m trail := by
      rw [Domains.attempts, present]
    rw [run, authorized]
    change start.Recorded _ ((withManager number (Question.authorize lookup request).put).after ready trail)
    rw [after]
    refine recorded.next_of_lookup sound' (advances.trans advances') rfl (fun _ _ same => by cases same)
      (fun other => ?_) ?_
    · rw [cachedNames, cached, and_iff_left ⟨config, recorded.configuration ▸ found⟩]
      exact names other
    · simp only [Deed.built, attempts]
      exact (recorded.built.advance advances).fill advances' present present' fills

theorem Recorded.next_remove (name : String) : start.Recorded (past ++ [.remove name]) (d.remove name).2 := by
  -- The manager keeps its number and all that it has built; only the name is forgotten.
  have advances : d.Advances (d.remove name).2 := ⟨rfl, rfl, rfl, (Advances.refl d).managers⟩
  have erased (other : String) :
      (d.remove name).2.cached.get? other = if name = other then none else d.cached.get? other :=
    SortedMap.get?_erase d.cached name other
  refine recorded.next ?_ advances (fun _ _ same => by cases same) (fun other => ?_) ?_
  · refine recorded.sound.advance advances (fun other number given => .inl ?_) fun _ m given => .inl ⟨m, given⟩
    rw [erased] at given
    split at given
    · cases given
    · exact given
  · have dropped : other ∈ (d.remove name).2.cachedNames ↔ name ≠ other ∧ other ∈ d.cachedNames := by
      rw [mem_cachedNames, mem_cachedNames, erased]
      by_cases same : name = other
      · rw [if_pos same]
        exact iff_of_false (fun ⟨_, present⟩ => by cases present) fun dropped => dropped.1 same
      · rw [if_neg same, and_iff_right same]
    have others : Deed.remove name ≠ .remove other ↔ name ≠ other := by rw [ne_eq, Deed.remove.injEq]
    rw [dropped, recorded.names, others, Deed.lookup?]
    constructor
    · rintro ⟨differs, configured, current⟩
      exact ⟨configured, .inr ⟨differs, current⟩⟩
    · rintro ⟨configured, impossible | ⟨differs, current⟩⟩
      · cases impossible
      · exact ⟨differs, configured, current⟩
  · rw [Deed.built, List.append_nil]
    exact recorded.built.advance advances

theorem Recorded.next_question (number : Nat) (q : Question) (trail : Trail) :
    start.Recorded (past ++ [.ask number (d.attempts number q trail)]) ((withManager number q.put).after d trail) := by
  cases present : d.managers[number]? with
  | none =>
    rw [DomainsM.after, withManager_of_missing d trail present, Domains.attempts, present]
    refine recorded.next_of_ask recorded.sound (.refl d) rfl ?_
    change d.BuiltOnce (past.flatMap Deed.built ++ [])
    rw [List.append_nil]
    exact recorded.built
  | some m =>
    obtain ⟨d', after, advances, sound, cached, ⟨m', present', fills⟩, _⟩ :=
      recorded.sound.ask_present present q trail
    rw [after, Domains.attempts, present]
    exact recorded.next_of_ask sound advances cached (recorded.built.fill advances present present' fills)

end Calls

theorem Reaches.recorded {start d : Domains} {past : List Deed} (reach : start.Reaches past d)
    (before : start.Recorded [] start) : start.Recorded past d := by
  induction reach with
  | start => exact before
  | manager name trail _ ih => exact ih.next_manager name trail
  | authorize name lookup request trail _ ih => exact ih.next_authorize name lookup request trail
  | remove name _ ih => exact ih.next_remove name
  | ask number q trail _ ih => exact ih.next_question number q trail

theorem cachedNames_ascending (d : Domains) : d.cachedNames.Pairwise (· < ·) :=
  List.pairwise_map.mpr (d.cached.ascending.imp compare_text_eq_lt.mp)

/-- What earlier calls left in the caches never shows in a reply. Over any valid configuration, with factories that
always give the same, as those of the library do, a request or a question is answered after any history as a fresh
manager of the domain answers it. In the whole history no part of a manager is built twice, where looking up a domain
attempts to build none, and the attempts noted for a question are the ones that it makes. The cached names ascend, and
they are those of the configured domains that were looked up and have not been dropped since. Looking up any other
domain is a configuration error that leaves no trace. -/
theorem replies_independent_of_history :
    (∀ library : Providers, library.Standard → library.Deterministic) ∧
    (∀ (domains : List DomainConfig) (configuration : Configuration) (providers : Providers) (sink : AuditSink),
      Configuration.ofDomains domains = .ok configuration → providers.Deterministic →
      ∀ (past : List Deed) (d : Domains), (start configuration providers sink).Reaches past d →
        (∀ name config, configuration.domain name = .ok config →
          ∃ fresh, Manager.ofConfig config providers sink = .ok fresh ∧
            (∀ lookup request trail other, (authorize name lookup request).result d trail =
              (Manager.authorize lookup request).result fresh other) ∧
            (∀ number, Deed.manager name (.ok number) ∈ past → ∀ (q : Question) trail other,
              (withManager number q.put).result d trail = q.put.result fresh other)) ∧
        (past.flatMap Deed.built).Nodup ∧
        (∀ name trail, (manager name).left d trail = trail) ∧
        (∀ (number : Nat) (m : Manager), d.managers[number]? = some m → ∀ (q : Question) trail,
          ∃ middle, m.Makes trail (q.attempts m trail) middle ∧ middle.Grows (q.put.left m trail)) ∧
        d.cachedNames.Pairwise (· < ·) ∧
        (∀ name, name ∈ d.cachedNames ↔ (∃ config, configuration.domain name = .ok config) ∧ Current past name) ∧
        (∀ name e, configuration.domain name = .error e → e.kind = .configuration ∧ ∀ trail,
          ((manager name).run.run d).run trail = ((.error e, d), trail) ∧
            ∀ lookup request, ((authorize name lookup request).run.run d).run trail = ((.error e, d), trail))) := by
  refine ⟨fun library standard => standard.deterministic, ?_⟩
  intro domains configuration providers sink ofDomains deterministic past d reach
  have valid := Configuration.valid_of_ofDomains ofDomains
  have recorded := reach.recorded (recorded_start valid deterministic)
  have sound := recorded.sound
  have same : d.configuration = configuration := recorded.advances.configuration
  have drawn : d.providers = providers := recorded.advances.providers
  have heard : d.sink = sink := recorded.advances.sink
  subst same drawn heard
  refine ⟨fun name config found => ?_, recorded.built.once, fun name trail => d.manager_left trail name,
    fun number m present q trail => ?_, d.cachedNames_ascending, recorded.names, fun name e missing => ?_⟩
  · obtain ⟨fresh, made⟩ : ∃ fresh, Manager.ofConfig config d.providers d.sink = .ok fresh :=
      ⟨_, Manager.ofConfig_eq_ok.mpr ⟨valid name config found, rfl⟩⟩
    refine ⟨fresh, made, fun lookup request trail other => ?_, fun number handed q trail other => ?_⟩
    · obtain ⟨number, ready, _, advances, soundReady, serves, _, authorized⟩ :=
        sound.authorize_configured found lookup request trail
      obtain ⟨m, present⟩ := serves.present
      obtain ⟨_, _, _, _, _, _, answers⟩ := soundReady.ask_present present (.authorize lookup request) trail
      rw [← advances.configuration] at found
      rw [← advances.providers, ← advances.sink] at made
      exact (congrArg (·.1.1) authorized).trans (answers name config fresh serves found made other)
    · have serves := recorded.handed name number handed
      obtain ⟨m, present⟩ := serves.present
      obtain ⟨_, _, _, _, _, _, answers⟩ := sound.ask_present present q trail
      exact answers name config fresh serves found made other
  · obtain ⟨_, _, fresh, kept, _, _, presentToo, keeps⟩ := sound.numbered number m present
    cases present.symm.trans presentToo
    exact (q.put_attempts keeps trail).2
  · refine ⟨d.configuration.failsOnly_domain name e missing, fun trail => ?_⟩
    exact ⟨sound.manager_unconfigured missing trail, fun lookup request =>
      sound.authorize_unconfigured missing lookup request trail⟩

/-- The second module of the chain cannot be built. The first is built by the first request and kept through the
failure, so the manager, which has been dropped and is still in use, does not build it again. -/
theorem replies_independent_of_history_failing :
    let broken : Error := .configuration "no key"
    let modules := Providers.builtin.modules.register "broken" (.ofOptions fun _ => .error broken)
    let providers := { Providers.builtin with modules }
    let config := ((DomainConfig.ofName "ledger").withModule (.plain "permit-all" .required)).withModule
      (.plain "broken" .optional)
    let configuration : Configuration := ⟨SortedMap.empty.insert "ledger" config⟩
    let lookup : AclLookup := fun _ => .ok none
    let request : Request := ⟨.generic ⟨.web, "/"⟩, .anonymous, .empty "Roles"⟩
    let question : Question := .authorize lookup request
    ∃ past d, Configuration.ofDomains [config] = .ok configuration ∧ providers.Deterministic ∧
      (start configuration providers .keep).Reaches past d ∧ Deed.manager "ledger" (.ok 0) ∈ past ∧
      past.flatMap Deed.built = [(0, .mapping), (0, .module 0)] ∧ d.cachedNames = [] ∧
      (withManager 0 question.put).result d .empty = .error broken ∧
      (authorize "ledger" lookup request).result d .empty = .error broken := by
  intro broken modules providers config configuration lookup request question
  have ofDomains : Configuration.ofDomains [config] = .ok configuration := by
    have valid : config.validate = .ok () := by decide
    simp only [Configuration.ofDomains, List.foldlM_cons, List.foldlM_nil, Configuration.withDomain, valid]
    rfl
  have deterministic : providers.Deterministic := by
    obtain ⟨_, roleMappers, principalMappers, trustModules⟩ := Providers.Standard.plain.deterministic
    refine ⟨fun id options => ?_, roleMappers, principalMappers, trustModules⟩
    have fails : Factory.Makes (.ofOptions fun _ => .error broken) Module.Layer :=
      makes_ofOptions (fun _ _ made => by cases made) fun _ => failsOnly_error rfl
    exact (Registry.silent_of_makes (makes_register fails Providers.makes_builtin_modules id) options).steady
  have domain : configuration.domain "ledger" = .ok config :=
    Configuration.domain_eq_ok.mpr (SortedMap.get?_insert_self ..)
  have first : (start configuration providers .keep).Reaches _ _ := .manager "ledger" .empty .start
  have reach := ((first.ask 0 question .empty).remove "ledger").ask 0 question .empty
  obtain ⟨served, _⟩ := replies_independent_of_history.2 [config] configuration providers .keep ofDomains deterministic
    _ _ reach
  obtain ⟨fresh, made, requests, questions⟩ := served "ledger" config domain
  obtain ⟨_, rfl⟩ := Manager.ofConfig_eq_ok.mp made
  have given : (manager "ledger").result (start configuration providers .keep) .empty = .ok 0 := by
    rw [DomainsM.result, manager_run]
    decide +kernel
  have fails : (Manager.authorize lookup request).result ⟨config, providers, .keep, none, none, none⟩ .empty =
      .error broken := by
    decide +kernel
  rw [given] at reach
  refine ⟨_, _, ofDomains, deterministic, reach, List.mem_cons_self, by decide +kernel, by decide +kernel, ?_, ?_⟩
  · exact (questions 0 (by rw [given]; exact List.mem_cons_self) question .empty .empty).trans fails
  · exact (requests lookup request .empty .empty).trans fails

end Domains

end AccessControl
