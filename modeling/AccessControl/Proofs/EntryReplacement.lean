import AccessControl.Proofs.ChainVerdict
import AccessControl.Proofs.ContextRefinement

namespace AccessControl

/-- A domain with another chain of modules. -/
def DomainConfig.withChain (d : DomainConfig) (entries : List ModuleEntry) : DomainConfig :=
  { d with authorization := entries }

/-- The opinions that the modules of some entries have about a request, with the flags under which they count. -/
def opinions (entries : List ModuleEntry) (modules : List Module) (lookup : AclLookup) (request : Request) :
    List (ControlFlag × Outcome) :=
  decisive ((entries.zip modules).map fun s => (s.1.flag, s.2.answer lookup request))

/-- Modules built for two lists of entries that have the same opinions about every request. -/
structure SameOpinions (entries entries' : List ModuleEntry) (modules modules' : List Module) : Prop where
  size : entries.length = modules.length
  size' : entries'.length = modules'.length
  same : ∀ lookup request, opinions entries modules lookup request = opinions entries' modules' lookup request

/-- Building the modules of two lists of entries fails with the same error, or it gives modules of the same opinions. -/
def Registry.Equivalent (registry : Registry Module) (entries entries' : List ModuleEntry) : Prop :=
  Alike (SameOpinions entries entries') (registry.results entries) (registry.results entries')

/-- Whatever two contexts have been asked before, they answer every request alike. -/
def Context.SameAnswers (fresh fresh' : Context) : Prop :=
  ∀ c c', fresh.Reaches c → fresh'.Reaches c' → ∀ lookup request trail trail',
    ((c.authorize lookup request).run trail).1.1 = ((c'.authorize lookup request).run trail').1.1

/-- No context can be made of either domain, for the same reason, or those made of them answer alike. -/
def DomainConfig.Interchangeable (registry : Registry Module) (config config' : DomainConfig) : Prop :=
  ∀ sink, Alike Context.SameAnswers (Context.ofConfig config registry sink) (Context.ofConfig config' registry sink)

/-- An entry of a module that the registry knows and always builds alike. -/
structure Registry.Offers (registry : Registry Module) (e : ModuleEntry) : Prop where
  named : isBlankText e.moduleId = false
  known : registry.contains e.moduleId = true
  steady : registry.Steady e.moduleId e.options

theorem opinions_append {entries modules} (size : entries.length = modules.length) (more : List ModuleEntry)
    (moreModules : List Module) (lookup : AclLookup) (request : Request) :
    opinions (entries ++ more) (modules ++ moreModules) lookup request =
      opinions entries modules lookup request ++ opinions more moreModules lookup request := by
  unfold opinions decisive
  rw [List.zip_append size, List.map_append, List.filter_append]

theorem SameOpinions.append {entries entries' more more' : List ModuleEntry}
    {modules modules' others others' : List Module} (first : SameOpinions entries entries' modules modules')
    (second : SameOpinions more more' others others') :
    SameOpinions (entries ++ more) (entries' ++ more') (modules ++ others) (modules' ++ others') := by
  refine ⟨?_, ?_, fun lookup request => ?_⟩
  · rw [List.length_append, List.length_append, first.size, second.size]
  · rw [List.length_append, List.length_append, first.size', second.size']
  · rw [opinions_append first.size, opinions_append first.size', first.same, second.same]

namespace Registry

variable {registry : Registry Module}

theorem results_append (entries more : List ModuleEntry) :
    registry.results (entries ++ more) = (do
      let modules ← registry.results entries
      let others ← registry.results more
      pure (modules ++ others)) :=
  List.mapM_append

theorem length_of_results {entries : List ModuleEntry} {modules : List Module}
    (built : registry.results entries = .ok modules) : entries.length = modules.length :=
  (mapM_eq_ok.mp built).length_eq

theorem Equivalent.refl (entries : List ModuleEntry) : registry.Equivalent entries entries := by
  unfold Equivalent
  cases built : registry.results entries with
  | error e => exact .error e
  | ok modules =>
    have size := length_of_results built
    exact .ok ⟨size, size, fun _ _ => rfl⟩

theorem Equivalent.append {entries entries' more more' : List ModuleEntry}
    (first : registry.Equivalent entries entries') (second : registry.Equivalent more more') :
    registry.Equivalent (entries ++ more) (entries' ++ more') := by
  unfold Equivalent
  rw [results_append, results_append]
  refine Alike.bind first fun modules modules' here => ?_
  refine Alike.bind second fun others others' there => ?_
  exact .ok (here.append there)

end Registry

namespace Context

theorem conclude_congr {c c' : Context} (domain : c.domain = c'.domain) (settings : c.settings = c'.settings)
    {o o' : ChainOutcome} (decision : o.decision = o'.decision) (error : o.decidingError = o'.decidingError) :
    c.conclude o = c'.conclude o' := by
  simp only [conclude, domain, settings, decision, error]

/-- Contexts of chains that mean the same have the same verdict on every request. -/
theorem verdict_congr {c c' : Context} (domain : c.domain = c'.domain) (settings : c.settings = c'.settings)
    (registry : c.registry = c'.registry) (equivalent : c.registry.Equivalent c.entries c'.entries)
    (lookup : AclLookup) (request : Request) : c.verdict lookup request = c'.verdict lookup request := by
  unfold verdict
  rw [← registry, ← settings]
  -- The two chains need not have as many steps, so they are compared only through the steps with an opinion.
  refine Alike.bind_eq equivalent fun modules modules' related => ?_
  congr 1
  funext resource
  have here := aggregate_decisive (c.outcomes lookup { request with resource } modules)
  have there := aggregate_decisive (c'.outcomes lookup { request with resource } modules')
  have same : decisive (c.outcomes lookup { request with resource } modules) =
      decisive (c'.outcomes lookup { request with resource } modules') := related.same lookup { request with resource }
  rw [← same] at there
  exact conclude_congr domain settings (here.1.symm.trans there.1) (here.2.symm.trans there.2)

theorem ofConfig_registry {config : DomainConfig} {registry : Registry Module} {sink : AuditSink} {fresh : Context}
    (made : ofConfig config registry sink = .ok fresh) : fresh.registry = registry := by
  obtain ⟨_, _, rfl⟩ := ofConfig_eq_ok.mp made
  rfl

theorem steady_of_ofConfig {config : DomainConfig} {registry : Registry Module} {sink : AuditSink} {fresh : Context}
    (made : ofConfig config registry sink = .ok fresh)
    (steady : ∀ e ∈ config.authorization, registry.Steady e.moduleId e.options) : fresh.Steady := by
  intro e member
  rw [ofConfig_entries made] at member
  rw [ofConfig_registry made]
  exact steady e member

theorem sameAnswers_of_equivalent {fresh fresh' : Context} (domain : fresh.domain = fresh'.domain)
    (settings : fresh.settings = fresh'.settings) (registry : fresh.registry = fresh'.registry)
    (equivalent : fresh.registry.Equivalent fresh.entries fresh'.entries) (start : fresh.Keeps fresh)
    (start' : fresh'.Keeps fresh') (steady : fresh.Steady) (steady' : fresh'.Steady) : fresh.SameAnswers fresh' := by
  intro c c' reach reach' lookup request trail trail'
  have answer := ((reach.keeps steady start).authorize steady lookup request trail).1
  have answer' := ((reach'.keeps steady' start').authorize steady' lookup request trail').1
  rw [answer, answer', verdict_congr domain settings registry equivalent]

end Context

namespace DomainConfig

theorem validate_withChain (config : DomainConfig) {entries entries' : List ModuleEntry}
    (blanks : entries.any (isBlankText ·.moduleId) = entries'.any (isBlankText ·.moduleId)) :
    (config.withChain entries).validate = (config.withChain entries').validate := by
  have ids : (config.withChain entries).providerIds.any isBlankText =
      (config.withChain entries').providerIds.any isBlankText := by
    unfold providerIds withChain
    simp only [List.any_append, List.any_map, Function.comp_def, blanks]
  unfold validate
  rw [ids]
  rfl

theorem ofConfig_withChain (config : DomainConfig) (registry : Registry Module) (sink : AuditSink)
    {entries entries' : List ModuleEntry}
    (blanks : entries.any (isBlankText ·.moduleId) = entries'.any (isBlankText ·.moduleId))
    (unknown : entries.find? (fun e => !registry.contains e.moduleId) =
      entries'.find? fun e => !registry.contains e.moduleId) :
    Alike (fun fresh fresh' => fresh.domain = fresh'.domain ∧ fresh.settings = fresh'.settings)
      (Context.ofConfig (config.withChain entries) registry sink)
      (Context.ofConfig (config.withChain entries') registry sink) := by
  unfold Context.ofConfig
  rw [config.validate_withChain blanks]
  refine .bind_same fun _ _ => ?_
  simp only [withChain, unknown]
  cases entries'.find? fun e => !registry.contains e.moduleId with
  | some e => exact .error _
  | none => exact .ok ⟨rfl, rfl⟩

section Replacement

variable {registry : Registry Module} {before after entries entries' : List ModuleEntry}

theorem any_blank_of_offered (offered : ∀ e ∈ entries, registry.Offers e) :
    (before ++ entries ++ after).any (isBlankText ·.moduleId) = (before ++ after).any (isBlankText ·.moduleId) := by
  have none : entries.any (isBlankText ·.moduleId) = false := by
    rw [List.any_eq_false]
    intro e member
    rw [(offered e member).named]
    exact nofun
  rw [List.any_append, List.any_append, List.any_append, none, Bool.or_false]

theorem find_unknown_of_offered (offered : ∀ e ∈ entries, registry.Offers e) :
    (before ++ entries ++ after).find? (fun e => !registry.contains e.moduleId) =
      (before ++ after).find? fun e => !registry.contains e.moduleId := by
  have none : entries.find? (fun e => !registry.contains e.moduleId) = none := by
    rw [List.find?_eq_none]
    intro e member
    rw [(offered e member).known]
    exact nofun
  rw [List.find?_append, List.find?_append, List.find?_append, none, Option.or_none]

theorem forall_mem_replacement {p : ModuleEntry → Prop} (around : ∀ e ∈ before ++ after, p e)
    (inside : ∀ e ∈ entries, p e) : ∀ e ∈ before ++ entries ++ after, p e := by
  intro e member
  rcases List.mem_append.mp member with member | member
  · rcases List.mem_append.mp member with member | member
    · exact around e (List.mem_append_left _ member)
    · exact inside e member
  · exact around e (List.mem_append_right _ member)

/-- In any place of a chain, entries may be replaced by others that mean the same. The entries around them need not be
known, and their modules may be any that are always built alike. -/
theorem interchangeable_of_equivalent (steady : ∀ e ∈ before ++ after, registry.Steady e.moduleId e.options)
    (offered : ∀ e ∈ entries, registry.Offers e) (offered' : ∀ e ∈ entries', registry.Offers e)
    (equivalent : registry.Equivalent entries entries') (config : DomainConfig) :
    Interchangeable registry (config.withChain (before ++ entries ++ after))
      (config.withChain (before ++ entries' ++ after)) := by
  intro sink
  have blanks : (before ++ entries ++ after).any (isBlankText ·.moduleId) =
      (before ++ entries' ++ after).any (isBlankText ·.moduleId) := by
    rw [any_blank_of_offered offered, any_blank_of_offered offered']
  have unknown : (before ++ entries ++ after).find? (fun e => !registry.contains e.moduleId) =
      (before ++ entries' ++ after).find? fun e => !registry.contains e.moduleId := by
    rw [find_unknown_of_offered offered, find_unknown_of_offered offered']
  have made := config.ofConfig_withChain registry sink blanks unknown
  refine made.mono fun fresh fresh' here there ⟨domain, settings⟩ => ?_
  have whole : registry.Equivalent (before ++ entries ++ after) (before ++ entries' ++ after) :=
    (((Registry.Equivalent.refl before).append equivalent).append (Registry.Equivalent.refl after))
  have steadyHere := Context.steady_of_ofConfig here
    (forall_mem_replacement steady fun e member => (offered e member).steady)
  have steadyThere := Context.steady_of_ofConfig there
    (forall_mem_replacement steady fun e member => (offered' e member).steady)
  refine Context.sameAnswers_of_equivalent domain settings ?_ ?_ (Context.ofConfig_keeps here)
    (Context.ofConfig_keeps there) steadyHere steadyThere
  · rw [Context.ofConfig_registry here, Context.ofConfig_registry there]
  · rw [Context.ofConfig_registry here, Context.ofConfig_entries here, Context.ofConfig_entries there]
    exact whole

end Replacement

end DomainConfig

end AccessControl
