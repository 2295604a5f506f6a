import AccessControl.Configuration
import AccessControl.Proofs.DomainRuns

namespace AccessControl

namespace DomainConfig

/-- The domain has a name, and every entry of its four chains has an identifier. Blanks alone are none. -/
structure WellFormed (d : DomainConfig) : Prop where
  named : isBlankText d.name = false
  authorization : ∀ e ∈ d.authorization, isBlankText e.moduleId = false
  trust : ∀ e ∈ d.trust, isBlankText e.moduleId = false
  roleMapping : ∀ e ∈ d.roleMapping, isBlankText e.providerId = false
  principalMapping : ∀ e ∈ d.principalMapping, isBlankText e.providerId = false

/-- What is to be reported about a domain behind others, if anything: that it is not well-formed, or else that an
earlier one has its name. -/
inductive Fault (earlier : List DomainConfig) (d : DomainConfig) : Error → Prop
  | unnamed : isBlankText d.name = true → Fault earlier d (.configuration "security domain name is empty")
  | unidentified : isBlankText d.name = false → ¬d.WellFormed →
      Fault earlier d (.configuration s!"security domain '{d.name}' has an entry with an empty module id")
  | repeated : d.WellFormed → d.name ∈ earlier.map (·.name) →
      Fault earlier d (.configuration s!"security domain '{d.name}' is defined more than once")

theorem wellFormed_iff {d : DomainConfig} :
    d.WellFormed ↔ isBlankText d.name = false ∧ d.providerIds.any isBlankText = false := by
  rw [List.any_eq_false]
  simp only [providerIds, List.forall_mem_append, List.forall_mem_map, Bool.not_eq_true]
  constructor
  · rintro ⟨named, authorization, trust, roleMapping, principalMapping⟩
    exact ⟨named, ⟨⟨authorization, trust⟩, roleMapping⟩, principalMapping⟩
  · rintro ⟨named, ⟨⟨authorization, trust⟩, roleMapping⟩, principalMapping⟩
    exact ⟨named, authorization, trust, roleMapping, principalMapping⟩

theorem validate_cases (d : DomainConfig) (earlier : List DomainConfig) :
    d.WellFormed ∧ d.validate = .ok () ∨ ¬d.WellFormed ∧ ∃ e, d.validate = .error e ∧ d.Fault earlier e := by
  rw [wellFormed_iff, validate]
  cases blank : isBlankText d.name with
  | true => exact .inr ⟨nofun, _, rfl, .unnamed blank⟩
  | false =>
    cases nameless : d.providerIds.any isBlankText with
    | false => exact .inl ⟨⟨rfl, rfl⟩, rfl⟩
    | true =>
      have malformed : ¬d.WellFormed := fun wellFormed => by
        rw [(wellFormed_iff.mp wellFormed).2] at nameless
        cases nameless
      exact .inr ⟨nofun, _, rfl, .unidentified blank malformed⟩

theorem Fault.kind_eq {earlier : List DomainConfig} {d : DomainConfig} {e : Error} (fault : d.Fault earlier e) :
    e.kind = .configuration := by
  cases fault <;> rfl

/-- A domain with a fault is not well-formed or has the name of an earlier one. -/
theorem Fault.spoils {earlier : List DomainConfig} {d : DomainConfig} {e : Error} (fault : d.Fault earlier e) :
    ¬d.WellFormed ∨ d.name ∈ earlier.map (·.name) := by
  cases fault with
  | unnamed blank => exact .inl fun wellFormed => Bool.eq_false_iff.mp wellFormed.named blank
  | unidentified _ malformed => exact .inl malformed
  | repeated _ member => exact .inr member

end DomainConfig

namespace Configuration

/-- The configuration has exactly these domains, each under its name, and they are as they should be. -/
structure Collects (c : Configuration) (domains : List DomainConfig) : Prop where
  wellFormed : ∀ d ∈ domains, d.WellFormed
  distinct : (domains.map (·.name)).Nodup
  lookup : ∀ name d, c.domains.get? name = some d ↔ d ∈ domains ∧ d.name = name

theorem collects_empty : empty.Collects [] := ⟨nofun, List.nodup_nil, fun _ _ => ⟨nofun, nofun⟩⟩

theorem withDomain_of_contains {c : Configuration} {d : DomainConfig} (valid : d.validate = .ok ())
    (taken : c.domains.contains d.name = true) :
    c.withDomain d = .error (.configuration s!"security domain '{d.name}' is defined more than once") := by
  rw [withDomain, valid]
  simp only [taken, if_true]
  rfl

theorem withDomain_of_free {c : Configuration} {d : DomainConfig} (valid : d.validate = .ok ())
    (free : c.domains.contains d.name = false) : c.withDomain d = .ok ⟨c.domains.insert d.name d⟩ := by
  rw [withDomain, valid]
  simp only [free, Bool.false_eq_true, if_false]
  rfl

section Collects

variable {c : Configuration} {domains : List DomainConfig} (collects : c.Collects domains)

include collects

theorem Collects.contains_iff {name : String} : c.domains.contains name = true ↔ name ∈ domains.map (·.name) := by
  simp only [SortedMap.contains, Option.isSome_iff_exists, collects.lookup, List.mem_map]

/-- A further domain of a new name is found under it, and the others as before. -/
theorem Collects.insert {d : DomainConfig} (wellFormed : d.WellFormed) (fresh : d.name ∉ domains.map (·.name)) :
    Collects ⟨c.domains.insert d.name d⟩ (domains ++ [d]) := by
  refine ⟨?_, ?_, fun name other => ?_⟩
  · exact List.forall_mem_append.mpr ⟨collects.wellFormed, List.forall_mem_singleton.mpr wellFormed⟩
  · rw [List.map_append]
    exact collects.distinct.append (List.nodup_singleton _) (List.disjoint_singleton.mpr fresh)
  · rw [SortedMap.get?_insert, List.mem_append, List.mem_singleton]
    split_ifs with here
    · constructor
      · rintro ⟨⟩
        exact ⟨.inr rfl, here⟩
      · rintro ⟨old | rfl, named⟩
        · exact absurd (List.mem_map.mpr ⟨other, old, named.trans here.symm⟩) fresh
        · rfl
    · have other_ne : other.name = name → other ≠ d := fun named same => here (same ▸ named)
      rw [collects.lookup]
      exact ⟨fun ⟨member, named⟩ => ⟨.inl member, named⟩,
        fun ⟨member, named⟩ => ⟨member.resolve_right (other_ne named), named⟩⟩

theorem withDomain_cases (d : DomainConfig) :
    (∃ next, c.withDomain d = .ok next ∧ next.Collects (domains ++ [d])) ∨
      ∃ e, c.withDomain d = .error e ∧ d.Fault domains e := by
  rcases d.validate_cases domains with ⟨wellFormed, valid⟩ | ⟨_, e, invalid, fault⟩
  · by_cases taken : d.name ∈ domains.map (·.name)
    · exact .inr ⟨_, withDomain_of_contains valid (collects.contains_iff.mpr taken), .repeated wellFormed taken⟩
    · have free : c.domains.contains d.name = false :=
        Bool.eq_false_iff.mpr fun found => taken (collects.contains_iff.mp found)
      exact .inl ⟨_, withDomain_of_free valid free, collects.insert wellFormed taken⟩
  · refine .inr ⟨e, ?_, fault⟩
    rw [withDomain, invalid]
    rfl

end Collects

/-- Either all domains of a list are collected, or the first one with a fault is reported. -/
theorem ofDomains_cases (domains : List DomainConfig) :
    (∃ c, ofDomains domains = .ok c ∧ c.Collects domains) ∨
      ∃ before d after e, domains = before ++ d :: after ∧ (∃ c : Configuration, c.Collects before) ∧
        d.Fault before e ∧ ofDomains domains = .error e :=
  foldlM_cases (fun seen (c : Configuration) => c.Collects seen) (fun seen (d : DomainConfig) e => d.Fault seen e)
    (fun _ _ d collects => withDomain_cases collects d) collects_empty domains

/-- A list of domains is collected when they are well-formed and their names are distinct, letter by letter. Then the
names are listed in ascending order, each domain is found under its name as it was given, and there is no other. Else
the first domain that is not well-formed or repeats a name is reported. A document is read as the list that it
holds, whatever decodes it. -/
theorem ofDomains_collects (domains : List DomainConfig) :
    ((∃ c, ofDomains domains = .ok c) ↔ (∀ d ∈ domains, d.WellFormed) ∧ (domains.map (·.name)).Nodup) ∧
    (∀ c, ofDomains domains = .ok c →
      c.names.Pairwise (· < ·) ∧ (∀ name, name ∈ c.names ↔ name ∈ domains.map (·.name)) ∧
      (∀ d ∈ domains, c.domain d.name = .ok d) ∧
      ∀ name ∉ domains.map (·.name),
        c.domain name = .error (.configuration s!"security domain '{name}' is not configured")) ∧
    (∀ e, ofDomains domains = .error e → e.kind = .configuration ∧
      ∃ before d after, domains = before ++ d :: after ∧ (∀ earlier ∈ before, earlier.WellFormed) ∧
        (before.map (·.name)).Nodup ∧ d.Fault before e) ∧
    ∀ (decode : DocumentDecoder) source, decode source = .ok domains →
      ofDocument decode source = ofDomains domains := by
  have read : ∀ (decode : DocumentDecoder) source, decode source = .ok domains →
      ofDocument decode source = ofDomains domains := by
    intro decode source holds
    rw [ofDocument, holds]
  rcases ofDomains_cases domains with ⟨c, run, collects⟩ | ⟨before, d, after, e, split, ⟨_, collects⟩, fault, run⟩
  · refine ⟨⟨fun _ => ⟨collects.wellFormed, collects.distinct⟩, fun _ => ⟨c, run⟩⟩, fun c' run' => ?_,
      fun e failed => (nomatch run.symm.trans failed), read⟩
    cases run.symm.trans run'
    refine ⟨List.pairwise_map.mpr (c.domains.ascending.imp compare_text_eq_lt.mp), fun name => ?_, fun d member => ?_,
      fun name missing => ?_⟩
    · rw [← collects.contains_iff]
      exact SortedMap.mem_keys
    · exact domain_eq_ok.mpr ((collects.lookup d.name d).mpr ⟨member, rfl⟩)
    · have absent : c.domains.get? name = none := Option.eq_none_iff_forall_ne_some.mpr fun d found =>
        missing (List.mem_map.mpr ⟨d, (collects.lookup name d).mp found⟩)
      rw [domain, absent]
  · refine ⟨⟨fun ⟨c, run'⟩ => (nomatch run.symm.trans run'), fun ⟨wellFormed, distinct⟩ => ?_⟩,
      fun c run' => (nomatch run.symm.trans run'), fun e' failed => ?_, read⟩
    · rw [split] at wellFormed distinct
      rcases fault.spoils with malformed | member
      · exact absurd (wellFormed d (by simp)) malformed
      · rw [List.map_append, List.map_cons] at distinct
        exact absurd List.mem_cons_self ((List.nodup_append'.mp distinct).2.2 member)
    · cases run.symm.trans failed
      exact ⟨fault.kind_eq, before, d, after, split, collects.wellFormed, collects.distinct, fault⟩

/-- Two names that differ in a blank are distinct, and the names are listed in order. Of two faults the first one
counts, although the second is there from the start. -/
theorem ofDomains_collects_unsorted :
    let ledger := (DomainConfig.ofName "ledger").withModule (.plain "permit-all" .required)
    let padded := DomainConfig.ofName " ledger"
    let nameless := (DomainConfig.ofName "audit").withModule (.plain "\t" .optional)
    let source := "[[domain]]\nname = 'b'\n[[domain]]\nname = 'a'\n"
    (∃ c, ofDomains [ledger, padded] = .ok c ∧ c.names.Pairwise (· < ·) ∧ " ledger" ∈ c.names ∧
      c.domain "ledger" = .ok ledger ∧
      c.domain "Ledger" = .error (.configuration "security domain 'Ledger' is not configured")) ∧
    (∃ e, ofDomains [padded, ledger, padded, nameless] = .error e ∧
      e = .configuration "security domain ' ledger' is defined more than once" ∧ e.kind = .configuration ∧
      ∃ before d after, [padded, ledger, padded, nameless] = before ++ d :: after ∧
        (∀ earlier ∈ before, earlier.WellFormed) ∧ (before.map (·.name)).Nodup ∧ d.Fault before e) ∧
    ∃ domains, Toml.decoder source = .ok domains ∧ domains.map (·.name) = ["b", "a"] ∧
      ofDocument Toml.decoder source = ofDomains domains := by
  intro ledger padded nameless source
  have wellFormed : ∀ d ∈ [ledger, padded], d.WellFormed := by
    simp only [DomainConfig.wellFormed_iff]
    decide +kernel
  have distinct : ([ledger, padded].map (·.name)).Nodup := by decide
  obtain ⟨c, run⟩ := (ofDomains_collects [ledger, padded]).1.mpr ⟨wellFormed, distinct⟩
  obtain ⟨ascending, names, found, missing⟩ := (ofDomains_collects [ledger, padded]).2.1 c run
  have refused : ofDomains [padded, ledger, padded, nameless] =
      .error (.configuration "security domain ' ledger' is defined more than once") :=
    map_eq_error.mp (show Except.map Configuration.names _ = _ by decide +kernel)
  have named : (Toml.decoder source).map (List.map (·.name)) = .ok ["b", "a"] := by decide +kernel
  obtain ⟨domains, read, both⟩ := map_eq_ok.mp named
  have listed : " ledger" ∈ c.names := (names " ledger").mpr (by decide)
  exact ⟨⟨c, run, ascending, listed, found ledger List.mem_cons_self, missing "Ledger" (by decide)⟩,
    ⟨_, refused, rfl, (ofDomains_collects _).2.2.1 _ refused⟩, domains, read, both,
    (ofDomains_collects domains).2.2.2 Toml.decoder source read⟩

end Configuration

end AccessControl
