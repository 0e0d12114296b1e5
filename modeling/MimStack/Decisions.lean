import MimStack.Lib.Outcome
import MimStack.Policy

/-!
What a decision means. An approved crossing keeps releasability and restrictive
categories and fits under the registered target; fewer privileges and stricter labels
earn no approval that more privileges and weaker labels would not.
-/
namespace MimPolicy
open RustText Fallible MimLabeling
open PolicyDecisionPoint

theorem mem_releasableCountries {l : ConfidentialityLabel} {country : String} :
    country ∈ l.releasableCountries ↔
      ∃ c ∈ l.categories, eqIgnoreAsciiCase c.tagName "Releasable to" = true ∧ country ∈ c.values := by
  simp only [ConfidentialityLabel.releasableCountries, List.mem_flatMap, List.mem_filter, and_assoc]

theorem downgradeCategories_accepted (config : DowngradeConfig) {target : SecurityDomain}
    {l : ConfidentialityLabel} (valid : l.validate = .ok ())
    (accepted : ∀ country ∈ l.releasableCountries, target.acceptsCountry country = true) :
    downgradeCategories config target l.categories = l.categories := by
  have filled := ConfidentialityLabel.validateCategories_values
    (ConfidentialityLabel.validate_categories valid)
  have same : l.categories.map (fun c => if eqIgnoreAsciiCase c.tagName "Releasable to" then
      { c with values := c.values.filter target.acceptsCountry } else c) = l.categories := by
    refine (List.map_congr_left fun c member => ?_).trans (List.map_id _)
    by_cases releasing : eqIgnoreAsciiCase c.tagName "Releasable to" = true
    · have kept : c.values.filter target.acceptsCountry = c.values :=
        List.filter_eq_self.mpr fun country listed =>
          accepted country (mem_releasableCountries.mpr ⟨c, member, releasing, listed⟩)
      simp [releasing, kept]
    · simp [releasing]
  unfold downgradeCategories
  split
  · simp only [same]
    split
    · refine List.filter_eq_self.mpr fun c member => ?_
      split
      · have := filled c member
        simpa using this
      · rfl
    · rfl
  · rfl

theorem downgradedLabelForTarget_ok_iff {label l : ConfidentialityLabel} {target : SecurityDomain}
    {config : DowngradeConfig} : downgradedLabelForTarget label target config = .ok l ↔
      l = { label with
        classification := if target.maxClassification < label.classification then
          target.maxClassification else label.classification
        categories := downgradeCategories config target label.categories } ∧
      l.validate = .ok () := by
  unfold downgradedLabelForTarget
  simp only
  split
  · rename_i failed
    constructor
    · intro same
      cases same
    · intro made
      obtain ⟨rfl, valid⟩ := made
      cases failed.symm.trans valid
  · rename_i valid
    constructor
    · intro same
      obtain rfl := Except.ok.inj same
      exact ⟨rfl, valid⟩
    · intro made
      obtain ⟨rfl, _⟩ := made
      rfl

theorem downgradedLabelForTarget_ok {label l : ConfidentialityLabel} {target : SecurityDomain}
    {config : DowngradeConfig} (valid : label.validate = .ok ())
    (accepted : ∀ country ∈ label.releasableCountries, target.acceptsCountry country = true)
    (above : target.maxClassification < label.classification) :
    downgradedLabelForTarget label target config = .ok l ↔
      l = { label with classification := target.maxClassification } ∧ l.validate = .ok () := by
  rw [downgradedLabelForTarget_ok_iff, downgradeCategories_accepted config valid accepted,
    if_pos above]

theorem validate_with_classification {l : ConfidentialityLabel} (valid : l.validate = .ok ())
    (level : ClassificationLevel) : { l with classification := level }.validate = .ok () ↔
      l.policy.allowsClassification level = true := by
  have marked := ConfidentialityLabel.validate_categories valid
  unfold ConfidentialityLabel.validate at valid ⊢
  split at valid
  · cases valid
  · rename_i named
    rw [if_neg named]
    by_cases allowed : l.policy.allowsClassification level = true
    · simp [allowed, marked]
    · simp [allowed]

section Crossing

structure CrossingChecks (subject : SubjectAttributes) (label : ConfidentialityLabel)
    (mission : Option String) (source target : SecurityDomain) : Prop where
  caveats : ∀ caveat ∈ label.restrictiveCategoryValues, subject.holdsCaveat caveat = true
  mission : (source.missionCompartments = [] ∧ target.missionCompartments = []) ∨
    ∃ m, mission = some m ∧ source.acceptsMission m = true ∧ target.acceptsMission m = true
  releasable : ∀ country ∈ label.releasableCountries, target.acceptsCountry country = true

theorem checkMissionCompartment_pair_none (missionId : Option String)
    (source target : SecurityDomain) :
    checkMissionCompartment missionId source (some target) = none ↔
      (source.missionCompartments = [] ∧ target.missionCompartments = []) ∨
        ∃ m, missionId = some m ∧ source.acceptsMission m = true ∧
          target.acceptsMission m = true := by
  have required : requiresMission source (some target) = false ↔
      source.missionCompartments = [] ∧ target.missionCompartments = [] := by
    simp [requiresMission]
  unfold checkMissionCompartment
  cases needed : requiresMission source (some target) with
  | false => simp [required.mp needed]
  | true =>
    have closed : ¬ (source.missionCompartments = [] ∧ target.missionCompartments = []) := by
      intro opened
      rw [required.mpr opened] at needed
      cases needed
    cases missionId with
    | none => simp [closed]
    | some m =>
      by_cases first : source.acceptsMission m = true
      · by_cases second : target.acceptsMission m = true <;> simp [closed, first, second]
      · simp [closed, first]

def crossing (subject : SubjectAttributes) (label : ConfidentialityLabel)
    (source target : DomainId) (mission : Option String) : PolicyContext :=
  ⟨subject, .fromLabel label, ⟨.crossDomainTransfer, source, some target, mission⟩, label⟩

theorem crossDomainContext_ok {subject : SubjectAttributes} {label : ConfidentialityLabel}
    {source target : SecurityDomain} {missionId : Option String} {context : PolicyContext} :
    crossDomainContext subject label source target missionId = .ok context ↔
      label.validate = .ok () ∧ source.id ≠ target.id ∧
        context = crossing subject label source.id target.id (missionId.or subject.missionId) := by
  unfold crossDomainContext
  cases label.validate with
  | error e => simp
  | ok u =>
    by_cases same : source.id = target.id
    · simp [same]
    · simp only [beq_iff_eq, same, if_false, Except.ok.injEq, ne_eq, not_false_eq_true, true_and,
        @eq_comm _ context]
      rfl

structure Reaches (pdp : PolicyDecisionPoint) (context : PolicyContext) (targetId : DomainId)
    (source target : SecurityDomain) : Prop where
  asked : context.environment.targetDomain = some targetId
  paired : ∃ policy, pdp.policyForPair context.environment.sourceDomain targetId = some policy
  knownSource : pdp.domain context.environment.sourceDomain = some source
  knownTarget : pdp.domain targetId = some target
  caveats : ∀ caveat ∈ context.resource.handlingCaveats, context.subject.holdsCaveat caveat = true
  mission : (source.missionCompartments = [] ∧ target.missionCompartments = []) ∨
    ∃ m, resolveMissionId context.subject context.environment = some m ∧
      source.acceptsMission m = true ∧ target.acceptsMission m = true
  releasable : ∀ country ∈ context.resource.releasableCountries,
    target.acceptsCountry country = true

theorem evaluateCrossDomain_reaches (pdp : PolicyDecisionPoint) (context : PolicyContext)
    (decision : PolicyDecision) :
    Approves (evaluateCrossDomain pdp context) decision ↔ ∃ targetId source target,
      Reaches pdp context targetId source target ∧
        Approves (releaseInto pdp context target) decision := by
  constructor
  · intro approved
    unfold evaluateCrossDomain requireDomain at approved
    cases asked : context.environment.targetDomain with
    | none => simp [asked, Approves] at approved
    | some targetId =>
    cases paired : pdp.policyForPair context.environment.sourceDomain targetId with
    | none => simp [asked, paired, Approves] at approved
    | some policy =>
    cases source : pdp.domain context.environment.sourceDomain with
    | none => simp [asked, paired, source, Approves] at approved
    | some s =>
    cases target : pdp.domain targetId with
    | none => simp [asked, paired, source, target, Approves] at approved
    | some t =>
    simp only [asked, paired, source, target] at approved
    rw [approves_check _ _ _ (checkHandlingCaveats_denies _ _), checkHandlingCaveats_none,
      approves_check _ _ _ (checkMissionCompartment_denies _ _ _),
      checkMissionCompartment_pair_none,
      approves_check _ _ _ (checkReleasability_denies _ _ _), checkReleasability_none] at approved
    obtain ⟨caveats, mission, releasable, released⟩ := approved
    exact ⟨targetId, s, t, ⟨asked, ⟨policy, paired⟩, source, target, caveats, mission, releasable⟩,
      released⟩
  · intro reached
    obtain ⟨targetId, source, target, reaches, released⟩ := reached
    obtain ⟨policy, paired⟩ := reaches.paired
    simp only [evaluateCrossDomain, requireDomain, reaches.asked, paired, reaches.knownSource,
      reaches.knownTarget]
    rw [approves_check _ _ _ (checkHandlingCaveats_denies _ _), checkHandlingCaveats_none,
      approves_check _ _ _ (checkMissionCompartment_denies _ _ _),
      checkMissionCompartment_pair_none,
      approves_check _ _ _ (checkReleasability_denies _ _ _), checkReleasability_none]
    exact ⟨reaches.caveats, reaches.mission, reaches.releasable, released⟩

theorem evaluateCrossDomain_approves (pdp : PolicyDecisionPoint) (subject : SubjectAttributes)
    (label : ConfidentialityLabel) (sourceId targetId : DomainId) (mission : Option String)
    (decision : PolicyDecision) :
    Approves (evaluateCrossDomain pdp (crossing subject label sourceId targetId mission)) decision ↔
      ∃ policy source target, pdp.policyForPair sourceId targetId = some policy ∧
        pdp.domain sourceId = some source ∧ pdp.domain targetId = some target ∧
        CrossingChecks subject label (mission.or subject.missionId) source target ∧
        Approves (releaseInto pdp (crossing subject label sourceId targetId mission) target)
          decision := by
  rw [evaluateCrossDomain_reaches]
  constructor
  · intro reached
    obtain ⟨asked, source, target, reaches, released⟩ := reached
    obtain rfl := Option.some.inj reaches.asked
    obtain ⟨policy, paired⟩ := reaches.paired
    exact ⟨policy, source, target, paired, reaches.knownSource, reaches.knownTarget,
      ⟨reaches.caveats, reaches.mission, reaches.releasable⟩, released⟩
  · intro crossed
    obtain ⟨policy, source, target, paired, knownSource, knownTarget, checks, released⟩ := crossed
    exact ⟨targetId, source, target, ⟨rfl, ⟨policy, paired⟩, knownSource, knownTarget,
      checks.caveats, checks.mission, checks.releasable⟩, released⟩

theorem releaseInto_approves {pdp : PolicyDecisionPoint} {subject : SubjectAttributes}
    {label : ConfidentialityLabel} {sourceId targetId : DomainId} {mission : Option String}
    {target : SecurityDomain} {decision : PolicyDecision} (valid : label.validate = .ok ())
    (accepted : ∀ country ∈ label.releasableCountries, target.acceptsCountry country = true)
    (released : Approves (releaseInto pdp (crossing subject label sourceId targetId mission) target)
      decision) :
    ∃ effective, decision.effectiveLabel = some effective ∧ effective.validate = .ok () ∧
      effective.classification ≤ target.maxClassification ∧
      effective.categories = label.categories := by
  obtain ⟨result, approved⟩ := released
  unfold releaseInto crossing at result
  by_cases above : target.maxClassification < label.classification
  · by_cases floor : ClassificationLevel.unclassified ≤ target.maxClassification
    · simp only [if_pos above, if_pos floor] at result
      cases lowered : downgradedLabelForTarget label target pdp.downgrade with
      | error e =>
        rw [lowered] at result
        cases result
      | ok effective =>
        rw [lowered] at result
        obtain rfl := Except.ok.inj result
        obtain ⟨rfl, still⟩ := (downgradedLabelForTarget_ok valid accepted above).mp lowered
        exact ⟨_, rfl, still, le_refl _, rfl⟩
    · simp only [if_pos above, if_neg floor] at result
      obtain rfl := Except.ok.inj result
      exact absurd rfl approved
  · simp only [if_neg above] at result
    obtain rfl := Except.ok.inj result
    exact ⟨label, rfl, valid, not_lt.mp above, rfl⟩

theorem releaseInto_times {pdp : PolicyDecisionPoint} {context : PolicyContext}
    {target : SecurityDomain} {decision : PolicyDecision} {effective : ConfidentialityLabel}
    (released : releaseInto pdp context target = .ok decision)
    (passed : decision.effectiveLabel = some effective) :
    effective.creationTime = context.label.creationTime ∧
      effective.reviewDateTime = context.label.reviewDateTime := by
  unfold releaseInto at released
  split at released
  · split at released
    · split at released
      · cases released
      · rename_i lowered downgraded
        obtain ⟨rfl, _⟩ := downgradedLabelForTarget_ok_iff.mp downgraded
        obtain rfl := Except.ok.inj released
        obtain rfl := Option.some.inj passed
        exact ⟨rfl, rfl⟩
    · obtain rfl := Except.ok.inj released
      cases passed
  · obtain rfl := Except.ok.inj released
    obtain rfl := Option.some.inj passed
    exact ⟨rfl, rfl⟩

theorem releaseInto_permits {pdp : PolicyDecisionPoint} {subject : SubjectAttributes}
    {label : ConfidentialityLabel} {sourceId targetId : DomainId} {mission : Option String}
    {target : SecurityDomain} (valid : label.validate = .ok ())
    (accepted : ∀ country ∈ label.releasableCountries, target.acceptsCountry country = true) :
    Permits (releaseInto pdp (crossing subject label sourceId targetId mission) target) ↔
      label.classification ≤ target.maxClassification ∨
        (.unclassified ≤ target.maxClassification ∧
          label.policy.allowsClassification target.maxClassification = true) := by
  unfold releaseInto crossing
  by_cases above : target.maxClassification < label.classification
  · have exceeds : ¬ label.classification ≤ target.maxClassification := not_le.mpr above
    by_cases floor : ClassificationLevel.unclassified ≤ target.maxClassification
    · simp only [if_pos above, exceeds, floor, false_or, true_and]
      rw [← validate_with_classification valid]
      cases lowered : downgradedLabelForTarget label target pdp.downgrade with
      | error e =>
        refine iff_of_false (by simp [Permits]) fun still => ?_
        rw [(downgradedLabelForTarget_ok valid accepted above).mpr ⟨rfl, still⟩] at lowered
        cases lowered
      | ok effective =>
        obtain ⟨rfl, still⟩ := (downgradedLabelForTarget_ok valid accepted above).mp lowered
        exact iff_of_true ⟨_, rfl, by simp⟩ still
    · simp [Permits, above, floor, exceeds, PolicyDecision.denied]
  · simp [Permits, above, not_lt.mp above]

theorem evaluateCrossDomain_permitted (pep : PolicyEnforcementPoint) (subject : SubjectAttributes)
    (label : ConfidentialityLabel) (source target : SecurityDomain) (missionId : Option String) :
    Permits (pep.evaluateCrossDomain subject label source target missionId) ↔
      label.validate = .ok () ∧ source.id ≠ target.id ∧ ∃ policy s t,
        pep.pdp.policyForPair source.id target.id = some policy ∧
        pep.pdp.domain source.id = some s ∧ pep.pdp.domain target.id = some t ∧
        CrossingChecks subject label (missionId.or subject.missionId) s t ∧
        (label.classification ≤ t.maxClassification ∨ (.unclassified ≤ t.maxClassification ∧
          label.policy.allowsClassification t.maxClassification = true)) := by
  have resolved : (missionId.or subject.missionId).or subject.missionId =
      missionId.or subject.missionId := by
    cases missionId <;> simp
  unfold PolicyEnforcementPoint.evaluateCrossDomain
  constructor
  · rintro ⟨decision, evaluated, approved⟩
    cases built : crossDomainContext subject label source target missionId with
    | error e =>
      rw [built] at evaluated
      cases evaluated
    | ok context =>
      rw [built] at evaluated
      obtain ⟨valid, distinct, rfl⟩ := crossDomainContext_ok.mp built
      obtain ⟨policy, s, t, paired, knownSource, knownTarget, checks, released⟩ :=
        (evaluateCrossDomain_approves _ _ _ _ _ _ _).mp ⟨evaluated, approved⟩
      rw [resolved] at checks
      exact ⟨valid, distinct, policy, s, t, paired, knownSource, knownTarget, checks,
        (releaseInto_permits valid checks.releasable).mp ⟨decision, released⟩⟩
  · rintro ⟨valid, distinct, policy, s, t, paired, knownSource, knownTarget, checks, ceiling⟩
    obtain ⟨decision, released⟩ : Permits (releaseInto pep.pdp (crossing subject label source.id
        target.id (missionId.or subject.missionId)) t) :=
      (releaseInto_permits valid checks.releasable).mpr ceiling
    rw [← resolved] at checks
    refine ⟨decision, ?_⟩
    rw [crossDomainContext_ok.mpr ⟨valid, distinct, rfl⟩]
    exact (evaluateCrossDomain_approves _ _ _ _ _ _ _).mpr
      ⟨policy, s, t, paired, knownSource, knownTarget, checks, released⟩

theorem evaluateCrossDomain_times {pep : PolicyEnforcementPoint} {subject : SubjectAttributes}
    {label effective : ConfidentialityLabel} {source target : SecurityDomain}
    {missionId : Option String} {decision : PolicyDecision}
    (evaluated : pep.evaluateCrossDomain subject label source target missionId = .ok decision)
    (approved : decision.effect ≠ .deny) (passed : decision.effectiveLabel = some effective) :
    effective.creationTime = label.creationTime ∧ effective.reviewDateTime = label.reviewDateTime := by
  unfold PolicyEnforcementPoint.evaluateCrossDomain at evaluated
  cases built : crossDomainContext subject label source target missionId with
  | error e =>
    rw [built] at evaluated
    cases evaluated
  | ok context =>
    rw [built] at evaluated
    obtain ⟨_, _, rfl⟩ := crossDomainContext_ok.mp built
    obtain ⟨_, _, t, _, released, _⟩ := (evaluateCrossDomain_reaches pep.pdp (crossing subject label
      source.id target.id (missionId.or subject.missionId)) decision).mp ⟨evaluated, approved⟩
    exact releaseInto_times released passed

/-- What an approved crossing guarantees, between the domains registered under the two ids. -/
structure Crosses (subject : SubjectAttributes) (label effective : ConfidentialityLabel)
    (mission : Option String) (source target : SecurityDomain) : Prop where
  valid : effective.validate = .ok ()
  contained : effective.classification ≤ target.maxClassification
  accepted : ∀ country ∈ effective.releasableCountries, target.acceptsCountry country = true
  countries : effective.releasableCountries = label.releasableCountries
  kept : ∀ value ∈ label.restrictiveCategoryValues, value ∈ effective.restrictiveCategoryValues
  held : ∀ value ∈ label.restrictiveCategoryValues, subject.holdsCaveat value = true
  mission : source.missionCompartments ≠ [] ∨ target.missionCompartments ≠ [] →
    ∃ m, mission = some m ∧ source.acceptsMission m = true ∧ target.acceptsMission m = true

theorem CrossingChecks.crosses {subject : SubjectAttributes} {label effective : ConfidentialityLabel}
    {mission : Option String} {source target : SecurityDomain}
    (checks : CrossingChecks subject label mission source target)
    (valid : effective.validate = .ok ())
    (contained : effective.classification ≤ target.maxClassification)
    (categories : effective.categories = label.categories) :
    Crosses subject label effective mission source target := by
  have countries : effective.releasableCountries = label.releasableCountries := by
    simp only [ConfidentialityLabel.releasableCountries, categories]
  have restrictive : effective.restrictiveCategoryValues = label.restrictiveCategoryValues := by
    simp only [ConfidentialityLabel.restrictiveCategoryValues, categories]
  refine ⟨valid, contained, countries ▸ checks.releasable, countries, ?_, checks.caveats, ?_⟩
  · intro value member
    exact restrictive ▸ member
  · intro compartmented
    rcases checks.mission with ⟨opened, opened'⟩ | accepted
    · simp [opened, opened'] at compartmented
    · exact accepted

theorem cross_domain_sound (pdp : PolicyDecisionPoint) (subject : SubjectAttributes)
    (label : ConfidentialityLabel) (source target : SecurityDomain) (missionId : Option String)
    {context : PolicyContext}
    (built : crossDomainContext subject label source target missionId = .ok context)
    {decision : PolicyDecision} (evaluated : evaluate pdp context = .ok decision)
    (approved : decision.effect ≠ .deny) :
    (∃ policy ∈ pdp.crossDomainPolicies, policy.sourceDomain = source.id ∧
      policy.targetDomain = target.id) ∧
    ∃ registeredSource registeredTarget effective,
      pdp.domain source.id = some registeredSource ∧ pdp.domain target.id = some registeredTarget ∧
      decision.effectiveLabel = some effective ∧
      Crosses subject label effective (missionId.or subject.missionId) registeredSource
        registeredTarget := by
  obtain ⟨valid, _, rfl⟩ := crossDomainContext_ok.mp built
  obtain ⟨policy, s, t, paired, knownSource, knownTarget, checks, released⟩ :=
    (evaluateCrossDomain_approves _ _ _ _ _ _ _).mp ⟨evaluated, approved⟩
  have resolved : (missionId.or subject.missionId).or subject.missionId =
      missionId.or subject.missionId := by
    cases missionId <;> simp
  rw [resolved] at checks
  obtain ⟨effective, passed, still, contained, categories⟩ :=
    releaseInto_approves valid checks.releasable released
  refine ⟨⟨policy, List.mem_of_find?_eq_some paired, ?_⟩, s, t, effective, knownSource, knownTarget,
    passed, checks.crosses still contained categories⟩
  have matched := List.find?_some paired
  simpa using matched

theorem cross_domain_sound_fixture :
    let subject : SubjectAttributes := { subjectId := "guard", clearance := .secret }
    let label := (ConfidentialityLabel.new .nato .secret).withCategory (.releasableTo ["USA"])
    let source : SecurityDomain := { id := ⟨"DOMAIN-HIGH"⟩, name := "", maxClassification := .secret }
    let target : SecurityDomain := { id := ⟨"DOMAIN-LOW"⟩, name := "", maxClassification := .secret }
    ∃ registeredSource registeredTarget effective,
      PolicyStore.presetHighToLow.domain source.id = some registeredSource ∧
      PolicyStore.presetHighToLow.domain target.id = some registeredTarget ∧
      Crosses subject label effective none registeredSource registeredTarget := by
  intro subject label source target
  have checked : ((crossDomainContext subject label source target none).toOption.bind fun context =>
      (evaluate PolicyStore.presetHighToLow context).toOption).any
        (fun decision => decision.effect != .deny) = true := by
    decide +kernel
  obtain ⟨context, decision, built, evaluated, approved⟩ := ok_of_any checked
  obtain ⟨_, s, t, effective, knownSource, knownTarget, _, crosses⟩ :=
    cross_domain_sound _ subject label source target none built evaluated
      (bne_iff_ne.mp approved)
  exact ⟨s, t, effective, knownSource, knownTarget, crosses⟩

/-- The domain handed in can be stricter than the one registered under its id. -/
theorem handed_target_exceeded :
    let subject : SubjectAttributes := { subjectId := "guard", clearance := .secret }
    let label := ConfidentialityLabel.new .nato .restricted
    let source : SecurityDomain := { id := ⟨"DOMAIN-HIGH"⟩, name := "", maxClassification := .secret }
    let target : SecurityDomain :=
      { id := ⟨"DOMAIN-LOW"⟩, name := "", maxClassification := .unclassified }
    ∃ context decision, crossDomainContext subject label source target none = .ok context ∧
      evaluate PolicyStore.presetHighToLow context = .ok decision ∧ decision.effect ≠ .deny ∧
      ¬ ∃ effective, decision.effectiveLabel = some effective ∧
        Crosses subject label effective none source target := by
  intro subject label source target
  have checked : ((crossDomainContext subject label source target none).toOption.bind fun context =>
      (evaluate PolicyStore.presetHighToLow context).toOption).any
        (fun decision => decision.effect != .deny && decision.effectiveLabel.all fun effective =>
          target.maxClassification < effective.classification) = true := by
    decide +kernel
  obtain ⟨context, decision, built, evaluated, both⟩ := ok_of_any checked
  obtain ⟨approved, above⟩ := Bool.and_eq_true_iff.mp both
  refine ⟨context, decision, built, evaluated, bne_iff_ne.mp approved, ?_⟩
  rintro ⟨effective, passed, crosses⟩
  rw [passed, Option.all_some, decide_eq_true_iff] at above
  exact absurd crosses.contained (not_le.mpr above)

end Crossing

section Privileges

/-- Some of the subject's privileges taken away, none added. -/
structure Reduces (reduced subject : SubjectAttributes) : Prop where
  clearance : reduced.clearance ≤ subject.clearance
  caveats : reduced.handlingCaveats ⊆ subject.handlingCaveats
  nationality : reduced.nationality = none ∨ reduced.nationality = subject.nationality
  mission : reduced.missionId = none ∨ reduced.missionId = subject.missionId

def Denies (result : Except PolicyError PolicyDecision) : Prop :=
  ∃ decision, result = .ok decision ∧ decision.effect = .deny

def effectOf (result : Except PolicyError PolicyDecision) : Option PolicyEffect :=
  result.toOption.map (·.effect)

theorem effectOf_some {result : Except PolicyError PolicyDecision} {effect : PolicyEffect} :
    effectOf result = some effect ↔ ∃ decision, result = .ok decision ∧ decision.effect = effect := by
  cases result with
  | error e => simp [effectOf, Except.toOption]
  | ok decision => simp [effectOf, Except.toOption]

theorem permits_of_effect {result : Except PolicyError PolicyDecision}
    (permitted : effectOf result = some .permit) : Permits result := by
  obtain ⟨decision, same, effect⟩ := effectOf_some.mp permitted
  exact ⟨decision, same, by simp [effect]⟩

theorem denies_not_permits {result : Except PolicyError PolicyDecision} (denied : Denies result) :
    ¬ Permits result := by
  obtain ⟨decision, same, denial⟩ := denied
  rintro ⟨decision', same', approved⟩
  obtain rfl := Except.ok.inj (same.symm.trans same')
  exact approved denial

theorem Reduces.holdsCaveat {reduced subject : SubjectAttributes} (less : Reduces reduced subject)
    {caveat : String} (holds : reduced.holdsCaveat caveat = true) :
    subject.holdsCaveat caveat = true := by
  obtain ⟨held, member, same⟩ := List.any_eq_true.mp holds
  exact List.any_eq_true.mpr ⟨held, less.caveats member, same⟩

/-- A subject without a nationality is not asked for one: whoever has one must be admitted by the
label and accepted by the domain. -/
def NationalityPasses (subject : SubjectAttributes) (label : ConfidentialityLabel)
    (domain : SecurityDomain) : Prop :=
  ∀ n, subject.nationality = some n →
    (label.releasableCountries = [] ∨ n ∈ label.releasableCountries) ∧
      domain.acceptsCountry n = true

theorem AccessPermitted.restore {reduced subject : SubjectAttributes} {label : ConfidentialityLabel}
    {domain : SecurityDomain} (less : Reduces reduced subject)
    (granted : AccessPermitted reduced label domain)
    (national : NationalityPasses subject label domain) : AccessPermitted subject label domain := by
  refine ⟨fun caveat listed => less.holdsCaveat (granted.caveats caveat listed), ?_,
    le_trans granted.cleared less.clearance, granted.contained, national, granted.releasable⟩
  rcases granted.mission with opened | ⟨m, holds, accepted⟩
  · exact .inl opened
  · rcases less.mission with dropped | same
    · rw [dropped] at holds
      cases holds
    · exact .inr ⟨m, same ▸ holds, accepted⟩

theorem CrossingChecks.restore {reduced subject : SubjectAttributes} {label : ConfidentialityLabel}
    {missionId : Option String} {source target : SecurityDomain} (less : Reduces reduced subject)
    (checks : CrossingChecks reduced label (missionId.or reduced.missionId) source target) :
    CrossingChecks subject label (missionId.or subject.missionId) source target := by
  refine ⟨fun caveat listed => less.holdsCaveat (checks.caveats caveat listed), ?_,
    checks.releasable⟩
  rcases checks.mission with opened | ⟨m, holds, accepted⟩
  · exact .inl opened
  · refine .inr ⟨m, ?_, accepted⟩
    cases missionId with
    | some given => exact holds
    | none =>
      rcases less.mission with dropped | same
      · rw [dropped] at holds
        cases holds
      · exact same ▸ holds

theorem evaluateAccess_decides {pdp : PolicyDecisionPoint} {context : PolicyContext}
    {domain : SecurityDomain} (known : pdp.domain context.environment.sourceDomain = some domain) :
    ∃ decision, evaluateAccess pdp context = .ok decision := by
  unfold evaluateAccess requireDomain
  rw [known]
  simp only
  repeat' split
  all_goals exact ⟨_, rfl⟩

theorem crossing_not_local (pep : PolicyEnforcementPoint) (subject : SubjectAttributes)
    (label : ConfidentialityLabel) (domain : SecurityDomain) :
    ¬ Permits (pep.evaluateAccess subject label .crossDomainTransfer domain) := by
  rintro ⟨decision, evaluated, _⟩
  unfold PolicyEnforcementPoint.evaluateAccess accessContext at evaluated
  cases valid : label.validate with
  | error e =>
    rw [valid] at evaluated
    cases evaluated
  | ok u =>
    rw [valid] at evaluated
    cases evaluated

theorem permits_or_denies {pep : PolicyEnforcementPoint} {other subject : SubjectAttributes}
    {label : ConfidentialityLabel} {operation : AccessOperation} {domain : SecurityDomain}
    (permitted : Permits (pep.evaluateAccess other label operation domain)) :
    Permits (pep.evaluateAccess subject label operation domain) ∨
      Denies (pep.evaluateAccess subject label operation domain) := by
  by_cases local' : operation = .crossDomainTransfer
  · exact absurd (local' ▸ permitted) (crossing_not_local pep other label domain)
  · obtain ⟨valid, registered, known, _⟩ :=
      (evaluateAccess_permitted pep other label operation domain local').mp permitted
    have decides : ∃ decision, pep.evaluateAccess subject label operation domain = .ok decision := by
      unfold PolicyEnforcementPoint.evaluateAccess accessContext
      rw [valid]
      cases operation with
      | crossDomainTransfer => exact absurd rfl local'
      | read => exact evaluateAccess_decides known
      | write => exact evaluateAccess_decides known
      | delete => exact evaluateAccess_decides known
    obtain ⟨decision, evaluated⟩ := decides
    by_cases denial : decision.effect = .deny
    · exact .inr ⟨decision, evaluated, denial⟩
    · exact .inl ⟨decision, evaluated, denial⟩

theorem permits_restored {pep : PolicyEnforcementPoint} {reduced subject : SubjectAttributes}
    (less : Reduces reduced subject) {label : ConfidentialityLabel} {operation : AccessOperation}
    {domain : SecurityDomain}
    (permitted : Permits (pep.evaluateAccess reduced label operation domain)) :
    Permits (pep.evaluateAccess subject label operation domain) ↔
      ∀ registered, pep.pdp.domain domain.id = some registered →
        NationalityPasses subject label registered := by
  have local' : operation ≠ .crossDomainTransfer := by
    rintro rfl
    exact crossing_not_local pep reduced label domain permitted
  obtain ⟨valid, registered, known, granted⟩ :=
    (evaluateAccess_permitted pep reduced label operation domain local').mp permitted
  rw [evaluateAccess_permitted pep subject label operation domain local']
  constructor
  · rintro ⟨_, registered', known', granted'⟩ other known''
    obtain rfl := Option.some.inj (known'.symm.trans known'')
    exact granted'.national
  · intro national
    exact ⟨valid, registered, known, granted.restore less (national registered known)⟩

/-- A crossing asks for no nationality; a local access does, of subjects that have one. -/
theorem privileges_monotone (pep : PolicyEnforcementPoint) {reduced subject : SubjectAttributes}
    (less : Reduces reduced subject) (label : ConfidentialityLabel) :
    (∀ operation domain, reduced.nationality = subject.nationality →
      Denies (pep.evaluateAccess subject label operation domain) →
      ¬ Permits (pep.evaluateAccess reduced label operation domain)) ∧
    (∀ operation domain,
      (Denies (pep.evaluateAccess subject label operation domain) →
        ¬ Permits (pep.evaluateAccess reduced label operation domain)) ↔
      (Permits (pep.evaluateAccess reduced label operation domain) →
        ∀ registered, pep.pdp.domain domain.id = some registered →
          NationalityPasses subject label registered)) ∧
    ∀ source target missionId,
      Denies (pep.evaluateCrossDomain subject label source target missionId) →
      ¬ Permits (pep.evaluateCrossDomain reduced label source target missionId) := by
  refine ⟨?_, ?_, ?_⟩
  · intro operation domain kept denied permitted
    refine denies_not_permits denied ((permits_restored less permitted).mpr ?_)
    intro registered known n named
    have own : Reduces reduced reduced := ⟨le_refl _, List.Subset.refl _, .inr rfl, .inr rfl⟩
    exact (permits_restored own permitted).mp permitted registered known n (kept.trans named)
  · intro operation domain
    constructor
    · intro keeps permitted
      refine (permits_restored less permitted).mp ?_
      have decided : Permits (pep.evaluateAccess subject label operation domain) ∨
          Denies (pep.evaluateAccess subject label operation domain) := permits_or_denies permitted
      rcases decided with restored | denied
      · exact restored
      · exact absurd permitted (keeps denied)
    · intro national denied permitted
      exact denies_not_permits denied ((permits_restored less permitted).mpr (national permitted))
  · intro source target missionId denied permitted
    obtain ⟨valid, distinct, policy, s, t, paired, knownSource, knownTarget, checks, ceiling⟩ :=
      (evaluateCrossDomain_permitted pep reduced label source target missionId).mp permitted
    exact denies_not_permits denied
      ((evaluateCrossDomain_permitted pep subject label source target missionId).mpr ⟨valid,
        distinct, policy, s, t, paired, knownSource, knownTarget, checks.restore less, ceiling⟩)

/-- Dropping a nationality that the label does not admit turns the denial into a permit. -/
theorem nationality_dropped :
    let domain : SecurityDomain := { id := ⟨"DOMAIN-HIGH"⟩, name := "", maxClassification := .secret }
    let subject : SubjectAttributes :=
      { subjectId := "analyst", clearance := .secret, nationality := some "GBR" }
    let reduced : SubjectAttributes := { subject with nationality := none }
    let label := (ConfidentialityLabel.new .nato .secret).withCategory (.releasableTo ["USA"])
    let pep : PolicyEnforcementPoint := ⟨PolicyStore.presetHighToLow⟩
    Reduces reduced subject ∧ Denies (pep.evaluateAccess subject label .read domain) ∧
      Permits (pep.evaluateAccess reduced label .read domain) := by
  intro domain subject reduced label pep
  refine ⟨⟨le_refl _, List.Subset.refl _, .inl rfl, .inr rfl⟩, ?_, ?_⟩
  · exact effectOf_some.mp (by decide +kernel)
  · exact permits_of_effect (by decide +kernel)

theorem privileges_monotone_fixture :
    let domain : SecurityDomain := { id := ⟨"DOMAIN-HIGH"⟩, name := "", maxClassification := .secret }
    let subject : SubjectAttributes :=
      { subjectId := "analyst", clearance := .secret, nationality := some "GBR" }
    let reduced : SubjectAttributes := { subject with clearance := .restricted }
    let label := (ConfidentialityLabel.new .nato .secret).withCategory (.releasableTo ["USA"])
    let pep : PolicyEnforcementPoint := ⟨PolicyStore.presetHighToLow⟩
    Denies (pep.evaluateAccess subject label .read domain) ∧
      ¬ Permits (pep.evaluateAccess reduced label .read domain) := by
  intro domain subject reduced label pep
  have denied : Denies (pep.evaluateAccess subject label .read domain) :=
    effectOf_some.mp (by decide +kernel)
  have less : Reduces reduced subject := ⟨by decide, List.Subset.refl _, .inr rfl, .inr rfl⟩
  exact ⟨denied, (privileges_monotone pep less label).1 .read domain rfl denied⟩

end Privileges

section Restrictiveness

/-- The label with a higher classification or more categories, none of which releases. -/
structure Tightens (strict label : ConfidentialityLabel) : Prop where
  policy : strict.policy = label.policy
  classification : label.classification ≤ strict.classification
  categories : ∃ added, strict.categories = label.categories ++ added ∧
    ∀ c ∈ added, eqIgnoreAsciiCase c.tagName "Releasable to" = false

theorem Tightens.countries {strict label : ConfidentialityLabel} (tighter : Tightens strict label) :
    strict.releasableCountries = label.releasableCountries := by
  obtain ⟨added, shape, silent⟩ := tighter.categories
  have none : added.filter (fun c => eqIgnoreAsciiCase c.tagName "Releasable to") = [] :=
    List.filter_eq_nil_iff.mpr fun c member => by simp [silent c member]
  simp only [ConfidentialityLabel.releasableCountries, shape, List.filter_append, none,
    List.append_nil]

theorem Tightens.restrictive {strict label : ConfidentialityLabel} (tighter : Tightens strict label)
    {value : String} (listed : value ∈ label.restrictiveCategoryValues) :
    value ∈ strict.restrictiveCategoryValues := by
  obtain ⟨added, shape, _⟩ := tighter.categories
  simp only [ConfidentialityLabel.restrictiveCategoryValues, shape, List.filter_append,
    List.flatMap_append, List.mem_append]
  exact .inl listed

theorem AccessPermitted.relax {subject : SubjectAttributes} {strict label : ConfidentialityLabel}
    {domain : SecurityDomain} (tighter : Tightens strict label)
    (granted : AccessPermitted subject strict domain) : AccessPermitted subject label domain := by
  have countries := tighter.countries
  exact ⟨fun caveat listed => granted.caveats caveat (tighter.restrictive listed), granted.mission,
    le_trans tighter.classification granted.cleared,
    le_trans tighter.classification granted.contained, countries ▸ granted.national,
    countries ▸ granted.releasable⟩

theorem CrossingChecks.relax {subject : SubjectAttributes} {strict label : ConfidentialityLabel}
    {mission : Option String} {source target : SecurityDomain} (tighter : Tightens strict label)
    (checks : CrossingChecks subject strict mission source target) :
    CrossingChecks subject label mission source target := by
  have countries := tighter.countries
  exact ⟨fun caveat listed => checks.caveats caveat (tighter.restrictive listed), checks.mission,
    countries ▸ checks.releasable⟩

/-- Whatever is decided for a label is decided at least as well for a valid weaker one. -/
theorem restrictiveness_antitone (pep : PolicyEnforcementPoint) (subject : SubjectAttributes)
    {strict label : ConfidentialityLabel} (tighter : Tightens strict label)
    (valid : label.validate = .ok ()) :
    (∀ operation domain, Permits (pep.evaluateAccess subject strict operation domain) →
      Permits (pep.evaluateAccess subject label operation domain)) ∧
    ∀ source target missionId,
      Permits (pep.evaluateCrossDomain subject strict source target missionId) →
      Permits (pep.evaluateCrossDomain subject label source target missionId) := by
  constructor
  · intro operation domain permitted
    have local' : operation ≠ .crossDomainTransfer := by
      rintro rfl
      exact crossing_not_local pep subject strict domain permitted
    obtain ⟨_, registered, known, granted⟩ :=
      (evaluateAccess_permitted pep subject strict operation domain local').mp permitted
    exact (evaluateAccess_permitted pep subject label operation domain local').mpr
      ⟨valid, registered, known, granted.relax tighter⟩
  · intro source target missionId permitted
    obtain ⟨_, distinct, policy, s, t, paired, knownSource, knownTarget, checks, ceiling⟩ :=
      (evaluateCrossDomain_permitted pep subject strict source target missionId).mp permitted
    refine (evaluateCrossDomain_permitted pep subject label source target missionId).mpr
      ⟨valid, distinct, policy, s, t, paired, knownSource, knownTarget, checks.relax tighter, ?_⟩
    rcases ceiling with below | ⟨floor, allowed⟩
    · exact .inl (le_trans tighter.classification below)
    · exact .inr ⟨floor, tighter.policy ▸ allowed⟩

theorem restrictiveness_antitone_fixture :
    let label := (ConfidentialityLabel.new .nato .secret).withCategory (.releasableTo ["USA"])
    let strict := (ConfidentialityLabel.new .nato .cosmicTopSecret).withCategory
      (.releasableTo ["USA"]) |>.withCategory ⟨"Handling", .restrictive, ["LOCSEN"]⟩
    let subject : SubjectAttributes :=
      { subjectId := "guard", clearance := .secret, handlingCaveats := ["LOCSEN"] }
    let source : SecurityDomain := { id := ⟨"DOMAIN-HIGH"⟩, name := "", maxClassification := .secret }
    let target : SecurityDomain := { id := ⟨"DOMAIN-LOW"⟩, name := "", maxClassification := .secret }
    let pep : PolicyEnforcementPoint := ⟨PolicyStore.presetHighToLow⟩
    Permits (pep.evaluateCrossDomain subject strict source target none) ∧
      Permits (pep.evaluateCrossDomain subject label source target none) := by
  intro label strict subject source target pep
  have permitted : Permits (pep.evaluateCrossDomain subject strict source target none) := by
    obtain ⟨decision, same, effect⟩ : ∃ decision,
        pep.evaluateCrossDomain subject strict source target none = .ok decision ∧
          decision.effect = .downgrade := effectOf_some.mp (by decide +kernel)
    exact ⟨decision, same, by simp [effect]⟩
  have tighter : Tightens strict label := ⟨rfl, by decide, _, rfl, by decide⟩
  have valid : label.validate = .ok () := Fallible.ok_of_isOk (by decide +kernel)
  exact ⟨permitted, (restrictiveness_antitone pep subject tighter valid).2 source target none
    permitted⟩

/-- A tag that is "Releasable to" but for its case widens the releasability all the same. -/
theorem releasing_tag_appended :
    let label := (ConfidentialityLabel.new .nato .secret).withCategory (.releasableTo ["GBR"])
    let strict := label.withCategory ⟨"RELEASABLE TO", .permissive, ["USA"]⟩
    let subject : SubjectAttributes :=
      { subjectId := "analyst", clearance := .secret, nationality := some "USA" }
    let domain : SecurityDomain := { id := ⟨"DOMAIN-HIGH"⟩, name := "", maxClassification := .secret }
    let pep : PolicyEnforcementPoint := ⟨PolicyStore.presetHighToLow⟩
    label.validate = .ok () ∧ strict.validate = .ok () ∧ strict.policy = label.policy ∧
      (∃ c : CategoryMarking, strict.categories = label.categories ++ [c] ∧
        c.tagName ≠ "Releasable to") ∧
      Permits (pep.evaluateAccess subject strict .read domain) ∧
      ¬ Permits (pep.evaluateAccess subject label .read domain) := by
  intro label strict subject domain pep
  refine ⟨Fallible.ok_of_isOk (by decide +kernel), Fallible.ok_of_isOk (by decide +kernel), rfl,
    ⟨_, rfl, by decide⟩, permits_of_effect (by decide +kernel), ?_⟩
  exact denies_not_permits (effectOf_some.mp (by decide +kernel))

end Restrictiveness

end MimPolicy
