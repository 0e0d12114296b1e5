import MimStack.Decisions

/-!
The downgrade. A label that crossed crosses again as it is. The downgraded label
admits no country that the label did not, unless the last one was stripped. And the
downgrade is made whether or not a policy allows it.
-/
namespace MimPolicy
open RustText Fallible MimLabeling
open PolicyDecisionPoint

section Stability

theorem CrossingChecks.congr {subject : SubjectAttributes} {a b : ConfidentialityLabel}
    {mission : Option String} {source target : SecurityDomain}
    (categories : b.categories = a.categories)
    (checks : CrossingChecks subject a mission source target) :
    CrossingChecks subject b mission source target := by
  have restrictive : b.restrictiveCategoryValues = a.restrictiveCategoryValues := by
    simp only [ConfidentialityLabel.restrictiveCategoryValues, categories]
  have countries : b.releasableCountries = a.releasableCountries := by
    simp only [ConfidentialityLabel.releasableCountries, categories]
  exact ⟨restrictive ▸ checks.caveats, checks.mission, countries ▸ checks.releasable⟩

theorem releaseInto_contained (pdp : PolicyDecisionPoint) (context : PolicyContext)
    {target : SecurityDomain} (contained : context.label.classification ≤ target.maxClassification) :
    ∃ decision, releaseInto pdp context target = .ok decision ∧ decision.effect = .permit ∧
      decision.effectiveLabel = some context.label := by
  rw [releaseInto, if_neg (not_lt.mpr contained)]
  exact ⟨_, rfl, rfl, rfl⟩

theorem decision_stable (pdp : PolicyDecisionPoint) (subject : SubjectAttributes)
    (label : ConfidentialityLabel) (source target : SecurityDomain) (missionId : Option String)
    {context : PolicyContext}
    (built : crossDomainContext subject label source target missionId = .ok context)
    {decision : PolicyDecision} (evaluated : evaluate pdp context = .ok decision)
    (approved : decision.effect = .permit ∨ decision.effect = .downgrade)
    {effective : ConfidentialityLabel} (passed : decision.effectiveLabel = some effective) :
    effective.validate = .ok () ∧ ∃ context' again,
      crossDomainContext subject effective source target missionId = .ok context' ∧
      evaluate pdp context' = .ok again ∧ again.effect = .permit ∧
      again.effectiveLabel = some effective := by
  obtain ⟨valid, distinct, rfl⟩ := crossDomainContext_ok.mp built
  have approves : decision.effect ≠ .deny := by
    rcases approved with permit | downgrade
    · simp [permit]
    · simp [downgrade]
  obtain ⟨policy, s, t, paired, knownSource, knownTarget, checks, released⟩ :=
    (evaluateCrossDomain_approves _ _ _ _ _ _ _).mp ⟨evaluated, approves⟩
  obtain ⟨effective', passed', still, contained, categories⟩ :=
    releaseInto_approves valid checks.releasable released
  obtain rfl := Option.some.inj (passed.symm.trans passed')
  obtain ⟨again, released', permit, same⟩ := releaseInto_contained pdp
    (crossing subject effective source.id target.id (missionId.or subject.missionId)) contained
  have again_approves : again.effect ≠ .deny := by
    simp [permit]
  have evaluated' := (evaluateCrossDomain_approves pdp subject effective source.id target.id
    (missionId.or subject.missionId) again).mpr ⟨policy, s, t, paired, knownSource, knownTarget,
      checks.congr categories, released', again_approves⟩
  exact ⟨still, _, again, crossDomainContext_ok.mpr ⟨still, distinct, rfl⟩, evaluated'.1, permit,
    same⟩

theorem decision_stable_fixture :
    let subject : SubjectAttributes := { subjectId := "guard", clearance := .secret }
    let label := (ConfidentialityLabel.new .nato .secret).withCategory (.releasableTo ["USA"])
    let source : SecurityDomain := { id := ⟨"DOMAIN-HIGH"⟩, name := "", maxClassification := .secret }
    let target : SecurityDomain := { id := ⟨"DOMAIN-LOW"⟩, name := "", maxClassification := .secret }
    ∃ context decision effective,
      crossDomainContext subject label source target none = .ok context ∧
      evaluate PolicyStore.presetHighToLow context = .ok decision ∧ decision.effect = .downgrade ∧
      decision.effectiveLabel = some effective ∧ effective.validate = .ok () ∧ ∃ context' again,
        crossDomainContext subject effective source target none = .ok context' ∧
        evaluate PolicyStore.presetHighToLow context' = .ok again ∧ again.effect = .permit ∧
        again.effectiveLabel = some effective := by
  intro subject label source target
  have checked : ((crossDomainContext subject label source target none).toOption.bind fun context =>
      (evaluate PolicyStore.presetHighToLow context).toOption).any
        (fun decision => decision.effect == .downgrade && decision.effectiveLabel.isSome) = true := by
    decide +kernel
  obtain ⟨context, decision, built, evaluated, both⟩ := ok_of_any checked
  obtain ⟨downgrade, some'⟩ := Bool.and_eq_true_iff.mp both
  obtain ⟨effective, passed⟩ := Option.isSome_iff_exists.mp some'
  have lowered : decision.effect = .downgrade := beq_iff_eq.mp downgrade
  exact ⟨context, decision, effective, built, evaluated, lowered, passed,
    decision_stable _ subject label source target none built evaluated (.inr lowered) passed⟩

end Stability

section Widening

def Releasing (c : CategoryMarking) : Prop := eqIgnoreAsciiCase c.tagName "Releasable to" = true

instance (c : CategoryMarking) : Decidable (Releasing c) :=
  inferInstanceAs (Decidable (eqIgnoreAsciiCase c.tagName "Releasable to" = true))

def AdmitsCountry (l : ConfidentialityLabel) (country : String) : Prop :=
  (∀ c ∈ l.categories, ¬ Releasing c) ∨ country ∈ l.releasableCountries

def intersected (target : SecurityDomain) (c : CategoryMarking) : CategoryMarking :=
  if eqIgnoreAsciiCase c.tagName "Releasable to" then
    { c with values := c.values.filter target.acceptsCountry }
  else c

theorem releasing_intersected (target : SecurityDomain) (c : CategoryMarking) :
    Releasing (intersected target c) ↔ Releasing c := by
  unfold Releasing intersected
  split <;> rfl

theorem intersected_values {target : SecurityDomain} {c : CategoryMarking} (releasing : Releasing c) :
    (intersected target c).values = c.values.filter target.acceptsCountry := by
  have tagged : eqIgnoreAsciiCase c.tagName "Releasable to" = true := releasing
  rw [intersected, if_pos tagged]

theorem mem_downgradeCategories {config : DowngradeConfig} {target : SecurityDomain}
    {categories : List CategoryMarking} (intersects : config.intersectReleasability = true)
    {d : CategoryMarking} : d ∈ downgradeCategories config target categories ↔
      (∃ c ∈ categories, intersected target c = d) ∧
        (config.stripNonTargetCategories = true → Releasing d → d.values ≠ []) := by
  have kept : (if eqIgnoreAsciiCase d.tagName "Releasable to" then !d.values.isEmpty else true) = true ↔
      (Releasing d → d.values ≠ []) := by
    unfold Releasing
    split
    · rename_i releasing
      simp [releasing]
    · rename_i silent
      simp [silent]
  unfold downgradeCategories
  rw [if_pos intersects]
  cases config.stripNonTargetCategories with
  | true =>
    rw [if_pos rfl, List.mem_filter, kept, List.mem_map]
    simp only [forall_const]
    rfl
  | false =>
    rw [if_neg Bool.false_ne_true, List.mem_map]
    simp only [Bool.false_eq_true, false_implies, and_true]
    rfl

theorem downgradedLabelForTarget_categories {label effective : ConfidentialityLabel}
    {target : SecurityDomain} {config : DowngradeConfig}
    (downgraded : downgradedLabelForTarget label target config = .ok effective) :
    effective.categories = downgradeCategories config target label.categories := by
  obtain ⟨rfl, _⟩ := downgradedLabelForTarget_ok_iff.mp downgraded
  rfl

/-- The downgrade admits no country that the label did not. -/
def Narrows (label effective : ConfidentialityLabel) : Prop :=
  ∀ country, AdmitsCountry effective country → AdmitsCountry label country

theorem releasable_subset {label effective : ConfidentialityLabel} {target : SecurityDomain}
    {config : DowngradeConfig} (intersects : config.intersectReleasability = true)
    (categories : effective.categories = downgradeCategories config target label.categories)
    {country : String} (listed : country ∈ effective.releasableCountries) :
    country ∈ label.releasableCountries := by
  obtain ⟨d, member, releasing, value⟩ := mem_releasableCountries.mp listed
  rw [categories] at member
  obtain ⟨⟨c, original, rfl⟩, _⟩ := (mem_downgradeCategories intersects).mp member
  have releases : Releasing c := (releasing_intersected target c).mp releasing
  rw [intersected_values releases] at value
  exact mem_releasableCountries.mpr ⟨c, original, releases, (List.mem_filter.mp value).1⟩

/-- Nothing is emptied, or nothing that is emptied is stripped, or there is nothing to empty. -/
def KeepsSome (label : ConfidentialityLabel) (target : SecurityDomain) (config : DowngradeConfig) :
    Prop :=
  config.intersectReleasability = true → config.stripNonTargetCategories = true →
    (∃ c ∈ label.categories, Releasing c) →
      ∃ country ∈ label.releasableCountries, target.acceptsCountry country = true

theorem releasing_kept_iff {label effective : ConfidentialityLabel} {target : SecurityDomain}
    {config : DowngradeConfig}
    (categories : effective.categories = downgradeCategories config target label.categories)
    (released : ∃ c ∈ label.categories, Releasing c) :
    (∃ d ∈ effective.categories, Releasing d) ↔ KeepsSome label target config := by
  rw [categories]
  by_cases intersects : config.intersectReleasability = true
  · by_cases strips : config.stripNonTargetCategories = true
    · constructor
      · intro survives
        obtain ⟨d, member, releasing⟩ := survives
        obtain ⟨⟨c, original, rfl⟩, filled⟩ := (mem_downgradeCategories intersects).mp member
        have releases : Releasing c := (releasing_intersected target c).mp releasing
        have some' := filled strips releasing
        rw [intersected_values releases] at some'
        obtain ⟨country, value⟩ := List.exists_mem_of_ne_nil _ some'
        obtain ⟨listed, accepted⟩ := List.mem_filter.mp value
        intro _ _ _
        exact ⟨country, mem_releasableCountries.mpr ⟨c, original, releases, listed⟩, accepted⟩
      · intro keeps
        obtain ⟨country, listed, accepted⟩ := keeps intersects strips released
        obtain ⟨c, original, releases, value⟩ := mem_releasableCountries.mp listed
        have releasing := (releasing_intersected target c).mpr releases
        refine ⟨intersected target c, (mem_downgradeCategories intersects).mpr
          ⟨⟨c, original, rfl⟩, fun _ _ => ?_⟩, releasing⟩
        rw [intersected_values releases]
        exact List.ne_nil_of_mem (List.mem_filter.mpr ⟨value, accepted⟩)
    · have keeps : KeepsSome label target config := fun _ strip => absurd strip strips
      obtain ⟨c, original, releases⟩ := released
      have member : intersected target c ∈ downgradeCategories config target label.categories :=
        (mem_downgradeCategories intersects).mpr
          ⟨⟨c, original, rfl⟩, fun strip => absurd strip strips⟩
      exact iff_of_true ⟨_, member, (releasing_intersected target c).mpr releases⟩ keeps
  · have same : downgradeCategories config target label.categories = label.categories := by
      rw [downgradeCategories, if_neg intersects]
    rw [same]
    exact iff_of_true released fun intersect => absurd intersect intersects

theorem downgrade_narrows_iff {label effective : ConfidentialityLabel} {target : SecurityDomain}
    {config : DowngradeConfig}
    (downgraded : downgradedLabelForTarget label target config = .ok effective) :
    Narrows label effective ↔ KeepsSome label target config := by
  have categories := downgradedLabelForTarget_categories downgraded
  by_cases released : ∃ c ∈ label.categories, Releasing c
  · rw [← releasing_kept_iff categories released]
    constructor
    · intro narrows
      by_contra stripped
      obtain ⟨country, unlisted⟩ := exists_unlisted label.releasableCountries
      have everyone : AdmitsCountry effective country :=
        .inl fun d member releasing => stripped ⟨d, member, releasing⟩
      rcases narrows country everyone with silent | listed
      · obtain ⟨c, original, releases⟩ := released
        exact silent c original releases
      · exact unlisted listed
    · intro survives country admitted
      obtain ⟨d, member, releasing⟩ := survives
      rcases admitted with silent | listed
      · exact absurd releasing (silent d member)
      · by_cases intersects : config.intersectReleasability = true
        · exact .inr (releasable_subset intersects categories listed)
        · rw [downgradeCategories, if_neg intersects] at categories
          rw [ConfidentialityLabel.releasableCountries, categories] at listed
          exact .inr listed
  · have everyone : ∀ c ∈ label.categories, ¬ Releasing c :=
      fun c member releasing => released ⟨c, member, releasing⟩
    exact iff_of_true (fun _ _ => .inl everyone) fun _ _ some' => absurd some' released

/-- The only country of the label is not accepted in the target: the category goes, and with it
the restriction. -/
theorem emptied_releasability_widens :
    let label := (ConfidentialityLabel.new .nato .secret).withCategory (.releasableTo ["DEU"])
    let target : SecurityDomain :=
      { id := ⟨"DOMAIN-LOW"⟩, name := "Low", maxClassification := .restricted,
        releasableTo := ["USA", "GBR"] }
    label.validate = .ok () ∧ ∃ effective, downgradedLabelForTarget label target {} = .ok effective ∧
      AdmitsCountry effective "RUS" ∧ ¬ AdmitsCountry label "RUS" ∧ ¬ Narrows label effective := by
  intro label target
  have valid : label.validate = .ok () := ok_of_isOk (by decide +kernel)
  have unlisted : ¬ AdmitsCountry label "RUS" := by
    intro admitted
    rcases admitted with silent | listed
    · exact silent _ (List.mem_singleton_self _) (by decide)
    · exact absurd listed (by decide +kernel)
  let effective : ConfidentialityLabel :=
    { label with classification := .restricted, categories := [] }
  have emptied : downgradeCategories {} target label.categories = [] := by decide +kernel
  have still : effective.validate = .ok () := ok_of_isOk (by decide +kernel)
  have downgraded : downgradedLabelForTarget label target {} = .ok effective := by
    rw [downgradedLabelForTarget_ok_iff, emptied]
    exact ⟨rfl, still⟩
  have everyone : AdmitsCountry effective "RUS" := .inl fun c member => absurd member List.not_mem_nil
  refine ⟨valid, effective, downgraded, everyone, unlisted, ?_⟩
  intro narrows
  exact unlisted (narrows "RUS" everyone)

theorem downgrade_narrows_fixture :
    let label := (ConfidentialityLabel.new .nato .secret).withCategory (.releasableTo ["USA", "DEU"])
    let target : SecurityDomain :=
      { id := ⟨"DOMAIN-LOW"⟩, name := "Low", maxClassification := .restricted,
        releasableTo := ["USA", "GBR"] }
    ∃ effective, downgradedLabelForTarget label target {} = .ok effective ∧
      effective.categories = [.releasableTo ["USA"]] ∧ Narrows label effective := by
  intro label target
  let effective : ConfidentialityLabel :=
    { label with classification := .restricted, categories := [.releasableTo ["USA"]] }
  have cut : downgradeCategories {} target label.categories = [.releasableTo ["USA"]] := by
    decide +kernel
  have still : effective.validate = .ok () := ok_of_isOk (by decide +kernel)
  have downgraded : downgradedLabelForTarget label target {} = .ok effective := by
    rw [downgradedLabelForTarget_ok_iff, cut]
    exact ⟨rfl, still⟩
  refine ⟨effective, downgraded, rfl, (downgrade_narrows_iff downgraded).mpr ?_⟩
  intro _ _ _
  exact ⟨"USA", by decide +kernel, by decide +kernel⟩

end Widening

section Permission

/-- The pair has no policy that allows a downgrade. -/
def Forbids (pdp : PolicyDecisionPoint) (source : DomainId) (target : Option DomainId) : Prop :=
  ∀ p ∈ pdp.crossDomainPolicies, p.sourceDomain = source → some p.targetDomain = target →
    p.allowDowngrade = false

/-- No downgrade is decided, and no label below the original's. -/
def KeepsLevel (pdp : PolicyDecisionPoint) (context : PolicyContext) : Prop :=
  ∀ decision, evaluateCrossDomain pdp context = .ok decision → decision.effect ≠ .downgrade ∧
    ∀ effective, decision.effectiveLabel = some effective →
      ¬ effective.classification < context.label.classification

def loweredTo (label : ConfidentialityLabel) (target : SecurityDomain) (config : DowngradeConfig) :
    ConfidentialityLabel :=
  { label with
    classification := target.maxClassification
    categories := downgradeCategories config target label.categories }

/-- Every check is passed, the label is above a target that may be downgraded to, and the
lowered label is valid. -/
def Lowers (pdp : PolicyDecisionPoint) (context : PolicyContext) : Prop :=
  ∃ targetId source target, Reaches pdp context targetId source target ∧
    target.maxClassification < context.label.classification ∧
    .unclassified ≤ target.maxClassification ∧
    (loweredTo context.label target pdp.downgrade).validate = .ok ()

theorem downgradedLabelForTarget_above {label l : ConfidentialityLabel} {target : SecurityDomain}
    {config : DowngradeConfig} (above : target.maxClassification < label.classification) :
    downgradedLabelForTarget label target config = .ok l ↔
      l = loweredTo label target config ∧ l.validate = .ok () := by
  rw [downgradedLabelForTarget_ok_iff, if_pos above, loweredTo]

theorem labelled_check {check : Option PolicyDecision} {rest : Except PolicyError PolicyDecision}
    {decision : PolicyDecision} {effective : ConfidentialityLabel} (denies : OnlyDenies check)
    (evaluated : (match check with | some deny => Except.ok deny | none => rest) = .ok decision)
    (labelled : decision.effectiveLabel = some effective) : rest = .ok decision := by
  rcases checked_or_denied denies evaluated with ⟨reason, rfl⟩ | left'
  · cases labelled
  · exact left'

theorem releaseInto_labelled {pdp : PolicyDecisionPoint} {context : PolicyContext}
    {target : SecurityDomain} {decision : PolicyDecision} {effective : ConfidentialityLabel}
    (released : releaseInto pdp context target = .ok decision)
    (labelled : decision.effectiveLabel = some effective) : decision.effect ≠ .deny := by
  unfold releaseInto at released
  split at released
  · split at released
    · split at released
      · cases released
      · obtain rfl := Except.ok.inj released
        simp
    · obtain rfl := Except.ok.inj released
      cases labelled
  · obtain rfl := Except.ok.inj released
    simp

theorem evaluateCrossDomain_labelled {pdp : PolicyDecisionPoint} {context : PolicyContext}
    {decision : PolicyDecision} {effective : ConfidentialityLabel}
    (evaluated : evaluateCrossDomain pdp context = .ok decision)
    (labelled : decision.effectiveLabel = some effective) : decision.effect ≠ .deny := by
  unfold evaluateCrossDomain at evaluated
  split at evaluated
  · cases evaluated
  · split at evaluated
    · cases evaluated
    · split at evaluated
      · cases evaluated
      · split at evaluated
        · cases evaluated
        · have caveats := labelled_check (checkHandlingCaveats_denies _ _) evaluated labelled
          have mission := labelled_check (checkMissionCompartment_denies _ _ _) caveats labelled
          have released := labelled_check (checkReleasability_denies _ _ _) mission labelled
          exact releaseInto_labelled released labelled

theorem releaseInto_effect {pdp : PolicyDecisionPoint} {context : PolicyContext}
    {target : SecurityDomain} {decision : PolicyDecision}
    (approves : Approves (releaseInto pdp context target) decision) :
    (decision.effect = .permit ∧ decision.effectiveLabel = some context.label) ∨
      (decision.effect = .downgrade ∧ target.maxClassification < context.label.classification ∧
        .unclassified ≤ target.maxClassification ∧
        (loweredTo context.label target pdp.downgrade).validate = .ok ()) := by
  obtain ⟨released, approved⟩ := approves
  unfold releaseInto at released
  split at released
  · rename_i above
    split at released
    · rename_i floor
      split at released
      · cases released
      · rename_i lowered downgraded
        obtain rfl := Except.ok.inj released
        obtain ⟨rfl, valid⟩ := (downgradedLabelForTarget_above above).mp downgraded
        exact .inr ⟨rfl, above, floor, valid⟩
    · obtain rfl := Except.ok.inj released
      exact absurd rfl approved
  · obtain rfl := Except.ok.inj released
    exact .inl ⟨rfl, rfl⟩

theorem evaluateCrossDomain_downgrades (pdp : PolicyDecisionPoint) (context : PolicyContext) :
    (∃ decision, evaluateCrossDomain pdp context = .ok decision ∧ decision.effect = .downgrade) ↔
      Lowers pdp context := by
  constructor
  · intro downgrades
    obtain ⟨decision, evaluated, downgrade⟩ := downgrades
    have approved : decision.effect ≠ .deny := by simp [downgrade]
    obtain ⟨targetId, source, target, reaches, released⟩ :=
      (evaluateCrossDomain_reaches pdp context decision).mp ⟨evaluated, approved⟩
    rcases releaseInto_effect released with permit | lowered
    · simp [downgrade] at permit
    · exact ⟨targetId, source, target, reaches, lowered.2⟩
  · intro lowers
    obtain ⟨targetId, source, target, reaches, above, floor, valid⟩ := lowers
    have downgraded := (downgradedLabelForTarget_above above).mpr ⟨rfl, valid⟩
    have released : ∃ decision, releaseInto pdp context target = .ok decision ∧
        decision.effect = .downgrade := by
      rw [releaseInto, if_pos above, if_pos floor, downgraded]
      exact ⟨_, rfl, rfl⟩
    obtain ⟨decision, released, downgrade⟩ := released
    have approved : decision.effect ≠ .deny := by simp [downgrade]
    exact ⟨decision, ((evaluateCrossDomain_reaches pdp context decision).mpr
      ⟨targetId, source, target, reaches, released, approved⟩).1, downgrade⟩

theorem keepsLevel_iff (pdp : PolicyDecisionPoint) (context : PolicyContext) :
    KeepsLevel pdp context ↔ ¬ Lowers pdp context := by
  rw [← evaluateCrossDomain_downgrades]
  constructor
  · intro keeps downgrades
    obtain ⟨decision, evaluated, downgrade⟩ := downgrades
    exact (keeps decision evaluated).1 downgrade
  · intro level decision evaluated
    have permitted : decision.effect ≠ .downgrade :=
      fun downgrade => level ⟨decision, evaluated, downgrade⟩
    refine ⟨permitted, ?_⟩
    intro effective labelled
    have approved := evaluateCrossDomain_labelled evaluated labelled
    obtain ⟨_, _, target, _, released⟩ :=
      (evaluateCrossDomain_reaches pdp context decision).mp ⟨evaluated, approved⟩
    rcases releaseInto_effect released with permit | downgrade
    · obtain rfl := Option.some.inj (labelled.symm.trans permit.2)
      exact lt_irrefl _
    · exact absurd downgrade.1 permitted

/-- Where no policy of the pair allows a downgrade, none is made exactly when something else
prevents it. -/
theorem downgrade_permission_iff (pdp : PolicyDecisionPoint) (context : PolicyContext) :
    (Forbids pdp context.environment.sourceDomain context.environment.targetDomain →
        KeepsLevel pdp context) ↔
      ¬ Forbids pdp context.environment.sourceDomain context.environment.targetDomain ∨
        ¬ Lowers pdp context := by
  rw [keepsLevel_iff]
  exact imp_iff_not_or

/-- The preset's policy with downgrades switched off. -/
theorem forbidden_downgrade_made :
    let pdp : PolicyDecisionPoint := { PolicyStore.presetHighToLow with
      crossDomainPolicies := [{ PolicyStore.presetPolicy with allowDowngrade := false }] }
    let subject : SubjectAttributes := { subjectId := "guard", clearance := .secret }
    let label := (ConfidentialityLabel.new .nato .secret).withCategory (.releasableTo ["USA"])
    let context := crossing subject label ⟨"DOMAIN-HIGH"⟩ ⟨"DOMAIN-LOW"⟩ none
    label.validate = .ok () ∧
      Forbids pdp context.environment.sourceDomain context.environment.targetDomain ∧
      ¬ KeepsLevel pdp context := by
  intro pdp subject label context
  have forbids : Forbids pdp context.environment.sourceDomain context.environment.targetDomain := by
    intro p member _ _
    rw [List.mem_singleton.mp member]
  have lowered : effectOf (evaluateCrossDomain pdp context) = some .downgrade := by
    decide +kernel
  obtain ⟨decision, evaluated, downgrade⟩ := effectOf_some.mp lowered
  refine ⟨ok_of_isOk (by decide +kernel), forbids, ?_⟩
  intro keeps
  exact (keeps decision evaluated).1 downgrade

end Permission

end MimPolicy
