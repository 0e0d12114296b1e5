import MimStack.Downgrades
import MimStack.Lib.AsciiCase

/-!
Access next to crossing, and access under other spellings. What may cross need not be
readable where it comes from, and a nationality is looked up among the label's countries
letter by letter, while everything else ignores case.
-/
namespace MimPolicy
open RustText Fallible MimLabeling
open PolicyDecisionPoint

section Transfer

theorem enforceCrossDomain_ok (pep : PolicyEnforcementPoint) (subject : SubjectAttributes)
    (label : ConfidentialityLabel) (source target : SecurityDomain) (missionId : Option String) :
    (∃ decision, pep.enforceCrossDomain subject label source target missionId = .ok decision) ↔
      Permits (pep.evaluateCrossDomain subject label source target missionId) := by
  unfold PolicyEnforcementPoint.enforceCrossDomain Permits
  cases pep.evaluateCrossDomain subject label source target missionId with
  | error e => simp
  | ok decision => by_cases deny : decision.effect = .deny <;> simp [deny]

/-- What a crossing asks: a valid label, two registered domains with a policy between them, the
checks that both domains make, and a ceiling that the label fits under or can be lowered to. -/
def MayCross (pep : PolicyEnforcementPoint) (subject : SubjectAttributes)
    (label : ConfidentialityLabel) (source target : SecurityDomain) : Prop :=
  label.validate = .ok () ∧ source.id ≠ target.id ∧ ∃ policy s t,
    pep.pdp.policyForPair source.id target.id = some policy ∧
    pep.pdp.domain source.id = some s ∧ pep.pdp.domain target.id = some t ∧
    CrossingChecks subject label subject.missionId s t ∧
    (label.classification ≤ t.maxClassification ∨ (.unclassified ≤ t.maxClassification ∧
      label.policy.allowsClassification t.maxClassification = true))

/-- What a local access asks beyond that. -/
structure ReadsAtSource (subject : SubjectAttributes) (label : ConfidentialityLabel)
    (source : SecurityDomain) : Prop where
  cleared : label.classification ≤ subject.clearance
  contained : label.classification ≤ source.maxClassification
  national : NationalityPasses subject label source
  releasable : ∀ country ∈ label.releasableCountries, source.acceptsCountry country = true

theorem mayCross_reads_iff {pep : PolicyEnforcementPoint} {subject : SubjectAttributes}
    {label : ConfidentialityLabel} {source target : SecurityDomain}
    (crosses : MayCross pep subject label source target) :
    (∃ decision, pep.enforceAccess subject label .read source = .ok decision) ↔
      ∃ s, pep.pdp.domain source.id = some s ∧ ReadsAtSource subject label s := by
  obtain ⟨valid, _, policy, s, t, _, known, _, checks, _⟩ := crosses
  rw [enforceAccess_ok pep subject label .read source (by decide)]
  constructor
  · intro reads
    obtain ⟨_, registered, known', permitted⟩ := reads
    exact ⟨registered, known', permitted.cleared, permitted.contained, permitted.national,
      permitted.releasable⟩
  · intro reads
    obtain ⟨registered, known', more⟩ := reads
    obtain rfl := Option.some.inj (known.symm.trans known')
    have mission : s.missionCompartments = [] ∨
        ∃ m, subject.missionId = some m ∧ s.acceptsMission m = true := by
      rcases checks.mission with opened | ⟨m, held, accepted, _⟩
      · exact .inl opened.1
      · exact .inr ⟨m, held, accepted⟩
    exact ⟨valid, s, known, checks.caveats, mission, more.cleared, more.contained, more.national,
      more.releasable⟩

theorem transfer_reads_iff (pep : PolicyEnforcementPoint) (subject : SubjectAttributes)
    (label : ConfidentialityLabel) (source target : SecurityDomain) :
    ((∃ decision, pep.enforceCrossDomain subject label source target none = .ok decision) →
        ∃ decision, pep.enforceAccess subject label .read source = .ok decision) ↔
      ¬ MayCross pep subject label source target ∨
        ∃ s, pep.pdp.domain source.id = some s ∧ ReadsAtSource subject label s := by
  have crosses : (∃ decision, pep.enforceCrossDomain subject label source target none = .ok decision) ↔
      MayCross pep subject label source target :=
    (enforceCrossDomain_ok pep subject label source target none).trans
      (evaluateCrossDomain_permitted pep subject label source target none)
  rw [crosses, imp_iff_not_or]
  by_cases may : MayCross pep subject label source target
  · rw [mayCross_reads_iff may]
  · exact iff_of_true (.inl may) (.inl may)

/-- A subject without clearance sends to the low side what it may not read on the high side. -/
theorem uncleared_transfer_permitted :
    let subject : SubjectAttributes := { subjectId := "clerk", clearance := .unclassified }
    let label := (ConfidentialityLabel.new .nato .secret).withCategory (.releasableTo ["USA"])
    let source : SecurityDomain := { id := ⟨"DOMAIN-HIGH"⟩, name := "", maxClassification := .secret }
    let target : SecurityDomain := { id := ⟨"DOMAIN-LOW"⟩, name := "", maxClassification := .secret }
    let pep : PolicyEnforcementPoint := ⟨PolicyStore.presetHighToLow⟩
    (∃ decision, pep.enforceCrossDomain subject label source target none = .ok decision) ∧
      ¬ ∃ decision, pep.enforceAccess subject label .read source = .ok decision := by
  intro subject label source target pep
  have crosses : Permits (pep.evaluateCrossDomain subject label source target none) := by
    obtain ⟨decision, same, effect⟩ : ∃ decision,
        pep.evaluateCrossDomain subject label source target none = .ok decision ∧
          decision.effect = .downgrade := effectOf_some.mp (by decide +kernel)
    exact ⟨decision, same, by simp [effect]⟩
  refine ⟨(enforceCrossDomain_ok pep subject label source target none).mpr crosses, ?_⟩
  intro reads
  obtain ⟨_, registered, _, permitted⟩ := (enforceAccess_ok pep subject label .read source
    (by decide)).mp reads
  exact absurd permitted.cleared (by decide)

end Transfer

section Spelling

structure SubjectRecased (a b : SubjectAttributes) : Prop where
  same : b = { a with nationality := b.nationality }
  nationality : Option.Rel (fun x y => eqIgnoreAsciiCase x y = true) a.nationality b.nationality

structure MarkingRecased (c d : CategoryMarking) : Prop where
  same : d = { c with values := d.values }
  values : Recased c.values d.values
  kept : ¬ Releasing c → d.values = c.values

structure LabelRecased (a b : ConfidentialityLabel) : Prop where
  same : b = { a with categories := b.categories }
  categories : List.Forall₂ MarkingRecased a.categories b.categories

structure DomainRecased (d e : SecurityDomain) : Prop where
  same : e = { d with
    releasableTo := e.releasableTo, acceptedNationalities := e.acceptedNationalities }
  releasableTo : Recased d.releasableTo e.releasableTo
  acceptedNationalities : Recased d.acceptedNationalities e.acceptedNationalities

def StoreRecased (a b : PolicyStore) : Prop := ∀ id, Option.Rel DomainRecased (a.domain id) (b.domain id)

theorem domainRecased_refl (d : SecurityDomain) : DomainRecased d d :=
  ⟨rfl, Recased.refl _, Recased.refl _⟩

theorem storeRecased_refl (store : PolicyStore) : StoreRecased store store := by
  intro id
  cases store.domain id with
  | none => exact .none
  | some d => exact .some (domainRecased_refl d)

def accessing (subject : SubjectAttributes) (label : ConfidentialityLabel)
    (operation : AccessOperation) (id : DomainId) : PolicyContext :=
  ⟨subject, .fromLabel label, ⟨operation, id, none, none⟩, label⟩

/-- The decision is the same however the country codes are spelled. -/
def CaseBlind (pdp : PolicyDecisionPoint) (subject : SubjectAttributes)
    (label : ConfidentialityLabel) (operation : AccessOperation) (id : DomainId) : Prop :=
  ∀ pdp' subject' label', StoreRecased pdp pdp' → SubjectRecased subject subject' →
    LabelRecased label label' →
    effectOf (evaluateAccess pdp' (accessing subject' label' operation id)) =
      effectOf (evaluateAccess pdp (accessing subject label operation id))

/-- What a local access asks, but for the nationality being one of the label's countries. -/
structure OtherwisePermitted (subject : SubjectAttributes) (label : ConfidentialityLabel)
    (domain : SecurityDomain) : Prop where
  caveats : ∀ caveat ∈ label.restrictiveCategoryValues, subject.holdsCaveat caveat = true
  mission : domain.missionCompartments = [] ∨
    ∃ m, subject.missionId = some m ∧ domain.acceptsMission m = true
  cleared : label.classification ≤ subject.clearance
  contained : label.classification ≤ domain.maxClassification
  accepted : ∀ n, subject.nationality = some n → domain.acceptsCountry n = true
  releasable : ∀ country ∈ label.releasableCountries, domain.acceptsCountry country = true

def ListsNationality (subject : SubjectAttributes) (label : ConfidentialityLabel) : Prop :=
  ∀ n, subject.nationality = some n → label.releasableCountries = [] ∨ n ∈ label.releasableCountries

theorem accessPermitted_iff {subject : SubjectAttributes} {label : ConfidentialityLabel}
    {domain : SecurityDomain} : AccessPermitted subject label domain ↔
      OtherwisePermitted subject label domain ∧ ListsNationality subject label := by
  constructor
  · intro granted
    exact ⟨⟨granted.caveats, granted.mission, granted.cleared, granted.contained,
      fun n named => (granted.national n named).2, granted.releasable⟩,
      fun n named => (granted.national n named).1⟩
  · intro both
    obtain ⟨other, lists⟩ := both
    exact ⟨other.caveats, other.mission, other.cleared, other.contained,
      fun n named => ⟨lists n named, other.accepted n named⟩, other.releasable⟩

theorem MarkingRecased.releasing {c d : CategoryMarking} (recased : MarkingRecased c d) :
    Releasing d ↔ Releasing c := by
  rw [recased.same]
  exact Iff.rfl

theorem selected_recased {p : CategoryMarking → Bool} {a b : List CategoryMarking}
    (recased : List.Forall₂ MarkingRecased a b)
    (alike : ∀ c d, MarkingRecased c d → p d = p c) :
    Recased ((a.filter p).flatMap (·.values)) ((b.filter p).flatMap (·.values)) := by
  induction recased with
  | nil => exact .nil
  | @cons c d a b head _ ih =>
    have selected := alike c d head
    rw [List.filter_cons, List.filter_cons, selected]
    cases p c with
    | false => exact ih
    | true => exact List.rel_append head.values ih

theorem LabelRecased.countries {a b : ConfidentialityLabel} (recased : LabelRecased a b) :
    Recased a.releasableCountries b.releasableCountries := by
  refine selected_recased recased.categories fun c d marking => ?_
  rw [marking.same]

theorem LabelRecased.caveats {a b : ConfidentialityLabel} (recased : LabelRecased a b) :
    Recased a.restrictiveCategoryValues b.restrictiveCategoryValues := by
  refine selected_recased recased.categories fun c d marking => ?_
  rw [marking.same]

theorem DomainRecased.acceptsCountry {d e : SecurityDomain} (recased : DomainRecased d e)
    {x y : String} (same : eqIgnoreAsciiCase x y = true) : d.acceptsCountry x = e.acceptsCountry y := by
  unfold SecurityDomain.acceptsCountry
  rw [recased.releasableTo.any same, recased.acceptedNationalities.any same,
    recased.releasableTo.isEmpty, recased.acceptedNationalities.isEmpty]

theorem SubjectRecased.holdsCaveat {a b : SubjectAttributes} (recased : SubjectRecased a b)
    {x y : String} (same : eqIgnoreAsciiCase x y = true) : a.holdsCaveat x = b.holdsCaveat y := by
  rw [recased.same]
  exact (Recased.refl a.handlingCaveats).any same

theorem OtherwisePermitted.recased {a b : SubjectAttributes} {l m : ConfidentialityLabel}
    {d e : SecurityDomain} (subject : SubjectRecased a b) (label : LabelRecased l m)
    (domain : DomainRecased d e) (permitted : OtherwisePermitted a l d) :
    OtherwisePermitted b m e := by
  obtain ⟨caveats, mission, cleared, contained, accepted, releasable⟩ := permitted
  refine ⟨?_, ?_, ?_, ?_, ?_, ?_⟩
  · intro caveat listed
    obtain ⟨x, listed', same⟩ := label.caveats.symm.mem listed
    rw [eqIgnoreAsciiCase_comm] at same
    rw [← subject.holdsCaveat same]
    exact caveats x listed'
  · rw [subject.same, domain.same]
    exact mission
  · rw [subject.same, label.same]
    exact cleared
  · rw [label.same, domain.same]
    exact contained
  · intro n named
    have related := subject.nationality
    rw [named] at related
    generalize own : a.nationality = nationality at related
    cases related with
    | some same =>
      rw [← domain.acceptsCountry same]
      exact accepted _ own
  · intro country listed
    obtain ⟨x, listed', same⟩ := label.countries.symm.mem listed
    rw [eqIgnoreAsciiCase_comm] at same
    rw [← domain.acceptsCountry same]
    exact releasable x listed'

theorem SubjectRecased.symm {a b : SubjectAttributes} (recased : SubjectRecased a b) :
    SubjectRecased b a := by
  refine ⟨?_, ?_⟩
  · rw [recased.same]
  · have related := recased.nationality
    generalize a.nationality = x, b.nationality = y at related ⊢
    cases related with
    | some same => exact .some (eqIgnoreAsciiCase_comm _ _ ▸ same)
    | none => exact .none

theorem MarkingRecased.symm {c d : CategoryMarking} (recased : MarkingRecased c d) :
    MarkingRecased d c := by
  refine ⟨?_, recased.values.symm, fun silent => ?_⟩
  · rw [recased.same]
  · exact (recased.kept fun releasing => silent (recased.releasing.mpr releasing)).symm

theorem LabelRecased.symm {a b : ConfidentialityLabel} (recased : LabelRecased a b) :
    LabelRecased b a := by
  refine ⟨?_, ?_⟩
  · cases a
    rw [recased.same]
  · exact List.Forall₂.flip (recased.categories.imp fun c d marking => marking.symm)

theorem DomainRecased.symm {d e : SecurityDomain} (recased : DomainRecased d e) :
    DomainRecased e d := by
  refine ⟨?_, recased.releasableTo.symm, recased.acceptedNationalities.symm⟩
  rw [recased.same]

theorem evaluateAccess_effect {pdp : PolicyDecisionPoint} {context : PolicyContext}
    {decision : PolicyDecision} (evaluated : evaluateAccess pdp context = .ok decision) :
    decision.effect = .permit ∨ decision.effect = .deny := by
  have denied : ∀ reason, (PolicyDecision.denied reason).effect = .permit ∨
      (PolicyDecision.denied reason).effect = .deny := fun _ => .inr rfl
  unfold evaluateAccess at evaluated
  split at evaluated
  · cases evaluated
  · rcases checked_or_denied (checkHandlingCaveats_denies _ _) evaluated with ⟨r, rfl⟩ | evaluated
    · exact denied r
    · rcases checked_or_denied (checkMissionCompartment_denies _ _ _) evaluated with
        ⟨r, rfl⟩ | evaluated
      · exact denied r
      · split at evaluated
        · exact Except.ok.inj evaluated ▸ denied _
        · split at evaluated
          · exact Except.ok.inj evaluated ▸ denied _
          · rcases checked_or_denied (checkNationality_denies _ _ _) evaluated with
              ⟨r, rfl⟩ | evaluated
            · exact denied r
            · rcases checked_or_denied (checkReleasability_denies _ _ _) evaluated with
                ⟨r, rfl⟩ | evaluated
              · exact denied r
              · exact Except.ok.inj evaluated ▸ .inl rfl

open Classical in
theorem access_effect {pdp : PolicyDecisionPoint} {id : DomainId} {domain : SecurityDomain}
    (known : pdp.domain id = some domain) (subject : SubjectAttributes)
    (label : ConfidentialityLabel) (operation : AccessOperation) :
    effectOf (evaluateAccess pdp (accessing subject label operation id)) =
      some (if AccessPermitted subject label domain then .permit else .deny) := by
  have permits := evaluateAccess_permits pdp subject label operation id domain known
  have registered : pdp.domain (accessing subject label operation id).environment.sourceDomain =
      some domain := known
  obtain ⟨decision, evaluated⟩ := evaluateAccess_decides registered
  rw [effectOf_some]
  rcases evaluateAccess_effect evaluated with permit | deny
  · have granted : AccessPermitted subject label domain :=
      permits.mp ⟨decision, evaluated, by simp [permit]⟩
    exact ⟨decision, evaluated, by rw [if_pos granted, permit]⟩
  · have refused : ¬ AccessPermitted subject label domain := fun granted =>
      denies_not_permits ⟨decision, evaluated, deny⟩ (permits.mpr granted)
    exact ⟨decision, evaluated, by rw [if_neg refused, deny]⟩

theorem access_effect_eq {pdp pdp' : PolicyDecisionPoint} {subject subject' : SubjectAttributes}
    {label label' : ConfidentialityLabel} {operation : AccessOperation} {id : DomainId}
    {domain domain' : SecurityDomain} (known : pdp.domain id = some domain)
    (known' : pdp'.domain id = some domain') :
    effectOf (evaluateAccess pdp' (accessing subject' label' operation id)) =
        effectOf (evaluateAccess pdp (accessing subject label operation id)) ↔
      (AccessPermitted subject' label' domain' ↔ AccessPermitted subject label domain) := by
  rw [access_effect known, access_effect known']
  by_cases granted : AccessPermitted subject label domain
  · by_cases granted' : AccessPermitted subject' label' domain'
    · simp [granted, granted']
    · simp [granted, granted']
  · by_cases granted' : AccessPermitted subject' label' domain'
    · simp [granted, granted']
    · simp [granted, granted']

theorem access_unknown {pdp : PolicyDecisionPoint} {id : DomainId} (absent : pdp.domain id = none)
    (subject : SubjectAttributes) (label : ConfidentialityLabel) (operation : AccessOperation) :
    effectOf (evaluateAccess pdp (accessing subject label operation id)) = none := by
  have unknown : requireDomain pdp id =
      .error (.notFound ("domain '" ++ id.text ++ "' not registered")) := by
    rw [requireDomain, absent]
  simp only [evaluateAccess, accessing, unknown]
  rfl

theorem ListsNationality.recased {a b : SubjectAttributes} {l m : ConfidentialityLabel}
    (subject : SubjectRecased a b) (label : LabelRecased l m)
    (caseless : ∀ n, a.nationality = some n →
      (∃ c ∈ l.releasableCountries, eqIgnoreAsciiCase c n = true) → Caseless n) :
    ListsNationality a l ↔ ListsNationality b m := by
  have related := subject.nationality
  unfold ListsNationality
  generalize a.nationality = nationality, b.nationality = nationality' at related caseless
  cases related with
  | none => simp
  | @some n n' same =>
    have silent : l.releasableCountries = [] ↔ m.releasableCountries = [] := by
      rw [← List.isEmpty_iff, ← List.isEmpty_iff, label.countries.isEmpty]
    have listed : n ∈ l.releasableCountries ↔ n' ∈ m.releasableCountries := by
      constructor
      · intro member
        have plain := caseless n rfl ⟨n, member, eqIgnoreAsciiCase_self n⟩
        obtain ⟨c, member', alike⟩ := label.countries.mem member
        rw [plain.unique same, ← plain.unique alike]
        exact member'
      · intro member
        obtain ⟨c, member', alike⟩ := label.countries.symm.mem member
        have alike' : eqIgnoreAsciiCase c n = true := by
          rw [eqIgnoreAsciiCase_congr same, eqIgnoreAsciiCase_comm]
          exact alike
        have plain := caseless n rfl ⟨c, member', alike'⟩
        rw [eqIgnoreAsciiCase_comm] at alike'
        rw [← plain.unique alike']
        exact member'
    simp only [Option.some.injEq, forall_eq', silent, listed]

def capitalized (label : ConfidentialityLabel) : ConfidentialityLabel :=
  { label with categories := label.categories.map fun c =>
      if Releasing c then { c with values := c.values.map toAsciiUppercase } else c }

theorem capitalized_recased (label : ConfidentialityLabel) :
    LabelRecased label (capitalized label) := by
  refine ⟨rfl, List.forall₂_map_right_iff.mpr (List.forall₂_same.mpr fun c _ => ?_)⟩
  by_cases releasing : Releasing c
  · rw [if_pos releasing]
    exact ⟨rfl, Recased.upper c.values, fun silent => absurd releasing silent⟩
  · rw [if_neg releasing]
    exact ⟨rfl, Recased.refl c.values, fun _ => rfl⟩

theorem capitalized_countries {label : ConfidentialityLabel} {country : String}
    (listed : country ∈ (capitalized label).releasableCountries) :
    toAsciiUppercase country = country := by
  obtain ⟨d, member, releasing, value⟩ := mem_releasableCountries.mp listed
  obtain ⟨c, _, rfl⟩ := List.mem_map.mp member
  by_cases releases : Releasing c
  · rw [if_pos releases] at value
    obtain ⟨x, _, rfl⟩ := List.mem_map.mp value
    exact toAsciiUppercase_toAsciiUppercase x
  · rw [if_neg releases] at releasing
    exact absurd releasing releases

theorem CaseBlind.caseless {pdp : PolicyDecisionPoint} {subject : SubjectAttributes}
    {label : ConfidentialityLabel} {operation : AccessOperation} {id : DomainId}
    (blind : CaseBlind pdp subject label operation id) {domain : SecurityDomain}
    (known : pdp.domain id = some domain) (other : OtherwisePermitted subject label domain)
    {n c : String} (named : subject.nationality = some n) (member : c ∈ label.releasableCountries)
    (same : eqIgnoreAsciiCase c n = true) : Caseless n := by
  have spelled : ∀ n', eqIgnoreAsciiCase n n' = true →
      SubjectRecased subject { subject with nationality := some n' } := by
    intro n' alike
    refine ⟨rfl, ?_⟩
    rw [named]
    exact .some alike
  have capitals := capitalized_recased label
  have upper := spelled _ (eqIgnoreAsciiCase_upper n)
  have lower := spelled _ (eqIgnoreAsciiCase_lower n)
  have decided := (blind pdp _ _ (storeRecased_refl pdp) upper capitals).trans
    (blind pdp _ _ (storeRecased_refl pdp) lower capitals).symm
  have both := (access_effect_eq known known).mp decided
  obtain ⟨c', member', alike⟩ := capitals.countries.mem member
  have found : toAsciiUppercase n ∈ (capitalized label).releasableCountries := by
    rw [← toAsciiUppercase_congr same, toAsciiUppercase_congr alike, capitalized_countries member']
    exact member'
  have permitted := both.mp (accessPermitted_iff.mpr
    ⟨other.recased upper capitals (domainRecased_refl _),
      fun m same => .inr (Option.some.inj same ▸ found)⟩)
  rcases (permitted.national _ rfl).1 with none | small
  · rw [none] at found
    cases found
  · have capital := capitalized_countries small
    rw [toAsciiUppercase_toAsciiLowercase] at capital
    exact capital.symm

theorem accessPermitted_recased {a b : SubjectAttributes} {l m : ConfidentialityLabel}
    {d e : SecurityDomain} (subject : SubjectRecased a b) (label : LabelRecased l m)
    (domain : DomainRecased d e)
    (caseless : OtherwisePermitted a l d → ∀ n, a.nationality = some n →
      (∃ c ∈ l.releasableCountries, eqIgnoreAsciiCase c n = true) → Caseless n) :
    AccessPermitted b m e ↔ AccessPermitted a l d := by
  have others : OtherwisePermitted b m e ↔ OtherwisePermitted a l d := by
    constructor
    · intro other
      exact other.recased subject.symm label.symm domain.symm
    · intro other
      exact other.recased subject label domain
  rw [accessPermitted_iff, accessPermitted_iff, others]
  refine and_congr_right fun other => ?_
  exact (ListsNationality.recased subject label (caseless other)).symm

theorem caseBlind_iff (pdp : PolicyDecisionPoint) (subject : SubjectAttributes)
    (label : ConfidentialityLabel) (operation : AccessOperation) (id : DomainId) :
    CaseBlind pdp subject label operation id ↔
      ∀ domain, pdp.domain id = some domain → OtherwisePermitted subject label domain →
        ∀ n, subject.nationality = some n →
          (∃ c ∈ label.releasableCountries, eqIgnoreAsciiCase c n = true) → Caseless n := by
  constructor
  · intro blind domain known other n named listed
    obtain ⟨c, member, same⟩ := listed
    exact blind.caseless known other named member same
  · intro condition pdp' subject' label' store renamed relabelled
    have related := store id
    generalize known : pdp.domain id = domain, known' : pdp'.domain id = domain' at related
    cases related with
    | none => rw [access_unknown known, access_unknown known']
    | @some domain domain' recased =>
      rw [access_effect_eq known known']
      exact accessPermitted_recased renamed relabelled recased (condition domain known)

/-- A nationality in small letters is not found among the countries of the label. -/
theorem lowercase_nationality_denied :
    let subject : SubjectAttributes :=
      { subjectId := "analyst", clearance := .secret, nationality := some "USA" }
    let label := (ConfidentialityLabel.new .nato .secret).withCategory (.releasableTo ["USA"])
    let pdp := PolicyStore.presetHighToLow
    Permits (evaluateAccess pdp (accessing subject label .read ⟨"DOMAIN-HIGH"⟩)) ∧
      Denies (evaluateAccess pdp (accessing { subject with nationality := some "usa" } label .read
        ⟨"DOMAIN-HIGH"⟩)) ∧
      ¬ CaseBlind pdp subject label .read ⟨"DOMAIN-HIGH"⟩ := by
  intro subject label pdp
  have permitted : effectOf (evaluateAccess pdp (accessing subject label .read ⟨"DOMAIN-HIGH"⟩)) =
      some .permit := by decide +kernel
  have denied : effectOf (evaluateAccess pdp (accessing { subject with nationality := some "usa" }
      label .read ⟨"DOMAIN-HIGH"⟩)) = some .deny := by decide +kernel
  refine ⟨permits_of_effect permitted, effectOf_some.mp denied, ?_⟩
  intro blind
  have renamed : SubjectRecased subject { subject with nationality := some "usa" } :=
    ⟨rfl, .some (by decide)⟩
  have same : LabelRecased label label :=
    ⟨rfl, List.forall₂_same.mpr fun c _ => ⟨rfl, Recased.refl _, fun _ => rfl⟩⟩
  have decided := blind pdp _ _ (storeRecased_refl pdp) renamed same
  rw [permitted, denied] at decided
  cases decided

end Spelling

end MimPolicy
