import MimStack.Access

/-!
From metadata to label and back. A label is read off three fields that may be nil; where
the classification is, the releasability goes with it. Written back, a label keeps its
policy, its level and its countries.
-/
namespace MimPolicy
open RustText Fallible IndexedMap MimCore MimModel MimLabeling
open PolicyDecisionPoint

variable [UnicodeCase]

/-- The countries that a releasability text lists. -/
def countriesIn (releasability : String) : List String :=
  ((split (fun c => c == ',' || c == ';' || c == ' ') releasability).filter
    fun s => !isEmpty s).map toUppercase

def countriesOf (security : SecurityClassification) : List String :=
  (security.releasability.asOption.map countriesIn).getD []

omit [UnicodeCase] in
def marked (policyId : String) (level : ClassificationLevel) (countries : List String) :
    ConfidentialityLabel :=
  let label := ConfidentialityLabel.new (LabelPolicy.nato.withIdentifier policyId) level
  if countries.isEmpty then label else label.withCategory (.releasableTo countries)

omit [UnicodeCase] in
@[simp] theorem marked_classification (policyId : String) (level : ClassificationLevel)
    (countries : List String) : (marked policyId level countries).classification = level := by
  cases countries <;> rfl

omit [UnicodeCase] in
@[simp] theorem marked_countries (policyId : String) (level : ClassificationLevel)
    (countries : List String) : (marked policyId level countries).releasableCountries = countries := by
  have tagged : eqIgnoreAsciiCase "Releasable to" "Releasable to" = true := eqIgnoreAsciiCase_self _
  cases countries with
  | nil => rfl
  | cons country rest =>
    simp [marked, ConfidentialityLabel.releasableCountries, ConfidentialityLabel.withCategory,
      ConfidentialityLabel.new, CategoryMarking.releasableTo, tagged]

omit [UnicodeCase] in
@[simp] theorem marked_caveats (policyId : String) (level : ClassificationLevel)
    (countries : List String) : (marked policyId level countries).restrictiveCategoryValues = [] := by
  cases countries with
  | nil => rfl
  | cons country rest => rfl

theorem fromMimSecurity_eq (security : SecurityClassification) :
    ConfidentialityLabel.fromMimSecurity security =
      (ClassificationLevel.parse (security.classification.asOption.getD "UNCLASSIFIED")).map
        fun level => marked (security.policy.asOption.getD "NATO") level (countriesOf security) := by
  unfold ConfidentialityLabel.fromMimSecurity countriesOf
  dsimp only
  cases ClassificationLevel.parse (security.classification.asOption.getD "UNCLASSIFIED") with
  | error e => rfl
  | ok level =>
    cases security.releasability.asOption with
    | none => rfl
    | some releasability =>
      have listed : ((split (fun c => c == ',' || c == ';' || c == ' ') releasability).filter
          fun s => !isEmpty s).map toUppercase = countriesIn releasability := rfl
      simp only [listed, Except.map, marked, Option.map_some, Option.getD_some]
      cases (countriesIn releasability).isEmpty <;> rfl

section Extraction

/-- Countries that are named restrict the label to them, and what is withheld does not make the
label open to everyone. -/
structure FailSafe (security : SecurityClassification) (l : ConfidentialityLabel) : Prop where
  restricted : countriesOf security ≠ [] → l.releasableCountries = countriesOf security
  withheld : security.classification = .nil .withheld →
    ¬ (l.classification = .unclassified ∧ l.releasableCountries = [])

theorem extraction_failSafe_iff (security : SecurityClassification) :
    (∀ l, labelFromSecurity security = .ok l → FailSafe security l) ↔
      security.classification.asOption.isSome = true ∨
        countriesOf security = [] ∧ security.classification ≠ .nil .withheld := by
  by_cases present : security.classification.asOption.isSome = true
  · refine iff_of_true ?_ (.inl present)
    intro l labelled
    rw [labelFromSecurity, if_pos present] at labelled
    cases made : ConfidentialityLabel.fromMimSecurity security with
    | error e =>
      rw [made] at labelled
      cases labelled
    | ok l' =>
      rw [made] at labelled
      obtain rfl := Except.ok.inj labelled
      obtain ⟨level, _, rfl⟩ := Fallible.map_ok.mp ((fromMimSecurity_eq security).symm.trans made)
      refine ⟨fun _ => marked_countries _ _ _, fun withheld => ?_⟩
      rw [withheld] at present
      cases present
  · have labelled : labelFromSecurity security = .ok (.new .nato .unclassified) := by
      rw [labelFromSecurity, if_neg present]
    constructor
    · intro safe
      obtain ⟨restricted, withheld⟩ := safe _ labelled
      refine .inr ⟨?_, fun nil => withheld nil ⟨rfl, rfl⟩⟩
      by_contra some'
      exact some' (restricted some').symm
    · intro condition l labelled'
      rcases condition with present' | ⟨none, shown⟩
      · exact absurd present' present
      · exact ⟨fun some' => absurd none some', fun withheld => absurd withheld shown⟩

omit [UnicodeCase] in
/-- Withheld and releasable to one country: the label says neither. -/
theorem withheld_label_open : letI := asciiCase
    let security : SecurityClassification :=
      { classification := .nil .withheld, releasability := .value "USA" }
    ∃ l, labelFromSecurity security = .ok l ∧ countriesOf security = ["USA"] ∧
      l.classification = .unclassified ∧ l.releasableCountries = [] ∧ ¬ FailSafe security l := by
  let : UnicodeCase := asciiCase
  intro security
  have named : countriesOf security = ["USA"] := by decide +kernel
  refine ⟨_, rfl, named, rfl, rfl, ?_⟩
  intro safe
  exact safe.withheld rfl ⟨rfl, rfl⟩

end Extraction

section Storage

theorem countriesIn_join (countries : List String) :
    countriesIn (join "," countries) = countries.flatMap countriesIn := by
  cases countries with
  | nil => rfl
  | cons first rest =>
    have comma : "," = String.singleton ',' := rfl
    have separates : (fun c => c == ',' || c == ';' || c == ' ') ',' = true := rfl
    rw [countriesIn, comma, split_join separates, List.filter_flatMap, List.map_flatMap]
    rfl

theorem stored_label (l : ConfidentialityLabel) :
    ConfidentialityLabel.fromMimSecurity l.toMimSecurity = .ok (marked l.policy.identifier
      l.classification (l.releasableCountries.flatMap countriesIn)) := by
  have countries : countriesOf l.toMimSecurity = l.releasableCountries.flatMap countriesIn := by
    rw [← countriesIn_join, countriesOf, ConfidentialityLabel.toMimSecurity]
    cases empty : isEmpty (join "," l.releasableCountries) with
    | true =>
      have blank : join "," l.releasableCountries = "" := by
        rw [← String.toList_inj]
        exact List.isEmpty_iff.mp empty
      rw [blank]
      rfl
    | false => rfl
  rw [fromMimSecurity_eq, countries]
  simp only [ConfidentialityLabel.toMimSecurity, Nillable.asOption, Option.getD_some,
    ClassificationLevel.parse_asStanagStr, Except.map]

omit [UnicodeCase] in
/-- Whatever is permitted under `a` is permitted under `b`. -/
def NoLooser (a b : ConfidentialityLabel) : Prop :=
  ∀ (pdp : PolicyDecisionPoint) subject operation id,
    Permits (evaluateAccess pdp (accessing subject a operation id)) →
      Permits (evaluateAccess pdp (accessing subject b operation id))

omit [UnicodeCase] in
theorem noLooser_iff {a b : ConfidentialityLabel} : NoLooser a b ↔
    ∀ subject domain, AccessPermitted subject a domain → AccessPermitted subject b domain := by
  constructor
  · intro tight subject domain permitted
    let pdp : PolicyDecisionPoint :=
      { PolicyStore.new with domains := IndexMap.empty.insert domain.id.text domain }
    have known : pdp.domain domain.id = some domain := by
      simp [pdp, PolicyStore.domain]
    exact (evaluateAccess_permits pdp subject b .read domain.id domain known).mp
      (tight pdp subject .read domain.id
        ((evaluateAccess_permits pdp subject a .read domain.id domain known).mpr permitted))
  · intro tight pdp subject operation id permitted
    cases known : pdp.domain id with
    | none =>
      obtain ⟨decision, evaluated, _⟩ := permitted
      have undecided := access_unknown known subject a operation
      rw [evaluated] at undecided
      cases undecided
    | some domain =>
      exact (evaluateAccess_permits pdp subject b operation id domain known).mpr
        (tight subject domain ((evaluateAccess_permits pdp subject a operation id domain known).mp
          permitted))

omit [UnicodeCase] in
def releasing (level : ClassificationLevel) (countries : List String) : SecurityDomain :=
  { id := ⟨"DOMAIN"⟩, name := "", maxClassification := level, releasableTo := countries }

omit [UnicodeCase] in
def cleared (level : ClassificationLevel) (nationality : Option String) : SubjectAttributes :=
  { subjectId := "analyst", clearance := level, nationality }

omit [UnicodeCase] in
theorem releasing_open (level : ClassificationLevel) (country : String) :
    (releasing level []).acceptsCountry country = true := rfl

omit [UnicodeCase] in
theorem releasing_listed {level : ClassificationLevel} {countries : List String} {country : String}
    (some' : countries ≠ []) : (releasing level countries).acceptsCountry country = true ↔
      ∃ c ∈ countries, eqIgnoreAsciiCase c country = true := by
  have filled : countries.isEmpty = false := by
    cases countries with
    | nil => exact absurd rfl some'
    | cons c rest => rfl
  simp [SecurityDomain.acceptsCountry, releasing, filled]

omit [UnicodeCase] in
theorem marked_permitted {policyId : String} {level : ClassificationLevel}
    {countries admitted : List String} {nationality : Option String}
    (national : ∀ n, nationality = some n → (countries = [] ∨ n ∈ countries) ∧
      (releasing level admitted).acceptsCountry n = true)
    (releasable : ∀ c ∈ countries, (releasing level admitted).acceptsCountry c = true) :
    AccessPermitted (cleared level nationality) (marked policyId level countries)
      (releasing level admitted) := by
  refine ⟨by simp, .inl rfl, by simp [cleared], by simp [releasing], ?_, ?_⟩
  · intro n named
    rw [marked_countries]
    exact national n named
  · intro c listed
    rw [marked_countries] at listed
    exact releasable c listed

section Marked

variable {l : ConfidentialityLabel} {policyId : String} {countries : List String}

omit [UnicodeCase] in
theorem NoLooser.opened (tight : NoLooser (marked policyId l.classification countries) l)
    {nationality : Option String}
    (listed : ∀ n, nationality = some n → countries = [] ∨ n ∈ countries) :
    AccessPermitted (cleared l.classification nationality) l (releasing l.classification []) :=
  noLooser_iff.mp tight _ _ (marked_permitted
    (fun n named => ⟨listed n named, releasing_open _ _⟩) fun _ _ => releasing_open _ _)

omit [UnicodeCase] in
theorem NoLooser.uncaveated (tight : NoLooser (marked policyId l.classification countries) l) :
    l.restrictiveCategoryValues = [] := by
  apply List.eq_nil_iff_forall_not_mem.mpr
  intro value listed
  have anonymous : ∀ n, (none : Option String) = some n → countries = [] ∨ n ∈ countries := by
    intro n named
    cases named
  have held := (tight.opened anonymous).caveats value listed
  cases held

omit [UnicodeCase] in
theorem NoLooser.kept (tight : NoLooser (marked policyId l.classification countries) l)
    {part : String} (stays : part ∈ countries) (restricted : l.releasableCountries ≠ []) :
    part ∈ l.releasableCountries := by
  have listed : ∀ n, some part = some n → countries = [] ∨ n ∈ countries :=
    fun n named => .inr (Option.some.inj named ▸ stays)
  rcases ((tight.opened listed).national part rfl).1 with none | member
  · exact absurd none restricted
  · exact member

omit [UnicodeCase] in
theorem NoLooser.covered (tight : NoLooser (marked policyId l.classification countries) l)
    {c : String} (member : c ∈ l.releasableCountries) :
    ∃ part ∈ countries, eqIgnoreAsciiCase part c = true := by
  by_cases none : countries = []
  · obtain ⟨n, unlisted⟩ := exists_unlisted l.releasableCountries
    rcases ((tight.opened fun _ _ => .inl none).national n rfl).1 with silent | listed
    · rw [silent] at member
      cases member
    · exact absurd listed unlisted
  · have permitted : AccessPermitted (cleared l.classification Option.none) l
        (releasing l.classification countries) := by
      apply noLooser_iff.mp tight
      apply marked_permitted
      · intro n named
        cases named
      · intro country listed
        exact (releasing_listed none).mpr ⟨country, listed, eqIgnoreAsciiCase_self country⟩
    exact (releasing_listed none).mp (permitted.releasable c member)

omit [UnicodeCase] in
theorem marked_noLooser (uncaveated : l.restrictiveCategoryValues = [])
    (kept : ∀ part ∈ countries, part ∈ l.releasableCountries)
    (covered : ∀ c ∈ l.releasableCountries, ∃ part ∈ countries, eqIgnoreAsciiCase part c = true) :
    NoLooser (marked policyId l.classification countries) l := by
  apply noLooser_iff.mpr
  intro subject domain permitted
  obtain ⟨_, mission, cleared, contained, national, releasable⟩ := permitted
  rw [marked_classification] at cleared contained
  rw [marked_countries] at national releasable
  refine ⟨by simp [uncaveated], mission, cleared, contained, ?_, ?_⟩
  · intro n named
    obtain ⟨listed, accepted⟩ := national n named
    refine ⟨?_, accepted⟩
    rcases listed with none | member
    · refine .inl (List.eq_nil_iff_forall_not_mem.mpr fun c member => ?_)
      obtain ⟨part, stays, _⟩ := covered c member
      rw [none] at stays
      cases stays
    · exact .inr (kept n member)
  · intro c member
    obtain ⟨part, stays, same⟩ := covered c member
    rw [← acceptsCountry_congr domain same]
    exact releasable part stays

end Marked

theorem stored_no_looser_iff (l : ConfidentialityLabel) :
    (∃ stored, ConfidentialityLabel.fromMimSecurity l.toMimSecurity = .ok stored ∧
        NoLooser stored l) ↔
      l.restrictiveCategoryValues = [] ∧
        (∀ c ∈ l.releasableCountries, ∀ part ∈ countriesIn c, part ∈ l.releasableCountries) ∧
        ∀ c ∈ l.releasableCountries, ∃ d ∈ l.releasableCountries, ∃ part ∈ countriesIn d,
          eqIgnoreAsciiCase part c = true := by
  have read := stored_label l
  constructor
  · intro stored
    obtain ⟨stored, made, tight⟩ := stored
    obtain rfl := Except.ok.inj (read.symm.trans made)
    refine ⟨tight.uncaveated, ?_, ?_⟩
    · intro c member part value
      exact tight.kept (List.mem_flatMap.mpr ⟨c, member, value⟩) (List.ne_nil_of_mem member)
    · intro c member
      obtain ⟨part, listed, same⟩ := tight.covered member
      obtain ⟨d, member', value⟩ := List.mem_flatMap.mp listed
      exact ⟨d, member', part, value, same⟩
  · intro conditions
    obtain ⟨uncaveated, kept, covered⟩ := conditions
    refine ⟨_, read, marked_noLooser uncaveated ?_ ?_⟩
    · intro part stays
      obtain ⟨c, member, value⟩ := List.mem_flatMap.mp stays
      exact kept c member part value
    · intro c member
      obtain ⟨d, member', part, value, same⟩ := covered c member
      exact ⟨part, List.mem_flatMap.mpr ⟨d, member', value⟩, same⟩

omit [UnicodeCase] in
/-- A handling caveat does not outlast the metadata. -/
theorem stored_caveat_lost : letI := asciiCase
    let l := (ConfidentialityLabel.new .nato .secret).withCategory ⟨"Handling", .restrictive, ["LOCSEN"]⟩
    l.validate = .ok () ∧ ¬ ∃ stored,
      ConfidentialityLabel.fromMimSecurity l.toMimSecurity = .ok stored ∧ NoLooser stored l := by
  let : UnicodeCase := asciiCase
  intro l
  refine ⟨ok_of_isOk (by decide +kernel), ?_⟩
  intro stored
  obtain ⟨stored, made, tight⟩ := stored
  obtain rfl := Except.ok.inj ((stored_label l).symm.trans made)
  exact absurd tight.uncaveated (by decide)

end Storage

end MimPolicy
