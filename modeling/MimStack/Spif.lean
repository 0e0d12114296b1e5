import MimStack.Labeling
import MimStack.Lib.IndexMap
import MimStack.Lib.Outcome

/-!
Security policy information files: the built-in policies, the registry and the
validation of a label against the policy its identifier selects.
-/
namespace MimSpif
open RustText IndexedMap Fallible MimLabeling

inductive SpifCategoryType where
  | restrictive
  | permissive
  | informative
  deriving DecidableEq

structure SpifCategory where
  name : String
  categoryType : SpifCategoryType
  allowedValues : List String
  deriving DecidableEq

structure SpifValidation where
  classification : String
  categoryName : String
  requiredAnyOf : List String
  deriving DecidableEq

structure SpifPolicy where
  policyId : String
  policyOid : Option String
  allowedClassifications : List String
  categories : List SpifCategory
  validations : List SpifValidation
  deriving DecidableEq

namespace SpifPolicy

def acme : SpifPolicy where
  policyId := "ACME"
  policyOid := none
  allowedClassifications := ["PUBLIC", "INTERNAL", "CONFIDENTIAL"]
  categories := [⟨"Sensitive", .restrictive, ["RED", "AMBER", "GREEN"]⟩,
    ⟨"Releasable To", .permissive, ["MOCK", "PHONY", "ACME"]⟩]
  validations := [⟨"CONFIDENTIAL", "Releasable To", ["MOCK", "PHONY"]⟩]

def nato : SpifPolicy where
  policyId := "NATO"
  policyOid := some "urn:oid:2.16.840.1.101.2.3.6.1.31778.102.25"
  allowedClassifications := ["UNCLASSIFIED", "NATO UNCLASSIFIED", "RESTRICTED", "NATO RESTRICTED",
    "CONFIDENTIAL", "NATO CONFIDENTIAL", "NATO/EAPC CONFIDENTIAL", "NATO/KFOR CONFIDENTIAL",
    "SECRET", "NATO SECRET", "COSMIC TOP SECRET"]
  categories := [⟨"Releasable to", .permissive, ["USA", "GBR", "DEU", "FRA"]⟩]
  validations := []

def capcoUs : SpifPolicy where
  policyId := "US"
  policyOid := some "2.16.840.1.101.2.3.48.2.1"
  allowedClassifications := ["UNCLASSIFIED", "CONFIDENTIAL", "SECRET", "TOP SECRET"]
  categories := [⟨"SCI", .restrictive, ["SI", "TK", "HCS"]⟩,
    ⟨"Releasable To", .permissive, ["USA", "FVEY", "NATO"]⟩]
  validations := [⟨"TOP SECRET", "SCI", ["SI", "TK"]⟩]

def ukDemo : SpifPolicy where
  policyId := "DEMO-UK"
  policyOid := some "1.2.826.0.1.6726289.0.2"
  allowedClassifications := ["OFFICIAL", "OFFICIAL-SENSITIVE", "SECRET", "TOP SECRET"]
  categories := [⟨"Handling", .restrictive, ["LOCSEN", "UK EYES ONLY"]⟩,
    ⟨"Releasable To", .permissive, ["UK", "NATO", "EU"]⟩]
  validations := [⟨"SECRET", "Handling", ["LOCSEN"]⟩]

end SpifPolicy

structure SpifRegistry where
  policies : IndexMap String SpifPolicy

def SpifRegistry.register (r : SpifRegistry) (policy : SpifPolicy) : Except String SpifRegistry :=
  if isEmpty policy.policyId then .error "SPIF policy identifier is empty"
  else .ok ⟨r.policies.insert policy.policyId policy⟩

/-- The built-in policies all have an identifier, so registering them cannot fail. -/
def SpifRegistry.withDefaults : SpifRegistry where
  policies := IndexMap.ofList (
    [SpifPolicy.nato, .acme, .capcoUs, .ukDemo].map fun p => (p.policyId, p))

def SpifRegistry.policyForLabel (r : SpifRegistry) (label : ConfidentialityLabel) :
    Option SpifPolicy :=
  r.policies.get label.policy.identifier

def expectedType : CategoryType → SpifCategoryType
  | .restrictive => .restrictive
  | .permissive => .permissive
  | .informative => .informative

def validateCategories (policy : SpifPolicy) : List CategoryMarking → Except LabelError Unit
  | [] => .ok ()
  | category :: rest =>
    match policy.categories.find? fun c => eqIgnoreAsciiCase c.name category.tagName with
    | none => .error (.validation ("category '" ++ category.tagName ++
        "' not defined in SPIF policy " ++ policy.policyId))
    | some spifCat =>
      let refused := if spifCat.allowedValues.isEmpty then none
        else category.values.find? fun value =>
          !spifCat.allowedValues.any (eqIgnoreAsciiCase · value)
      match refused with
      | some value => .error (.validation ("category value '" ++ value ++
          "' not permitted for '" ++ category.tagName ++ "'"))
      | none =>
        if spifCat.categoryType != expectedType category.categoryType then
          .error (.validation ("category '" ++ category.tagName ++
            "' type mismatch with SPIF policy"))
        else validateCategories policy rest

def debugList (items : List String) : String :=
  "[" ++ join ", " (items.map fun s => "\"" ++ s ++ "\"") ++ "]"

def validateRules (label : ConfidentialityLabel) : List SpifValidation → Except LabelError Unit
  | [] => .ok ()
  | rule :: rest =>
    if !eqIgnoreAsciiCase label.classification.asStanagStr rule.classification then
      validateRules label rest
    else
      let values := match label.categories.find? fun c =>
          eqIgnoreAsciiCase c.tagName rule.categoryName with
        | some category => category.values
        | none => []
      if rule.requiredAnyOf.any fun required => values.any (eqIgnoreAsciiCase · required) then
        validateRules label rest
      else .error (.validation ("SPIF validation failed: classification " ++ rule.classification ++
        " requires category '" ++ rule.categoryName ++ "' with one of " ++
        debugList rule.requiredAnyOf))

def validateAgainstPolicy (label : ConfidentialityLabel) (policy : SpifPolicy) :
    Except LabelError Unit :=
  if !policy.allowedClassifications.any
      (eqIgnoreAsciiCase · label.classification.asStanagStr) then
    .error (.validation ("classification " ++ label.classification.asStanagStr ++
      " not permitted by SPIF policy " ++ policy.policyId))
  else
    match validateCategories policy label.categories with
    | .error e => .error e
    | .ok () => validateRules label policy.validations

/-- `SpifValidator::validate_label`. -/
def SpifRegistry.validateLabel (r : SpifRegistry) (label : ConfidentialityLabel) :
    Except LabelError Unit :=
  match label.validate with
  | .error e => .error e
  | .ok () =>
    match r.policyForLabel label with
    | none => .error (.invalidPolicy ("unknown SPIF policy identifier: " ++
        label.policy.identifier))
    | some policy => validateAgainstPolicy label policy

section Verdicts

def firstValues (categories : List CategoryMarking) (tagName : String) : List String :=
  match categories.find? fun c => eqIgnoreAsciiCase c.tagName tagName with
  | some category => category.values
  | none => []

def SpifValidation.applies (rule : SpifValidation) (level : ClassificationLevel) : Bool :=
  eqIgnoreAsciiCase level.asStanagStr rule.classification

def SpifValidation.requires (rule : SpifValidation) (value : String) : Bool :=
  rule.requiredAnyOf.any (eqIgnoreAsciiCase value ·)

def SpifValidation.refusal (rule : SpifValidation) : LabelError :=
  .validation ("SPIF validation failed: classification " ++ rule.classification ++
    " requires category '" ++ rule.categoryName ++ "' with one of " ++
    debugList rule.requiredAnyOf)

theorem any_any_comm {α β : Type} (xs : List α) (ys : List β) (p : α → β → Bool) :
    (xs.any fun x => ys.any (p x)) = ys.any fun y => xs.any (p · y) := by
  rw [Bool.eq_iff_iff]
  simp only [List.any_eq_true]
  constructor
  · intro found
    obtain ⟨x, mem, y, mem', holds⟩ := found
    exact ⟨y, mem', x, mem, holds⟩
  · intro found
    obtain ⟨y, mem, x, mem', holds⟩ := found
    exact ⟨x, mem', y, mem, holds⟩

theorem validateRules_cons (label : ConfidentialityLabel) (rule : SpifValidation)
    (rest : List SpifValidation) : validateRules label (rule :: rest) =
      if rule.applies label.classification = true ∧
          (firstValues label.categories rule.categoryName).any rule.requires = false then
        .error rule.refusal
      else validateRules label rest := by
  rw [validateRules]
  cases applies : rule.applies label.classification with
  | false =>
    have skipped := applies
    rw [SpifValidation.applies] at skipped
    simp [skipped]
  | true =>
    have met : (rule.requiredAnyOf.any fun required =>
        (firstValues label.categories rule.categoryName).any (eqIgnoreAsciiCase · required)) =
          (firstValues label.categories rule.categoryName).any rule.requires :=
      any_any_comm rule.requiredAnyOf _ fun required value => eqIgnoreAsciiCase value required
    have fired := applies
    rw [SpifValidation.applies] at fired
    rw [← met]
    simp only [fired, Bool.not_true, Bool.false_eq_true, if_false, true_and]
    change (if (rule.requiredAnyOf.any fun required =>
        (firstValues label.categories rule.categoryName).any (eqIgnoreAsciiCase · required)) = true
      then validateRules label rest else .error rule.refusal) = _
    cases rule.requiredAnyOf.any fun required =>
      (firstValues label.categories rule.categoryName).any (eqIgnoreAsciiCase · required) <;> rfl

theorem validateRules_ok_iff (label : ConfidentialityLabel) (rules : List SpifValidation) :
    validateRules label rules = .ok () ↔ ∀ rule ∈ rules, rule.applies label.classification = true →
      (firstValues label.categories rule.categoryName).any rule.requires = true := by
  induction rules with
  | nil => simp [validateRules]
  | cons rule rest ih =>
    rw [validateRules_cons, List.forall_mem_cons, ← ih]
    split
    · rename_i refused
      simp [refused.1, refused.2]
    · rename_i passed
      simp only [not_and, Bool.not_eq_false] at passed
      exact ⟨fun accepted => ⟨passed, accepted⟩, And.right⟩

end Verdicts

section OtherCategories

theorem validateRules_congr {a b : ConfidentialityLabel}
    (classification : a.classification = b.classification) (categories : a.categories = b.categories)
    (rules : List SpifValidation) : validateRules a rules = validateRules b rules := by
  induction rules with
  | nil => rfl
  | cons rule rest ih => simp only [validateRules, classification, categories, ih]

theorem validateAgainstPolicy_congr {a b : ConfidentialityLabel}
    (classification : a.classification = b.classification) (categories : a.categories = b.categories)
    (policy : SpifPolicy) : validateAgainstPolicy a policy = validateAgainstPolicy b policy := by
  simp only [validateAgainstPolicy, classification, categories,
    validateRules_congr classification categories]

theorem validateAgainstPolicy_allowed {l : ConfidentialityLabel} {policy : SpifPolicy}
    (accepted : validateAgainstPolicy l policy = .ok ()) :
    policy.allowedClassifications.any (eqIgnoreAsciiCase · l.classification.asStanagStr) = true := by
  by_contra refused
  rw [validateAgainstPolicy, if_pos (by simpa using refused)] at accepted
  cases accepted

def acceptedCategories : List (SpifPolicy × List CategoryMarking × List CategoryMarking) := [
  (.nato, [⟨"Releasable to", .permissive, ["USA"]⟩], [⟨"Releasable to", .permissive, ["GBR"]⟩]),
  (.acme, [⟨"Releasable To", .permissive, ["MOCK"]⟩], [⟨"Releasable To", .permissive, ["PHONY"]⟩]),
  (.capcoUs, [⟨"SCI", .restrictive, ["SI"]⟩], [⟨"SCI", .restrictive, ["TK"]⟩]),
  (.ukDemo, [⟨"Handling", .restrictive, ["LOCSEN"]⟩],
    [⟨"Handling", .restrictive, ["LOCSEN", "LOCSEN"]⟩])]

theorem acceptedCategories_accepted : ∀ entry ∈ acceptedCategories,
    ∀ level ∈ ClassificationLevel.all,
      entry.1.allowedClassifications.any (eqIgnoreAsciiCase · level.asStanagStr) = true →
      ∀ categories ∈ [entry.2.1, entry.2.2],
        (validateAgainstPolicy
          { ConfidentialityLabel.new .nato level with categories } entry.1).isOk = true ∧
        (ConfidentialityLabel.validateCategories categories).isOk = true := by
  decide +kernel

theorem accepted_stages {r : SpifRegistry} {l : ConfidentialityLabel}
    (accepted : r.validateLabel l = .ok ()) : l.validate = .ok () ∧
      ∃ policy, r.policyForLabel l = some policy ∧ validateAgainstPolicy l policy = .ok () := by
  unfold SpifRegistry.validateLabel at accepted
  split at accepted
  · cases accepted
  · rename_i valid
    split at accepted
    · cases accepted
    · rename_i policy found
      exact ⟨valid, policy, found, accepted⟩

theorem default_policies (l : ConfidentialityLabel) (policy : SpifPolicy)
    (found : SpifRegistry.withDefaults.policyForLabel l = some policy) :
    ∃ entry ∈ acceptedCategories, entry.1 = policy := by
  have listed : ∀ e ∈ SpifRegistry.withDefaults.policies.entries,
      ∃ entry ∈ acceptedCategories, entry.1 = e.2 := by decide
  exact listed _ (IndexMap.mem_of_get _ _ _ found)

theorem validate_with_categories {l : ConfidentialityLabel} {categories : List CategoryMarking}
    (valid : l.validate = .ok ())
    (marked : ConfidentialityLabel.validateCategories categories = .ok ()) :
    { l with categories }.validate = .ok () := by
  unfold ConfidentialityLabel.validate at *
  split at valid
  · cases valid
  · split at valid
    · cases valid
    · rename_i named allowed
      rw [if_neg named, if_neg allowed]
      exact marked

theorem other_categories_accepted {l : ConfidentialityLabel}
    (accepted : SpifRegistry.withDefaults.validateLabel l = .ok ()) :
    ∃ categories, categories ≠ l.categories ∧
      SpifRegistry.withDefaults.validateLabel { l with categories } = .ok () := by
  obtain ⟨valid, policy, found, agreed⟩ := accepted_stages accepted
  obtain ⟨entry, listed, rfl⟩ := default_policies l policy found
  have level : l.classification ∈ ClassificationLevel.all := by
    cases l.classification <;> decide
  have distinct : ∀ entry ∈ acceptedCategories, entry.2.1 ≠ entry.2.2 := by decide
  have usable := acceptedCategories_accepted entry listed _ level
    (validateAgainstPolicy_allowed agreed)
  have replaced : ∀ categories ∈ [entry.2.1, entry.2.2],
      SpifRegistry.withDefaults.validateLabel { l with categories } = .ok () := by
    intro categories mem
    obtain ⟨permitted, marked⟩ := usable categories mem
    have stillValid := validate_with_categories valid (ok_of_isOk marked)
    have same := validateAgainstPolicy_congr
      (a := { l with categories }) (b := { ConfidentialityLabel.new .nato l.classification with
        categories }) rfl rfl entry.1
    simp only [SpifRegistry.validateLabel, stillValid]
    rw [show SpifRegistry.withDefaults.policyForLabel { l with categories } = some entry.1
      from found]
    exact same.trans (ok_of_isOk permitted)
  by_cases taken : l.categories = entry.2.1
  · exact ⟨entry.2.2, fun same => distinct entry listed (taken.symm.trans same.symm),
      replaced _ (by simp)⟩
  · exact ⟨entry.2.1, fun same => taken same.symm, replaced _ (by simp)⟩

end OtherCategories

theorem nato_accepts : ∀ level ∈ [ClassificationLevel.unclassified, .secret],
    ∀ categories ∈ [[], [CategoryMarking.releasableTo ["USA"]]],
      SpifRegistry.withDefaults.validateLabel
        { ConfidentialityLabel.new .nato level with categories } = .ok () := by
  decide +kernel

end MimSpif
