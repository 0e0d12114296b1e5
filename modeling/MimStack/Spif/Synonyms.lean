import MimStack.Spif
import MimStack.Lib.AsciiCase

/-!
Classification names. A level has one name of its own and further spellings that are
read as the same level, while a policy's classification check and its rules compare texts.
-/
namespace MimSpif
open RustText MimLabeling

def synonyms : ClassificationLevel → List String
  | .unclassified => ["NATO UNCLASSIFIED"]
  | .restricted => ["NATO RESTRICTED"]
  | .confidential => ["NATO CONFIDENTIAL", "NATO/EAPC CONFIDENTIAL", "NATO/KFOR CONFIDENTIAL"]
  | .secret => ["NATO SECRET"]
  | .cosmicTopSecret => ["TOP SECRET", "COSMIC_TOP_SECRET"]
  | .unmarked | .publicLevel | .internal => []

theorem parse_iff (text : String) (level : ClassificationLevel) :
    ClassificationLevel.parse text = .ok level ↔
      toAsciiUppercase (trim text) = level.asStanagStr ∨
        toAsciiUppercase (trim text) ∈ synonyms level := by
  unfold ClassificationLevel.parse
  split <;> cases level <;> simp_all [synonyms, ClassificationLevel.asStanagStr]

theorem asStanagStr_not_synonym (level : ClassificationLevel) :
    level.asStanagStr ∉ synonyms level := by
  cases level <;> decide

def OwnName (level : ClassificationLevel) (text : String) : Prop :=
  eqIgnoreAsciiCase text level.asStanagStr = true

def OtherSpelling (level : ClassificationLevel) (text : String) : Prop :=
  toAsciiUppercase (trim text) ∈ synonyms level ∨
    (toAsciiUppercase (trim text) = level.asStanagStr ∧ trim text ≠ text)

theorem ownName_iff (level : ClassificationLevel) (text : String) :
    OwnName level text ↔ toAsciiUppercase (trim text) = level.asStanagStr ∧ trim text = text := by
  apply eqIgnoreAsciiCase_word_iff
  · cases level <;> rfl
  · cases level <;> rfl

theorem parse_spelling (level : ClassificationLevel) (text : String) :
    ClassificationLevel.parse text = .ok level ↔ OwnName level text ∨ OtherSpelling level text := by
  rw [parse_iff, ownName_iff, OtherSpelling]
  by_cases whole : trim text = text
  · simp [whole]
  · simp only [whole, and_false, false_or, ne_eq, not_false_eq_true, and_true]
    exact or_comm

theorem ownName_not_other {level : ClassificationLevel} {text : String} (own : OwnName level text) :
    ¬ OtherSpelling level text := by
  obtain ⟨named, whole⟩ := (ownName_iff level text).mp own
  intro other
  rcases other with synonym | spaced
  · exact asStanagStr_not_synonym level (named ▸ synonym)
  · exact spaced.2 whole

section Verdict

variable (policy : SpifPolicy) (label : ConfidentialityLabel)

def classificationRefusal : LabelError :=
  .validation ("classification " ++ label.classification.asStanagStr ++
    " not permitted by SPIF policy " ++ policy.policyId)

/-- The policy does not refuse the label for its classification. -/
def PassesClassificationCheck : Prop :=
  validateAgainstPolicy label policy ≠ .error (classificationRefusal policy label)

/-- Some requirement of the rule's would make it refuse the label. -/
def RuleApplies (rule : SpifValidation) : Prop :=
  ∃ required, validateRules label [{ rule with requiredAnyOf := required }] ≠ .ok ()

theorem refusal_begins {message : String}
    (same : LabelError.validation message = classificationRefusal policy label) :
    message.toList.take 2 = ['c', 'l'] := by
  obtain rfl := LabelError.validation.inj same
  simp

theorem validateCategories_refusal (categories : List CategoryMarking) :
    validateCategories policy categories ≠ .error (classificationRefusal policy label) := by
  induction categories with
  | nil => simp [validateCategories]
  | cons category rest ih =>
    intro refused
    unfold validateCategories at refused
    split at refused
    · simpa using refusal_begins policy label (Except.error.inj refused)
    · dsimp only at refused
      split at refused
      · simpa using refusal_begins policy label (Except.error.inj refused)
      · split at refused
        · simpa using refusal_begins policy label (Except.error.inj refused)
        · exact ih refused

theorem validateRules_refusal (rules : List SpifValidation) :
    validateRules label rules ≠ .error (classificationRefusal policy label) := by
  induction rules with
  | nil => simp [validateRules]
  | cons rule rest ih =>
    intro refused
    rw [validateRules_cons] at refused
    split at refused
    · simpa using refusal_begins policy label (Except.error.inj refused)
    · exact ih refused

theorem passes_iff : PassesClassificationCheck policy label ↔
    ∃ allowed ∈ policy.allowedClassifications, OwnName label.classification allowed := by
  have listed : (∃ allowed ∈ policy.allowedClassifications, OwnName label.classification allowed) ↔
      policy.allowedClassifications.any (eqIgnoreAsciiCase · label.classification.asStanagStr) =
        true := List.any_eq_true.symm
  rw [listed, PassesClassificationCheck, validateAgainstPolicy]
  constructor
  · intro passed
    by_contra unlisted
    exact passed (if_pos (by simpa using unlisted))
  · intro allowed
    rw [if_neg (by simp [allowed])]
    intro refused
    split at refused
    · rename_i e failed
      exact validateCategories_refusal policy label label.categories
        (failed.trans (congrArg Except.error (Except.error.inj refused)))
    · exact validateRules_refusal policy label _ refused

theorem ruleApplies_iff (rule : SpifValidation) :
    RuleApplies label rule ↔ OwnName label.classification rule.classification := by
  have applies : OwnName label.classification rule.classification ↔
      rule.applies label.classification = true := by
    rw [OwnName, eqIgnoreAsciiCase_comm, SpifValidation.applies]
  rw [applies]
  constructor
  · intro fired
    obtain ⟨required, refused⟩ := fired
    by_contra skipped
    apply refused
    rw [validateRules_ok_iff]
    intro other listed
    obtain rfl := List.mem_singleton.mp listed
    exact fun fired => absurd fired skipped
  · intro fired
    refine ⟨[], ?_⟩
    intro accepted
    have met := (validateRules_ok_iff _ _).mp accepted _ (List.mem_singleton_self _) fired
    simp [SpifValidation.requires] at met

end Verdict

/-- The policy names the level as such wherever it names it in its rules, and in its list of
classifications if it names it there at all. -/
def NamesLevel (policy : SpifPolicy) (level : ClassificationLevel) : Prop :=
  ((∃ allowed ∈ policy.allowedClassifications, OtherSpelling level allowed) →
      ∃ allowed ∈ policy.allowedClassifications, OwnName level allowed) ∧
    ∀ rule ∈ policy.validations, ¬ OtherSpelling level rule.classification

theorem synonyms_respected_iff (policy : SpifPolicy) (label : ConfidentialityLabel) :
    ((PassesClassificationCheck policy label ↔ ∃ allowed ∈ policy.allowedClassifications,
          ClassificationLevel.parse allowed = .ok label.classification) ∧
      ∀ rule ∈ policy.validations, RuleApplies label rule ↔
        ClassificationLevel.parse rule.classification = .ok label.classification) ↔
      NamesLevel policy label.classification := by
  simp only [passes_iff, ruleApplies_iff, parse_spelling]
  constructor
  · intro respected
    refine ⟨?_, ?_⟩
    · intro other
      obtain ⟨allowed, listed, spelled⟩ := other
      exact respected.1.mpr ⟨allowed, listed, Or.inr spelled⟩
    · intro rule listed other
      exact ownName_not_other ((respected.2 rule listed).mpr (Or.inr other)) other
  · intro named
    refine ⟨⟨?_, ?_⟩, ?_⟩
    · intro own
      obtain ⟨allowed, listed, spelled⟩ := own
      exact ⟨allowed, listed, Or.inl spelled⟩
    · intro read
      obtain ⟨allowed, listed, own | other⟩ := read
      · exact ⟨allowed, listed, own⟩
      · exact named.1 ⟨allowed, listed, other⟩
    · intro rule listed
      exact ⟨Or.inl, fun read => read.resolve_right (named.2 rule listed)⟩

def topSecretLabel : ConfidentialityLabel := .new .nato .cosmicTopSecret

/-- The built-in US policy refuses the level that it lists under its national name, and its rule
for that level never fires. -/
theorem us_top_secret_refused :
    (∃ allowed ∈ SpifPolicy.capcoUs.allowedClassifications,
      ClassificationLevel.parse allowed = .ok topSecretLabel.classification) ∧
    ¬ PassesClassificationCheck .capcoUs topSecretLabel ∧
    ∃ rule ∈ SpifPolicy.capcoUs.validations,
      ClassificationLevel.parse rule.classification = .ok topSecretLabel.classification ∧
      ¬ RuleApplies topSecretLabel rule := by
  have listed : "TOP SECRET" ∈ SpifPolicy.capcoUs.allowedClassifications := by decide
  have rule : (⟨"TOP SECRET", "SCI", ["SI", "TK"]⟩ : SpifValidation) ∈
      SpifPolicy.capcoUs.validations := by decide
  refine ⟨⟨_, listed, rfl⟩, ?_, _, rule, rfl, ?_⟩
  · rw [passes_iff]
    intro named
    obtain ⟨allowed, listed, own⟩ := named
    have unnamed : ∀ allowed ∈ SpifPolicy.capcoUs.allowedClassifications,
        eqIgnoreAsciiCase allowed topSecretLabel.classification.asStanagStr = false := by decide
    exact Bool.false_ne_true ((unnamed allowed listed).symm.trans own)
  · rw [ruleApplies_iff, OwnName]
    decide

end MimSpif
