import MimStack.Stanag4774.RoundTrip
import MimStack.Stanag4778.Carriers

/-!
Detached labels. The reference of a binding is resolved to a document, which is
checked against the schema and decoded, and the label that comes of it is compared
with the binding's own, but for the categories.
-/
namespace MimStanag
open RustText ByteText Fallible MarkupText MimCore MimLabeling MimSpif MimCrypto

def labelRoots : List String :=
  ["ConfidentialityLabel", "originatorConfidentialityLabel", "metadataConfidentialityLabel"]

/-- The check that stands in for the schema where no schema validator accepts. -/
def validateStructural (xml : String) : Except String Unit :=
  let has (text : String) : Bool := contains text xml
  if !has stanag4774Namespace then .error ("missing namespace " ++ stanag4774Namespace)
  else if !labelRoots.any has then .error "missing confidentiality label root element"
  else if !has "ConfidentialityInformation" then .error "missing ConfidentialityInformation"
  else if !has "PolicyIdentifier" then .error "missing PolicyIdentifier"
  else if !has "Classification" then .error "missing Classification"
  else .ok ()

/-- Where label documents are kept and what they are read with: the resolver, the schema validator,
the pull parser and the reader of times. -/
structure LabelDocuments where
  resolveLabelXml : String → Except LabelError String
  validateWithXmllint : String → Except String Unit
  reader : MarkupReader
  readTime : TimeReader

namespace LabelDocuments

variable (D : LabelDocuments)

def validateStanag4774Xsd (xml : String) : Except String Unit :=
  match D.validateWithXmllint xml with
  | .ok () => .ok ()
  | .error e => (validateStructural xml).mapError fun structural =>
    "XSD validation failed (" ++ e ++ "); structural check: " ++ structural

/-- `Stanag4774Codec::deserialize` with the XML format. -/
def deserialize (xml : String) : Except LabelError ConfidentialityLabel := do
  (D.validateStanag4774Xsd xml).mapError fun err =>
    .validation ("STANAG 4774 XSD validation failed: " ++ err)
  deserializeXml D.reader D.readTime xml

def resolver : DetachedLabelResolver := fun uri => do
  let xml ← D.resolveLabelXml uri
  D.deserialize xml

end LabelDocuments

theorem verifyDetachedLabel_ok_iff (l : ConfidentialityLabel) (uri : String)
    (resolver : DetachedLabelResolver) : verifyDetachedLabel l uri resolver = .ok () ↔
      ∃ external, resolver uri = .ok external ∧
        external.policy.identifier = l.policy.identifier ∧
        external.classification = l.classification := by
  unfold verifyDetachedLabel
  constructor
  · intro verified
    obtain ⟨external, resolved, compared⟩ := bind_ok.mp verified
    split at compared
    · cases compared
    · rename_i same
      obtain ⟨identifier, classification⟩ := not_or.mp same
      exact ⟨external, resolved, not_not.mp identifier, not_not.mp classification⟩
  · intro held
    obtain ⟨external, resolved, identifier, classification⟩ := held
    apply bind_ok.mpr
    refine ⟨external, resolved, ?_⟩
    rw [if_neg (not_or.mpr ⟨not_not.mpr identifier, not_not.mpr classification⟩)]
    rfl

def SameCategories (a b : ConfidentialityLabel) : Prop := ∀ c, c ∈ a.categories ↔ c ∈ b.categories

section Consistency

variable [MarkupEscape] (P : CryptoProvider)

namespace BindingDataObject

/-- The checks on a detached binding in which its reference plays no part. -/
structure Checked (b : BindingDataObject) (payload : Bytes) (key : Option VerifyingKey) : Prop where
  valid : b.label.validate = .ok ()
  digest : b.payloadDigest = P.sha256Base64 payload
  dataDigest : ∀ d, b.binding.dataDigest = some d → d = P.sha256Base64 payload
  assertion : verifyPresent P b.assertion payload key = .ok ()
  policy : SpifRegistry.withDefaults.validateLabel b.label = .ok ()

/-- If it verifies, its reference resolves to a label that agrees with its own. -/
def Consistent (b : BindingDataObject) (payload : Bytes) (key : Option VerifyingKey)
    (resolver : DetachedLabelResolver) : Prop :=
  b.verify P payload key resolver = .ok () →
    ∃ external, resolver b.binding.labelLocation = .ok external ∧
      external.policy.identifier = b.label.policy.identifier ∧
      external.classification = b.label.classification ∧ SameCategories external b.label

variable {P}

theorem detached_verify_iff {b : BindingDataObject} (detached : b.binding.method = .detached)
    (payload : Bytes) (key : Option VerifyingKey) (resolver : DetachedLabelResolver) :
    b.verify P payload key resolver = .ok () ↔ b.Checked P payload key ∧
      ∃ external, resolver b.binding.labelLocation = .ok external ∧
        external.policy.identifier = b.label.policy.identifier ∧
        external.classification = b.label.classification := by
  have method : verifyMethod P b payload key resolver = .ok () ↔
      verifyDetachedLabel b.label b.binding.labelLocation resolver = .ok () ∧
        SpifRegistry.withDefaults.validateLabel b.label = .ok () := by
    rw [verifyMethod, detached]
    exact check_ok
  rw [verify_stages_iff, method, verifyDetachedLabel_ok_iff]
  constructor
  · intro held
    obtain ⟨valid, digest, dataDigest, assertion, resolved, policy⟩ := held
    exact ⟨⟨valid, digest, dataDigest, assertion, policy⟩, resolved⟩
  · intro held
    obtain ⟨checked, resolved⟩ := held
    exact ⟨checked.valid, checked.digest, checked.dataDigest, checked.assertion, resolved,
      checked.policy⟩

/-- A detached binding is consistent with the label its reference resolves to exactly if the two
have the same categories or something other than the categories is refused. -/
theorem detached_consistent_iff {b : BindingDataObject} (detached : b.binding.method = .detached)
    (payload : Bytes) (key : Option VerifyingKey) (D : LabelDocuments) :
    b.Consistent P payload key D.resolver ↔
      ∀ external, D.resolver b.binding.labelLocation = .ok external →
        SameCategories external b.label ∨
        external.policy.identifier ≠ b.label.policy.identifier ∨
        external.classification ≠ b.label.classification ∨ ¬ b.Checked P payload key := by
  rw [Consistent, detached_verify_iff detached]
  constructor
  · intro consistent external resolved
    by_cases identifier : external.policy.identifier = b.label.policy.identifier
    · by_cases classification : external.classification = b.label.classification
      · by_cases checked : b.Checked P payload key
        · obtain ⟨found, resolved', _, _, categories⟩ :=
            consistent ⟨checked, external, resolved, identifier, classification⟩
          obtain rfl := Except.ok.inj (resolved.symm.trans resolved')
          exact .inl categories
        · exact .inr (.inr (.inr checked))
      · exact .inr (.inr (.inl classification))
    · exact .inr (.inl identifier)
  · intro condition accepted
    obtain ⟨checked, external, resolved, identifier, classification⟩ := accepted
    refine ⟨external, resolved, identifier, classification, ?_⟩
    rcases condition external resolved with same | other | other | refused
    · exact same
    · exact absurd identifier other
    · exact absurd classification other
    · exact absurd checked refused

end BindingDataObject

end Consistency

section Fixtures

def oneDocument [MarkupEscape] (l : ConfidentialityLabel) : LabelDocuments where
  resolveLabelXml _ := .ok (xmlSerialize l)
  validateWithXmllint _ := .ok ()
  reader := entityReader
  readTime := plainTime

theorem oneDocument_resolved (categories : List CategoryMarking)
    (values : ∀ c ∈ categories, ∀ v ∈ c.values, Trimmed v)
    (tagNames : ∀ c ∈ categories, ¬ Special c.tagName)
    (valid : (marked "NATO" categories []).validate = .ok ()) (uri : String) :
    letI := entityEscape
    ∃ external, (oneDocument (marked "NATO" categories [])).resolver uri = .ok external ∧
      external.policy.identifier = "NATO" ∧ external.classification = .secret ∧
      external.categories = categories := by
  let : MarkupEscape := entityEscape
  have trimmed : TrimmedTexts (marked "NATO" categories []) := trimmed_marked _ (by decide) values
  have ordinary : OrdinaryAttributes (marked "NATO" categories []) := ordinary_marked _ tagNames
  have others : ∀ a ∈ (marked "NATO" categories []).alternativeLabels, TrimmedTexts a := by
    intro a mem
    cases mem
  have decoded : xmlDeserialize entityReader plainTime (xmlSerialize (marked "NATO" categories [])) =
      .ok (decodedLabel (marked "NATO" categories []) none none) :=
    (xmlDeserialize_ok_iff (fun _ => rfl) (entityReader_labelEvents _) trimmed others
      ordinary.times).mpr ⟨none, none, rfl, rfl, rfl⟩
  have kept : (decodedLabel (marked "NATO" categories []) none none).categories = categories := by
    have raw := congrArg Shown.categories
      (decodedLabel_single (l := marked "NATO" categories []) rfl none none)
    exact raw.trans ((rawCategories_self_iff (fun _ => rfl) _).mpr tagNames)
  refine ⟨_, ?_, rfl, rfl, kept⟩
  apply bind_ok.mpr
  refine ⟨_, rfl, check_ok.mpr ⟨rfl, deserializeXml_ok.mpr ⟨decoded, ?_⟩⟩⟩
  exact validate_kept valid rfl kept

theorem detached_binding (categories : List CategoryMarking)
    (policy : SpifRegistry.withDefaults.validateLabel
      { ConfidentialityLabel.new .nato .secret with categories } = .ok ()) : letI := entityEscape
    ∃ b, BindingDataObject.detachedWithNmb echoProvider "label.xml"
        { ConfidentialityLabel.new .nato .secret with categories } [1, 2] none = .ok b ∧
      b.binding.method = .detached ∧ b.label = { ConfidentialityLabel.new .nato .secret with categories } ∧
      b.Checked echoProvider [1, 2] none := by
  let : MarkupEscape := entityEscape
  have valid := (accepted_stages policy).1
  refine ⟨_, check_ok.mpr ⟨valid, check_ok.mpr ⟨policy, bind_ok.mpr ⟨_,
    serializeXml_ok.mpr ⟨valid, rfl⟩, bind_ok.mpr ⟨none, rfl, rfl⟩⟩⟩⟩, rfl, rfl, ?_⟩
  exact ⟨valid, rfl, fun _ own => (Option.some.inj own).symm, rfl, policy⟩

def atomal : CategoryMarking := ⟨"Handling", .restrictive, ["ATOMAL"]⟩

/-- The document has a caveat that the binding's own label has not. -/
theorem caveat_passed_over : letI := entityEscape
    let D := oneDocument (marked "NATO" [.releasableTo ["USA"], atomal] [])
    let label := (ConfidentialityLabel.new .nato .secret).withCategory (.releasableTo ["USA"])
    ∃ b, BindingDataObject.detachedWithNmb echoProvider "label.xml" label [1, 2] none = .ok b ∧
      b.verify echoProvider [1, 2] none D.resolver = .ok () ∧
      ¬ b.Consistent echoProvider [1, 2] none D.resolver := by
  let : MarkupEscape := entityEscape
  intro D label
  have policy : SpifRegistry.withDefaults.validateLabel label = .ok () :=
    nato_accepts .secret (by decide) [.releasableTo ["USA"]] (by decide)
  obtain ⟨b, made, detached, own, checked⟩ := detached_binding _ policy
  obtain ⟨external, resolved, identifier, classification, categories⟩ :=
    oneDocument_resolved [.releasableTo ["USA"], atomal] (by decide) (by decide) rfl
      b.binding.labelLocation
  have verified : b.verify echoProvider [1, 2] none D.resolver = .ok () := by
    apply (BindingDataObject.detached_verify_iff detached _ _ _).mpr
    exact ⟨checked, external, resolved, by rw [identifier, own]; rfl, by rw [classification, own]; rfl⟩
  refine ⟨b, made, verified, ?_⟩
  intro consistent
  obtain ⟨found, resolved', _, _, same⟩ := consistent verified
  obtain rfl := Except.ok.inj (resolved.symm.trans resolved')
  have kept := (same atomal).mp (by rw [categories]; decide)
  rw [own] at kept
  revert kept
  decide

theorem own_document_consistent : letI := entityEscape
    let D := oneDocument (marked "NATO" [.releasableTo ["USA"]] [])
    let label := (ConfidentialityLabel.new .nato .secret).withCategory (.releasableTo ["USA"])
    ∃ b, BindingDataObject.detachedWithNmb echoProvider "label.xml" label [1, 2] none = .ok b ∧
      b.Consistent echoProvider [1, 2] none D.resolver := by
  let : MarkupEscape := entityEscape
  intro D label
  have policy : SpifRegistry.withDefaults.validateLabel label = .ok () :=
    nato_accepts .secret (by decide) [.releasableTo ["USA"]] (by decide)
  obtain ⟨b, made, detached, own, checked⟩ := detached_binding _ policy
  obtain ⟨external, resolved, _, _, categories⟩ :=
    oneDocument_resolved [.releasableTo ["USA"]] (by decide) (by decide) rfl b.binding.labelLocation
  refine ⟨b, made, (BindingDataObject.detached_consistent_iff detached _ _ D).mpr ?_⟩
  intro found resolved'
  obtain rfl := Except.ok.inj (resolved.symm.trans resolved')
  apply Or.inl
  intro c
  rw [categories, own]
  rfl

end Fixtures

end MimStanag
