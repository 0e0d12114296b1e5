import MimStack.Lib.MarkupReader
import MimStack.Lib.Outcome
import MimStack.Stanag4774

/-!
The XML decoder of labels: what it remembers between the tokens of a document,
what each token does to that, and the label it makes of it at the end.
-/
namespace MimStanag
open RustText Fallible MimCore MimLabeling MarkupText

def labelWrappers : List String :=
  ["ConfidentialityLabel", "originatorConfidentialityLabel", "metadataConfidentialityLabel",
    "alternativeConfidentialityLabel"]

structure Decoder where
  policy : String := ""
  policyOid : Option String := none
  classification : String := ""
  privacyMark : Option String := none
  colour : Option String := none
  markingData : Option String := none
  categories : List CategoryMarking := []
  alternativeLabels : List ConfidentialityLabel := []
  creationTime : Option DateTime := none
  reviewDateTime : Option DateTime := none
  currentCategoryTag : String := ""
  currentCategoryType : CategoryType := .permissive
  currentCategoryValues : List String := []
  inCategory : Bool := false
  inAlternative : Bool := false
  altPolicy : String := ""
  altPolicyOid : Option String := none
  altClassification : String := ""
  altPrivacy : Option String := none
  altColour : Option String := none
  altMarking : Option String := none
  altCategories : List CategoryMarking := []
  currentElement : String := ""

/-- `parse_datetime` over the reader of RFC 3339 texts. -/
def parseDatetime (readTime : TimeReader) (value : String) : Except LabelError DateTime :=
  (readTime value).mapError .parse

namespace Decoder

variable (readTime : TimeReader) (unescape : String → Except String String)

def wrapperAttribute (d : Decoder) (a : String × String) : Except LabelError Decoder :=
  match a.1 with
  | "CreationTime" => do
    let t ← parseDatetime readTime a.2
    return { d with creationTime := some t }
  | "ReviewDateTime" => do
    let t ← parseDatetime readTime a.2
    return { d with reviewDateTime := some t }
  | _ => .ok d

def policyAttribute (d : Decoder) (a : String × String) : Decoder :=
  if a.1 = "URL" ∨ a.1 = "URI" then { d with policyOid := some a.2 } else d

def categoryAttribute (d : Decoder) (a : String × String) : Decoder :=
  match a.1 with
  | "TagName" => { d with currentCategoryTag := a.2 }
  | "Type" => { d with currentCategoryType := parseCategoryType a.2 }
  | _ => d

def clearAlternative (d : Decoder) : Decoder :=
  { d with
    inAlternative := true
    altPolicy := ""
    altPolicyOid := none
    altClassification := ""
    altPrivacy := none
    altColour := none
    altMarking := none
    altCategories := [] }

def enter (d : Decoder) (name : String) (attributes : List (String × String)) :
    Except LabelError Decoder :=
  if labelWrappers.contains name then
    attributes.foldlM (wrapperAttribute readTime)
      (if name = "alternativeConfidentialityLabel" then d.clearAlternative else d)
  else if name = "PolicyIdentifier" then .ok (attributes.foldl policyAttribute d)
  else if name = "Category" then
    .ok (attributes.foldl categoryAttribute
      { d with inCategory := true, currentCategoryValues := [] })
  else .ok d

def startElement (d : Decoder) (name : String) (attributes : List (String × String)) :
    Except LabelError Decoder :=
  (d.enter readTime name attributes).map fun d => { d with currentElement := name }

def setText (d : Decoder) (text : String) : Except LabelError Decoder :=
  match d.currentElement with
  | "PolicyIdentifier" => .ok { d with policy := text }
  | "Classification" =>
    .ok (if d.inAlternative then { d with altClassification := text }
      else { d with classification := text })
  | "PrivacyMark" =>
    .ok (if d.inAlternative then { d with altPrivacy := some text }
      else { d with privacyMark := some text })
  | "Colour" =>
    .ok (if d.inAlternative then { d with altColour := some text }
      else { d with colour := some text })
  | "MarkingData" =>
    .ok (if d.inAlternative then { d with altMarking := some text }
      else { d with markingData := some text })
  | "GenericValues" | "GenericValue" =>
    .ok (if d.inCategory then { d with currentCategoryValues := d.currentCategoryValues ++ [text] }
      else d)
  | "CreationDateTime" | "CreationTime" => do
    let t ← parseDatetime readTime text
    return { d with creationTime := some t }
  | _ => .ok d

def currentCategory (d : Decoder) : CategoryMarking :=
  ⟨d.currentCategoryTag, d.currentCategoryType, d.currentCategoryValues⟩

def altPolicyObject (d : Decoder) : LabelPolicy :=
  { LabelPolicy.new (if isEmpty d.altPolicy then "NATO" else d.altPolicy) with
    oid := d.altPolicyOid }

def closeAlternative (d : Decoder) : Except LabelError Decoder :=
  if isEmpty d.altClassification then .ok { d with inAlternative := false }
  else do
    let level ← ClassificationLevel.parse d.altClassification
    let alternative : ConfidentialityLabel :=
      { ConfidentialityLabel.new d.altPolicyObject level with
        privacyMark := d.altPrivacy
        colour := d.altColour
        markingData := d.altMarking
        categories := d.altCategories }
    return { d with
      alternativeLabels := d.alternativeLabels ++ [alternative]
      inAlternative := false }

def leave (d : Decoder) (name : String) : Except LabelError Decoder :=
  if name = "Category" ∧ d.inCategory then
    .ok { d with categories := d.categories ++ [d.currentCategory], inCategory := false }
  else if name = "Category" ∧ d.inAlternative then
    .ok { d with altCategories := d.altCategories ++ [d.currentCategory], inCategory := false }
  else if name = "alternativeConfidentialityLabel" ∧ d.inAlternative then d.closeAlternative
  else .ok d

def endElement (d : Decoder) (name : String) : Except LabelError Decoder :=
  (d.leave name).map fun d => { d with currentElement := "" }

/-- One turn of the loop. -/
def step (d : Decoder) : Token → Except LabelError Decoder
  | .start name attributes => d.startElement readTime name attributes
  | .text raw => do
    let text ← (unescape raw).mapError .parse
    d.setText readTime text
  | .finish name => d.endElement name
  | .other => .ok d

def run (d : Decoder) (tokens : List Token) : Except LabelError Decoder :=
  tokens.foldlM (step readTime unescape) d

def label (d : Decoder) : Except LabelError ConfidentialityLabel :=
  if isEmpty d.classification then .error (.validation "Classification element is mandatory")
  else do
    let level ← ClassificationLevel.parse d.classification
    let policy : LabelPolicy :=
      { LabelPolicy.new (if isEmpty d.policy then "NATO" else d.policy) with oid := d.policyOid }
    return { ConfidentialityLabel.new policy level with
      privacyMark := d.privacyMark
      colour := d.colour
      markingData := d.markingData
      categories := d.categories
      alternativeLabels := d.alternativeLabels
      creationTime := d.creationTime
      reviewDateTime := d.reviewDateTime }

end Decoder

variable (R : MarkupReader) (readTime : TimeReader)

/-- `xml::deserialize`. -/
def xmlDeserialize (data : String) : Except LabelError ConfidentialityLabel := do
  let d ← Decoder.run readTime R.unescape {} (R.read data).1
  match (R.read data).2 with
  | some err => .error (.parse err)
  | none => d.label

/-- `Stanag4774Codec::deserialize_with_options` with the XML format and without the schema check. -/
def deserializeXml (data : String) : Except LabelError ConfidentialityLabel := do
  let l ← xmlDeserialize R readTime data
  l.validate
  return l

def plainTime : TimeReader := fun s => .ok ⟨s⟩

def yearReader : TimeReader := fun s =>
  if s.toList[4]? = some '-' then .ok ⟨s⟩ else .error "input contains invalid characters"

theorem yearReader_takes {s : String} (digits : s.toList[4]? = some '-') : yearReader s = .ok ⟨s⟩ :=
  if_pos digits

theorem yearReader_refuses {s : String} {t : DateTime} (digits : s.toList[4]? ≠ some '-') :
    yearReader s ≠ .ok t := by
  rw [yearReader, if_neg digits]
  exact nofun

end MimStanag
