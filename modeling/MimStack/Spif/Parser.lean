import MimStack.Lib.PullMarkup
import MimStack.Spif

/-!
The reading of a security policy information file from what a pull parser hands out,
without the check against the schema. Flags tell which blocks the reader is in, and
the names of the closing tags, taken in one fixed order, what their text is.
-/
namespace MimSpif
open RustText PullMarkup

structure SpifVersionInfo where
  spifVersion : Option String
  issuingAuthority : Option String
  deriving DecidableEq

/-- A policy with the version of the file it was read from. -/
structure ParsedSpif extends SpifPolicy where
  versionInfo : Option SpifVersionInfo
  deriving DecidableEq

def parseCategoryType (value : String) : SpifCategoryType :=
  match toAsciiLowercase value with
  | "permissive" => .permissive
  | "informative" => .informative
  | _ => .restrictive

/-- The variables of the loop; those of a category and of a validation are put together. -/
structure SpifParser where
  policyId : String := ""
  policyOid : Option String := none
  versionInfo : Option SpifVersionInfo := none
  spifVersion : Option String := none
  issuingAuthority : Option String := none
  inVersioninfo : Bool := false
  allowedClassifications : List String := []
  categories : List SpifCategory := []
  validations : List SpifValidation := []
  currentText : String := ""
  inClassification : Bool := false
  inCategory : Bool := false
  inValidation : Bool := false
  className : String := ""
  category : SpifCategory := ⟨"", .restrictive, []⟩
  validation : SpifValidation := ⟨"", "", []⟩

def categoryTypeOf (attributes : List (String × String)) : SpifCategoryType :=
  (((attributeValue "type" attributes).or (attributeValue "tagtype" attributes)).map
    parseCategoryType).getD .restrictive

def pushText (values : List String) (text : String) : List String :=
  if isEmpty text then values else values ++ [text]

namespace SpifParser

def takeUrl (p : SpifParser) (attributes : List (String × String)) : SpifParser :=
  match (attributeValue "URL" attributes).or (attributeValue "url" attributes) with
  | some id => { p with policyOid := some id }
  | none => p

def begin (p : SpifParser) (name : String) (attributes : List (String × String)) : SpifParser :=
  match name with
  | "securityClassification" | "classification" =>
    { p with inClassification := true, className := "" }
  | "securityCategory" | "category" =>
    { p with inCategory := true, category := ⟨"", categoryTypeOf attributes, []⟩ }
  | "validation" => { p with inValidation := true, validation := ⟨"", "", []⟩ }
  | "versioninfo" =>
    { p with inVersioninfo := true, spifVersion := none, issuingAuthority := none }
  | _ => p

def startTag (p : SpifParser) (name : String) (attributes : List (String × String)) : SpifParser :=
  let begun := begin { p with currentText := "" } (localName name) attributes
  if localName name = "identifier" ∨ localName name = "name" then begun.takeUrl attributes
  else begun

def closeClassification (p : SpifParser) : SpifParser :=
  { p with
    allowedClassifications := pushText p.allowedClassifications p.className
    inClassification := false }

def closeCategory (p : SpifParser) : SpifParser :=
  { p with
    categories := if isEmpty p.category.name then p.categories else p.categories ++ [p.category]
    inCategory := false }

def closeValidation (p : SpifParser) : SpifParser :=
  { p with
    validations :=
      if isEmpty p.validation.classification || isEmpty p.validation.categoryName then p.validations
      else p.validations ++ [p.validation]
    inValidation := false }

def close (p : SpifParser) (name : String) : SpifParser :=
  if name = "identifier" ∧ isEmpty p.policyId then { p with policyId := p.currentText }
  else if name = "spifversion" ∧ p.inVersioninfo then { p with spifVersion := some p.currentText }
  else if name = "issuingauthority" ∧ p.inVersioninfo then
    { p with issuingAuthority := some p.currentText }
  else if name = "name" ∧ p.inClassification then { p with className := p.currentText }
  else if name = "name" ∧ p.inCategory then { p with category.name := p.currentText }
  else if (name = "type" ∨ name = "tagtype") ∧ p.inCategory then
    { p with category.categoryType := parseCategoryType p.currentText }
  else if (name = "genericValue" ∨ name = "categoryName" ∨ name = "value") ∧ p.inCategory then
    { p with category.allowedValues := pushText p.category.allowedValues p.currentText }
  else if name = "classification" ∧ p.inValidation then
    { p with validation.classification := p.currentText }
  else if name = "categoryName" ∧ p.inValidation then
    { p with validation.categoryName := p.currentText }
  else if (name = "requiredValue" ∨ name = "genericValue") ∧ p.inValidation then
    { p with validation.requiredAnyOf := pushText p.validation.requiredAnyOf p.currentText }
  else if (name = "securityClassification" ∨ name = "classification") ∧ p.inClassification then
    p.closeClassification
  else if (name = "securityCategory" ∨ name = "category") ∧ p.inCategory then p.closeCategory
  else if name = "validation" ∧ p.inValidation then p.closeValidation
  else if name = "versioninfo" ∧ p.inVersioninfo then
    { p with versionInfo := some ⟨p.spifVersion, p.issuingAuthority⟩, inVersioninfo := false }
  else p

def endTag (p : SpifParser) (name : String) : SpifParser :=
  { p.close (localName name) with currentText := "" }

def step (p : SpifParser) : Pulled → SpifParser
  | .start name attributes => p.startTag name attributes
  | .empty _ attributes => p.takeUrl attributes
  | .text raw => { p with currentText := trim raw }
  | .finish name => p.endTag name
  | .other => p

def run (p : SpifParser) (events : List Pulled) : SpifParser := events.foldl step p

def policy (p : SpifParser) : ParsedSpif where
  policyId := p.policyId
  policyOid := p.policyOid
  allowedClassifications := p.allowedClassifications
  categories := p.categories
  validations := p.validations
  versionInfo := p.versionInfo

end SpifParser

/-- `parse_spif_xml_with_options` without the schema check, from what the pull parser has handed
out and the error it ended with. -/
def parseSpifXml (read : List Pulled × Option String) : Except String ParsedSpif :=
  match read.2 with
  | some err => .error err
  | none =>
    if isEmpty (SpifParser.run {} read.1).policyId then
      .error "SPIF policy missing securityPolicyId/identifier"
    else .ok (SpifParser.run {} read.1).policy

end MimSpif
