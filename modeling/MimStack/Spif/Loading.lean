import MimStack.Spif.Parser

/-!
Security policy files as a registry takes them: the text is held against the schema of its
dialect first, with a textual check where the schema cannot be had, and is then read.
-/
namespace MimSpif
open RustText IndexedMap Fallible PullMarkup

inductive SpifSchemaProfile where
  | iso29008_2011
  | xmlSpif2
  deriving DecidableEq

def SpifSchemaProfile.detect (xml : String) : SpifSchemaProfile :=
  if contains "urn:iso:std:iso:29008:2011:confidentialitymetadatalabel" xml then .iso29008_2011
  else if contains "http://www.xmlspif.org/spif" xml then .xmlSpif2
  else .iso29008_2011

def validateStructural (xml : String) : Except String Unit :=
  if !contains "<spif" xml then .error "missing root <spif> element"
  else if !(contains "securityPolicyId" xml || contains "policyIdentifier" xml) then
    .error "missing securityPolicyId"
  else if !(contains "securityClassification" xml || contains "<classification>" xml) then
    .error "missing securityClassification elements"
  else if !(contains "<identifier>" xml || contains "policyIdentifier" xml) then
    .error "missing policy identifier"
  else .ok ()

/-- The schema tool, with the schema of a profile, and the pull parser. -/
structure SpifReader where
  xmllint : String → SpifSchemaProfile → Except String Unit
  pull : String → List Pulled × Option String

namespace SpifReader

variable (reader : SpifReader)

def validateSpifXsdWithProfile (xml : String) (profile : SpifSchemaProfile) : Except String Unit :=
  match reader.xmllint xml profile with
  | .ok () => .ok ()
  | .error xmllintErr => (validateStructural xml).mapError fun structural =>
      "XSD validation failed (" ++ xmllintErr ++ "); structural check: " ++ structural

def validateSpifXsd (xml : String) : Except String Unit :=
  reader.validateSpifXsdWithProfile xml (.detect xml)

def parseSpifXml (xml : String) : Except String SpifPolicy := do
  reader.validateSpifXsd xml
  let parsed ← MimSpif.parseSpifXml (reader.pull xml)
  return parsed.toSpifPolicy

def loadXml (registry : SpifRegistry) (xml : String) : Except String SpifRegistry := do
  let policy ← reader.parseSpifXml xml
  registry.register policy

variable {reader}

theorem parseSpifXml_named {xml : String} {policy : SpifPolicy}
    (read : reader.parseSpifXml xml = .ok policy) : isEmpty policy.policyId = false := by
  obtain ⟨_, _, read⟩ := bind_ok.mp read
  obtain ⟨parsed, pulled, same⟩ := bind_ok.mp read
  obtain rfl := pure_ok.mp same
  unfold MimSpif.parseSpifXml at pulled
  split at pulled
  · cases pulled
  · split at pulled
    · cases pulled
    · rename_i named
      obtain rfl := Except.ok.inj pulled
      exact Bool.eq_false_iff.mpr named

theorem loadXml_fresh (xml : String) :
    reader.loadXml ⟨IndexMap.empty⟩ xml = (reader.parseSpifXml xml).map
      fun policy => ⟨IndexMap.empty.insert policy.policyId policy⟩ := by
  unfold loadXml
  cases read : reader.parseSpifXml xml with
  | error e => rfl
  | ok policy =>
    have named := parseSpifXml_named read
    simp only [bind, Except.bind, SpifRegistry.register, named]
    rfl

end SpifReader

end MimSpif
