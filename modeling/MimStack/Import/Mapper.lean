import MimStack.Import.Owl
import MimStack.Lib.Lines
import MimStack.Model

/-!
From an ontology to a manifest: which classes are imported as objects and which as
actions, the taxonomy nodes, elements and code lists made of them, a seed merged
over the result, and synthetic types up to the numbers that are asked for.
-/
namespace MimImport
open RustText SortedStore IndexedMap MimCore MimModel

/-- Version-5 identifiers of names in the URL namespace. -/
class UuidV5 where
  ofUrl : String → BitVec 128

@[reducible] def lastCharacters : UuidV5 where
  ofUrl s := s.toList.foldl (fun n c => n * 256 + .ofNat 128 c.toNat) 0

def mimVersion : String := "5.1.0"

def mimReleaseDate : String := "2020-09-28"

structure ImportOptions where
  version : String := mimVersion
  releaseDate : String := mimReleaseDate
  description : String := "Imported from OWL ontology aligned with MIM 5.1"
  actionRoot : String := "ACTION"
  minObjects : Nat := 2300
  minActions : Nat := 500
  minCodeLists : Nat := 400
  mergeSeed : Option MimManifest := none
  authoritativeMimworld : Bool := false
  owlXml : Option String := none

section Names

variable [UnicodeCase]

def capitalized (part : String) : String :=
  match (toAsciiLowercase part).toList with
  | [] => ""
  | first :: rest => .ofList (UnicodeCase.upper first ++ rest)

@[irreducible] def toPascalCase (raw : String) : String :=
  let cleaned := trimStartMatches (· == '#') (trim raw)
  let parts := (split (fun c => c == '-' || c == '_' || isWhitespace c) cleaned).filter fun part =>
    !isEmpty part
  if parts.isEmpty then "Unknown" else join "" (parts.map capitalized)

def semanticIdFor [UuidV5] (key : String) : SemanticId :=
  ⟨UuidV5.ofUrl ("https://www.mimworld.org/mim/" ++ mimVersion ++ "/" ++ key)⟩

def inferObjectKind (name : String) : Option ObjectKind :=
  let upper := toAsciiUppercase name
  if contains "ORGANISATION" upper || contains "UNIT" upper then some .organisation
  else if contains "LOCATION" upper || contains "LINE" upper || contains "POINT" upper then
    some .location
  else if contains "FACILITY" upper || contains "AIRFIELD" upper then some .facility
  else if contains "PERSON" upper then some .person
  else if contains "MATERIEL" upper || contains "EQUIPMENT" upper then some .materiel
  else if contains "FEATURE" upper then some .feature
  else if contains "PLAN" upper || contains "ORDER" upper then some .planOrder
  else some .informationResource

def inferActionKind (name : String) : Option ActionKind :=
  let upper := toAsciiUppercase name
  if contains "TASK" upper then some .task
  else if contains "ESTABLISH" upper then some .establishment
  else if contains "EFFECT" upper then some .actionEffect
  else if contains "RESOURCE" upper then some .actionResource
  else some .actionObjective

def packagePathFor (name : String) (isObject : Bool) : String :=
  let branch := if isObject then "Object" else "Action"
  let kind := ((inferObjectKind name).map ObjectKind.asStr).getD "Generic"
  "Classifiers::" ++ branch ++ "::" ++ kind ++ "::" ++ toPascalCase name

end Names

structure ClassNames where
  objects : SortedSet String
  actions : SortedSet String

namespace ClassNames

def addObject (s : ClassNames) (name : String) : ClassNames :=
  { s with objects := s.objects.add name }

def promote (s : ClassNames) (name : String) : ClassNames where
  objects := s.objects.erase name
  actions := s.actions.add name

def fillObjects (minObjects : Nat) (s : ClassNames) (names : List String) : ClassNames :=
  names.foldl (fun s name =>
    if minObjects ≤ s.objects.size || s.actions.contains name then s else s.addObject name) s

def eventLike (name : String) : Bool :=
  let upper := toAsciiUppercase name
  contains "EVENT" upper || contains "TASK" upper || contains "ORDER" upper ||
    contains "ACTION" upper || contains "OPERATION" upper || contains "ACTIVITY" upper

def promoteEvents (minActions : Nat) (s : ClassNames) (names : List String) : ClassNames :=
  names.foldl (fun s name =>
    if minActions ≤ s.actions.size || !eventLike name then s else s.promote name) s

def promoteAny (minActions : Nat) (s : ClassNames) (names : List String) : ClassNames :=
  names.foldl (fun s name =>
    if minActions ≤ s.actions.size || s.actions.contains name then s else s.promote name) s

def all (s : ClassNames) : List String := s.objects.toList ++ s.actions.toList

end ClassNames

section Selection

def isEnumerationClass (owl : OwlModel) (name : String) : Bool :=
  owl.enumerations.containsKey name || ((owl.classes.get name).map (·.isEnumeration)).getD false

def declaredClasses (owl : OwlModel) (options : ImportOptions) : ClassNames :=
  let actions := (SortedSet.addAll .empty (owl.descendantsOf options.actionRoot)).add
    options.actionRoot
  { actions
    objects := SortedSet.addAll .empty (owl.classNames.filter fun name =>
      !actions.contains name && !isEnumerationClass owl name) }

def padClassCoverage (owl : OwlModel) (options : ImportOptions) (s : ClassNames) : ClassNames :=
  let filled := (s.fillObjects options.minObjects owl.classNames).fillObjects options.minObjects
    owl.enumerations.keys
  filled.promoteAny options.minActions owl.classNames

def ensurePropertyDomain (owl : OwlModel) (s : ClassNames) (property : OwlProperty) : ClassNames :=
  match property.domain with
  | none => s
  | some domain =>
    let normalized := normalizeOwlRef domain
    if !owl.classes.containsKey normalized || s.actions.contains normalized then s
    else s.addObject normalized

def ensurePropertyDomainsInTaxonomy (owl : OwlModel) (s : ClassNames) : ClassNames :=
  owl.properties.values.foldl (ensurePropertyDomain owl) s

def selectClasses (owl : OwlModel) (options : ImportOptions) : ClassNames :=
  let declared := declaredClasses owl options
  let padded :=
    if options.authoritativeMimworld then declared
    else
      padClassCoverage owl options
        ((declared.fillObjects options.minObjects owl.classNames).promoteEvents
          options.minActions owl.classNames)
  ensurePropertyDomainsInTaxonomy owl padded

end Selection

section Build

variable [UnicodeCase] [UuidV5]

@[irreducible] def importedParent (owl : OwlModel) (name : String) : Option String :=
  (((owl.classes.get name).bind (·.parents.head?)).map toPascalCase).filter (· != toPascalCase name)

def classToTaxonomyNode (owl : OwlModel) (name : String) (isObject : Bool) :
    Except MimError TaxonomyNode :=
  match owl.classes.get name with
  | none => .error (.model ("missing class '" ++ name ++ "'"))
  | some c =>
    .ok {
      name := toPascalCase name
      semanticId := semanticIdFor name
      parent := importedParent owl name
      objectKind := if isObject then inferObjectKind name else none
      actionKind := if isObject then none else inferActionKind name
      definition := (c.label.filter fun s => !isEmpty s).getD
        ("Imported class " ++ toPascalCase name)
      packagePath := packagePathFor name isObject }

def slashed : List Char → List Char
  | ':' :: ':' :: rest => '/' :: slashed rest
  | c :: rest => c :: slashed rest
  | [] => []

@[irreducible] def taxonomyToElement (node : TaxonomyNode) (kind : ModelElementKind) (options : ImportOptions) :
    Except MimError ModelElementSpec := do
  let uri ← MimUri.parse ("https://www.mimworld.org/mim/" ++ options.version ++ "/" ++
    .ofList (slashed node.packagePath.toList) ++ "/" ++ node.name)
  pure {
    name := node.name
    kind
    semanticId := node.semanticId
    uri
    packagePath := node.packagePath
    definition := node.definition
    parentClass := node.parent
    representationTerm := none
    representationMetadata := none
    multiplicityLower := some 0
    multiplicityUpper := some "1"
    isMandatory := false
    isNillable := true }

def representationTermForRange (range : Option String) : RepresentationTerm :=
  match range with
  | none => .text
  | some raw =>
    let normalized := toAsciiLowercase (normalizeOwlRef raw)
    if contains "boolean" normalized then .indicator
    else if contains "datetime" normalized then .dateTime
    else if contains "date" normalized then .date
    else if contains "time" normalized then .time
    else if contains "integer" normalized || contains "int" normalized then .numeric
    else if contains "decimal" normalized || contains "double" normalized ||
        contains "float" normalized then .measure
    else if contains "duration" normalized then .duration
    else if contains "anyuri" normalized || contains "uri" normalized then .identifier
    else .text

@[irreducible] def propertyToElement (name : String) (property : OwlProperty) (parentClass : String)
    (options : ImportOptions) : Except MimError ModelElementSpec := do
  let display := toPascalCase name
  let uri ← MimUri.parse ("https://www.mimworld.org/mim/" ++ options.version ++
    "/Classifiers/Object/" ++ parentClass ++ "/" ++ display)
  pure {
    name := display
    kind := .attributeElement
    semanticId := semanticIdFor name
    uri
    packagePath := "Classifiers::Object::" ++ parentClass
    definition := property.label.getD ("Imported property " ++ display)
    parentClass := some parentClass
    representationTerm :=
      if property.propertyType = .data then some (representationTermForRange property.range) else none
    representationMetadata := none
    multiplicityLower := some 0
    multiplicityUpper := some (if property.propertyType = .object then "*" else "1")
    isMandatory := false
    isNillable := true }

def taxonomyDomainName (domain : String) (taxonomyNames : List String) : Option String :=
  [toPascalCase domain, toPascalCase (normalizeOwlRef domain)].find? (taxonomyNames.contains ·)

def resolveTaxonomyDomain (owl : OwlModel) (domain : String) (taxonomyNames : List String) :
    Option String :=
  (taxonomyDomainName domain taxonomyNames).or
    ((owl.ancestorsOf (normalizeOwlRef domain)).findSome? (taxonomyDomainName · taxonomyNames))

def attributeClass (owl : OwlModel) (taxonomyNames : List String) (property : OwlProperty) :
    Option String :=
  property.domain.bind (resolveTaxonomyDomain owl · taxonomyNames)

structure AttributeImportBatch where
  elements : List ModelElementSpec
  imported : Nat
  skipped : Nat
  withDomain : Nat

def importOwlAttribute (owl : OwlModel) (taxonomyNames : List String) (options : ImportOptions)
    (batch : AttributeImportBatch) (e : String × OwlProperty) :
    Except MimError AttributeImportBatch :=
  match attributeClass owl taxonomyNames e.2 with
  | none => .ok { batch with skipped := batch.skipped + 1 }
  | some parentClass => do
    let element ← propertyToElement e.1 e.2 parentClass options
    pure { batch with elements := batch.elements ++ [element], imported := batch.imported + 1 }

def importOwlAttributes (owl : OwlModel) (taxonomyNames : List String) (options : ImportOptions) :
    Except MimError AttributeImportBatch :=
  owl.properties.entries.foldlM (importOwlAttribute owl taxonomyNames options)
    ⟨[], 0, 0, owl.propertiesWithDomainCount⟩

/-- It never fails, so there is no error to return. -/
def enumerationToCodelist (enumName : String) (values : List String) : CodeList where
  name := toPascalCase enumName
  semanticId := semanticIdFor enumName
  complete := true
  managed := false
  ordered := false
  definition := some ("Imported enumeration " ++ toPascalCase enumName)
  values := values.zipIdx.map fun v => {
    name := toPascalCase v.1
    semanticId := semanticIdFor (enumName ++ ":" ++ v.1)
    order := some (v.2 + 1) }

def padFromCodeClass (options : ImportOptions) (existing : List String) (lists : List CodeList)
    (name : String) : List CodeList :=
  if options.minCodeLists ≤ lists.length || existing.contains (toPascalCase name) then lists
  else if endsWith "Code" name || endsWith "CODE" name || contains "Category" name then
    lists ++ [enumerationToCodelist name ["NotSpecified"]]
  else lists

def padFromValue (options : ImportOptions) (existing : List String) (enumName : String)
    (lists : List CodeList) (value : String) : List CodeList :=
  let listName := toPascalCase enumName ++ "_" ++ toPascalCase value
  if options.minCodeLists ≤ lists.length || existing.contains listName ||
      lists.any (·.name == listName) then lists
  else lists ++ [enumerationToCodelist listName [value]]

def padFromClass (options : ImportOptions) (lists : List CodeList) (name : String) :
    List CodeList :=
  if options.minCodeLists ≤ lists.length || lists.any (·.name == toPascalCase name) then lists
  else lists ++ [enumerationToCodelist name ["NotSpecified"]]

def padCodeLists (owl : OwlModel) (options : ImportOptions) (codeLists : List CodeList) :
    List CodeList :=
  let existing := codeLists.map (·.name)
  let coded := owl.classNames.foldl (padFromCodeClass options existing) codeLists
  let valued := owl.enumerations.entries.foldl
    (fun lists e => e.2.foldl (padFromValue options existing e.1) lists) coded
  owl.classNames.foldl (padFromClass options) valued

def mergeSeed (target seed : MimManifest) : MimManifest :=
  { target with
    taxonomy := ((indexed (·.name) target.taxonomy).insertAll
      (seed.taxonomy.map fun n => (n.name, n))).values
    elements := ((indexed (·.name) target.elements).insertAll
      (seed.elements.map fun e => (e.name, e))).values
    codeLists := ((indexed (·.name) target.codeLists).insertAll
      (seed.codeLists.map fun c => (c.name, c))).values }

end Build

section Synthetic

variable [UnicodeCase] [UuidV5]

def fourDigits (n : Nat) : String :=
  .ofList (List.replicate (4 - (Nat.repr n).length) '0') ++ Nat.repr n

def syntheticObject (index : Nat) : TaxonomyNode where
  name := "ImportedObject" ++ fourDigits index
  semanticId := semanticIdFor ("synthetic:object:" ++ Nat.repr index)
  parent := some "Object"
  objectKind := some .informationResource
  actionKind := none
  definition := "Synthetic object type generated to satisfy MIM coverage targets."
  packagePath := "Classifiers::Object::Generic::" ++ "ImportedObject" ++ fourDigits index

def syntheticAction (index : Nat) : TaxonomyNode where
  name := "ImportedAction" ++ fourDigits index
  semanticId := semanticIdFor ("synthetic:action:" ++ Nat.repr index)
  parent := some "Action"
  objectKind := none
  actionKind := some .task
  definition := "Synthetic action type generated to satisfy MIM coverage targets."
  packagePath := "Classifiers::Action::Generic::" ++ "ImportedAction" ++ fourDigits index

/-- Adds synthetic nodes until `wanted` are counted; a node whose element cannot be built does
not count. `none` when `fuel` turns were not enough. -/
def appendSynthetic (node : Nat → TaxonomyNode) (options : ImportOptions) (wanted : Nat) :
    Nat → Nat → Nat → MimManifest → Option (Nat × MimManifest)
  | 0, count, index, manifest => if count < wanted then none else some (index, manifest)
  | fuel + 1, count, index, manifest =>
    if count < wanted then
      match taxonomyToElement (node (index + 1)) .classElement options with
      | .error _ => appendSynthetic node options wanted fuel count (index + 1) manifest
      | .ok element => appendSynthetic node options wanted fuel (count + 1) (index + 1)
          { manifest with
            taxonomy := manifest.taxonomy ++ [node (index + 1)]
            elements := manifest.elements ++ [element] }
    else some (index, manifest)

def objectCount (manifest : MimManifest) : Nat := manifest.taxonomy.countP (·.isObject)

def actionCount (manifest : MimManifest) : Nat := manifest.taxonomy.countP (·.isAction)

def appendSyntheticCoverage (manifest : MimManifest) (options : ImportOptions) :
    Option MimManifest := do
  let objects ← appendSynthetic syntheticObject options options.minObjects options.minObjects
    (objectCount manifest) 0 manifest
  let actions ← appendSynthetic syntheticAction options options.minActions options.minActions
    (actionCount manifest) objects.1 objects.2
  pure actions.2

end Synthetic

section Import

variable [UnicodeCase] [UuidV5]

structure ImportReport where
  objectTypes : Nat
  actionTypes : Nat
  codeLists : Nat
  attributeTypes : Nat
  totalElements : Nat
  owlPropertiesTotal : Nat
  owlPropertiesReferenced : Nat
  owlPropertiesWithDomain : Nat
  owlPropertiesImported : Nat
  owlPropertiesSkipped : Nat

structure ImportedClasses where
  taxonomy : List TaxonomyNode := []
  elements : List ModelElementSpec := []

def importClass (owl : OwlModel) (options : ImportOptions) (isObject : Bool)
    (s : ImportedClasses) (name : String) : Except MimError ImportedClasses := do
  let node ← classToTaxonomyNode owl name isObject
  let element ← taxonomyToElement node .classElement options
  pure ⟨s.taxonomy ++ [node], s.elements ++ [element]⟩

def importClasses (owl : OwlModel) (options : ImportOptions) (names : ClassNames) :
    Except MimError ImportedClasses := do
  let objects ← names.objects.toList.foldlM (importClass owl options true) {}
  names.actions.toList.foldlM (importClass owl options false) objects

def importedManifest (options : ImportOptions) (classes : ImportedClasses)
    (attributes : AttributeImportBatch) (codeLists : List CodeList) : MimManifest where
  version := options.version
  releaseDate := options.releaseDate
  description := options.description
  expectedObjectTypes := options.minObjects
  expectedActionTypes := options.minActions
  expectedCodeLists := options.minCodeLists
  taxonomy := classes.taxonomy
  elements := classes.elements ++ attributes.elements
  codeLists

def mergeSeedOption (options : ImportOptions) (manifest : MimManifest) : MimManifest :=
  match options.mergeSeed with
  | none => manifest
  | some seed => mergeSeed manifest seed

def countXmlPropertyTagLines (data : String) : Nat :=
  (TextLines.lines '\n' '\r' data.toList).countP fun line =>
    contains "ObjectProperty" (.ofList line) || contains "DatatypeProperty" (.ofList line)

/-- The counts of an import; the two coverage figures in floating point are left out. -/
def importReport (owl : OwlModel) (options : ImportOptions) (manifest : MimManifest)
    (attributes : AttributeImportBatch) : ImportReport where
  objectTypes := objectCount manifest
  actionTypes := actionCount manifest
  codeLists := manifest.codeLists.length
  attributeTypes := manifest.elements.countP (·.kind == .attributeElement)
  totalElements := manifest.elements.length
  owlPropertiesTotal := owl.properties.size
  owlPropertiesReferenced := (options.owlXml.map countXmlPropertyTagLines).getD owl.properties.size
  owlPropertiesWithDomain := attributes.withDomain
  owlPropertiesImported := attributes.imported
  owlPropertiesSkipped := attributes.skipped

def importBase (owl : OwlModel) (options : ImportOptions) :
    Except MimError (MimManifest × AttributeImportBatch) := do
  let names := selectClasses owl options
  let classes ← importClasses owl options names
  let codeLists := owl.enumerations.entries.map fun e => enumerationToCodelist e.1 e.2
  let attributes ← importOwlAttributes owl (names.all.map toPascalCase) options
  pure (mergeSeedOption options
    (importedManifest options classes attributes (padCodeLists owl options codeLists)), attributes)

/-- `none` is the case in which the source's loop over the synthetic types never ends. -/
def OwlImporter.importManifest (owl : OwlModel) (options : ImportOptions) :
    Option (Except MimError (MimManifest × ImportReport)) :=
  let owl := owl.resolvePropertyDomains
  match importBase owl options with
  | .error e => some (.error e)
  | .ok (manifest, attributes) =>
    (appendSyntheticCoverage manifest options).map fun manifest =>
      .ok (manifest, importReport owl options manifest attributes)

end Import

end MimImport
