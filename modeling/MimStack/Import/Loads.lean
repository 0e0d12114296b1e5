import MimStack.Import.Mapper
import MimStack.Lib.Outcome

/-!
Whether a manifest that was imported can be loaded. A class is put under the first of
its parents, imported or not, and a synthetic type under `Object` or `Action`, there
or not; the registry loads a manifest only when all of them are in it.
-/
namespace MimImport
open RustText SortedStore IndexedMap Fallible MimCore MimModel

section Elements

variable [UnicodeCase] [UuidV5]

omit [UnicodeCase] [UuidV5] in
theorem taxonomyToElement_link {node : TaxonomyNode} {kind : ModelElementKind}
    {options : ImportOptions} {e : ModelElementSpec}
    (built : taxonomyToElement node kind options = .ok e) :
    (e.name, e.parentClass) = (node.name, node.parent) := by
  unfold taxonomyToElement at built
  obtain ⟨uri, _, made⟩ := bind_ok.mp built
  rw [← pure_ok.mp made]

omit [UnicodeCase] [UuidV5] in
theorem taxonomyToElement_ok_iff {node : TaxonomyNode} (kind : ModelElementKind)
    (options : ImportOptions) (packaged : node.packagePath.toList.head? = some 'C') :
    (∃ e, taxonomyToElement node kind options = .ok e) ↔ UsableVersion options.version := by
  obtain ⟨rest, path⟩ := List.head?_eq_some_iff.mp packaged
  have base : "https://www.mimworld.org/mim/" = mimBaseUrl ++ "/" := by decide
  have url : "https://www.mimworld.org/mim/" ++ options.version ++ "/" ++
      .ofList (slashed node.packagePath.toList) ++ "/" ++ node.name =
        mimBaseUrl ++ "/" ++ (options.version ++ "/" ++
          .ofList ('C' :: (slashed rest ++ "/".toList ++ node.name.toList))) := by
    have first : slashed ('C' :: rest) = 'C' :: slashed rest := rfl
    rw [base, path, first, ← String.toList_inj]
    simp only [String.toList_append, String.toList_ofList, List.append_assoc, List.cons_append]
  rw [← uri_parse_ok_iff options.version (slashed rest ++ "/".toList ++ node.name.toList)
    (by decide : isWhitespace 'C' = false), ← url]
  unfold taxonomyToElement
  exact bind_pure_ok

theorem propertyToElement_ok_iff (name : String) (property : OwlProperty) (parentClass : String)
    (options : ImportOptions) :
    (∃ e, propertyToElement name property parentClass options = .ok e) ↔
      UsableVersion options.version := by
  have base : "https://www.mimworld.org/mim/" = mimBaseUrl ++ "/" := by decide
  have path : "/Classifiers/Object/".toList = '/' :: 'C' :: "lassifiers/Object/".toList := by decide
  have url : "https://www.mimworld.org/mim/" ++ options.version ++ "/Classifiers/Object/" ++
      parentClass ++ "/" ++ toPascalCase name =
        mimBaseUrl ++ "/" ++ (options.version ++ "/" ++ .ofList ('C' ::
          ("lassifiers/Object/".toList ++ parentClass.toList ++ "/".toList ++
            (toPascalCase name).toList))) := by
    have slash : "/".toList = ['/'] := by decide
    rw [base, ← String.toList_inj]
    simp only [String.toList_append, String.toList_ofList, List.append_assoc, List.cons_append,
      List.nil_append, path, slash]
  rw [← uri_parse_ok_iff options.version ("lassifiers/Object/".toList ++ parentClass.toList ++
    "/".toList ++ (toPascalCase name).toList) (by decide : isWhitespace 'C' = false), ← url]
  unfold propertyToElement
  exact bind_pure_ok

end Elements

section Synthetic

theorem head_append {c : Char} {s : String} (head : s.toList.head? = some c) (t : String) :
    (s ++ t).toList.head? = some c := by
  rw [String.toList_append, List.head?_append, head]
  rfl

theorem syntheticObject_packaged [UuidV5] (index : Nat) :
    (syntheticObject index).packagePath.toList.head? = some 'C' :=
  head_append (head_append (by decide) _) _

theorem syntheticAction_packaged [UuidV5] (index : Nat) :
    (syntheticAction index).packagePath.toList.head? = some 'C' :=
  head_append (head_append (by decide) _) _

structure Appended (before after : MimManifest) (links : List (String × Option String)) :
    Prop where
  taxonomy : after.taxonomyLinks = before.taxonomyLinks ++ links
  elements : after.elementLinks = before.elementLinks ++ links

theorem Appended.trans {a b c : MimManifest} {first second : List (String × Option String)}
    (one : Appended a b first) (two : Appended b c second) : Appended a c (first ++ second) where
  taxonomy := by rw [two.taxonomy, one.taxonomy, List.append_assoc]
  elements := by rw [two.elements, one.elements, List.append_assoc]

variable {node : Nat → TaxonomyNode} {options : ImportOptions} {wanted : Nat}

/-- With a version that no URL can have, the loop that has something to add never ends. -/
theorem appendSynthetic_unusable (unusable : ∀ i e,
      taxonomyToElement (node i) .classElement options ≠ .ok e)
    (fuel count index : Nat) (m : MimManifest) (short : count < wanted) :
    appendSynthetic node options wanted fuel count index m = none := by
  induction fuel generalizing index with
  | zero => rw [appendSynthetic, if_pos short]
  | succ fuel ih =>
    rw [appendSynthetic, if_pos short]
    cases built : taxonomyToElement (node (index + 1)) .classElement options with
    | error e => exact ih (index + 1)
    | ok e => exact absurd built (unusable (index + 1) e)

def nodeLink (n : TaxonomyNode) : String × Option String := (n.name, n.parent)

theorem appendSynthetic_some (packaged : ∀ i, (node i).packagePath.toList.head? = some 'C')
    {fuel count index last : Nat} {m after : MimManifest} (enough : wanted ≤ count + fuel)
    (ran : appendSynthetic node options wanted fuel count index m = some (last, after)) :
    last = index + (wanted - count) ∧
      Appended m after ((List.range' (index + 1) (wanted - count)).map fun i => nodeLink (node i)) := by
  induction fuel generalizing count index m with
  | zero =>
    have full : ¬ count < wanted := by omega
    rw [appendSynthetic, if_neg full] at ran
    obtain ⟨rfl, rfl⟩ := Prod.mk.inj (Option.some.inj ran)
    rw [Nat.sub_eq_zero_of_le (Nat.le_of_not_lt full)]
    exact ⟨rfl, ⟨(List.append_nil _).symm, (List.append_nil _).symm⟩⟩
  | succ fuel ih =>
    by_cases short : count < wanted
    · rw [appendSynthetic, if_pos short] at ran
      cases built : taxonomyToElement (node (index + 1)) .classElement options with
      | error e =>
        rw [built] at ran
        have unusable : ¬ UsableVersion options.version := by
          rw [← taxonomyToElement_ok_iff .classElement options (packaged (index + 1))]
          rintro ⟨other, same⟩
          cases built.symm.trans same
        have never := appendSynthetic_unusable (fun i e same => unusable
          ((taxonomyToElement_ok_iff .classElement options (packaged i)).mp ⟨e, same⟩))
            fuel count (index + 1) m short
        cases never.symm.trans ran
      | ok element =>
        rw [built] at ran
        obtain ⟨total, rest⟩ := ih (by omega) ran
        have more : wanted - count = wanted - (count + 1) + 1 := by omega
        have link := taxonomyToElement_link built
        have first : Appended m { m with
            taxonomy := m.taxonomy ++ [node (index + 1)]
            elements := m.elements ++ [element] } [nodeLink (node (index + 1))] := by
          refine ⟨?_, ?_⟩
          · simp only [MimManifest.taxonomyLinks, List.map_append, List.map_cons, List.map_nil]
            rfl
          · simp only [MimManifest.elementLinks, List.map_append, List.map_cons, List.map_nil, link]
            rfl
        refine ⟨by omega, ?_⟩
        rw [more, List.range'_succ, List.map_cons]
        exact first.trans rest
    · rw [appendSynthetic, if_neg short] at ran
      obtain ⟨rfl, rfl⟩ := Prod.mk.inj (Option.some.inj ran)
      rw [Nat.sub_eq_zero_of_le (Nat.le_of_not_lt short)]
      exact ⟨rfl, ⟨(List.append_nil _).symm, (List.append_nil _).symm⟩⟩

end Synthetic

section Classes

variable [UnicodeCase] [UuidV5] {owl : OwlModel} {options : ImportOptions}

def classLink (owl : OwlModel) (name : String) : String × Option String :=
  (toPascalCase name, importedParent owl name)

structure NodeOf (owl : OwlModel) (isObject : Bool) (name : String) (n : TaxonomyNode) : Prop where
  link : nodeLink n = classLink owl name
  packagePath : n.packagePath = packagePathFor name isObject
  objectKind : n.objectKind = if isObject then inferObjectKind name else none
  actionKind : n.actionKind = if isObject then none else inferActionKind name

theorem classToTaxonomyNode_ok {name : String} {isObject : Bool} {n : TaxonomyNode}
    (made : classToTaxonomyNode owl name isObject = .ok n) : NodeOf owl isObject name n := by
  unfold classToTaxonomyNode at made
  split at made
  · cases made
  · obtain rfl := Except.ok.inj made
    exact ⟨rfl, rfl, rfl, rfl⟩

def ImportedClasses.elementLinks (s : ImportedClasses) : List (String × Option String) :=
  s.elements.map fun e => (e.name, e.parentClass)

structure Imported (owl : OwlModel) (before after : ImportedClasses) (names : List String)
    (added : List TaxonomyNode) : Prop where
  nodes : after.taxonomy = before.taxonomy ++ added
  links : added.map nodeLink = names.map (classLink owl)
  elements : after.elementLinks = before.elementLinks ++ names.map (classLink owl)

theorem importClass_ok {isObject : Bool} {s after : ImportedClasses} {name : String}
    (ran : importClass owl options isObject s name = .ok after) :
    Imported owl s after [name] (classToTaxonomyNode owl name isObject).toOption.toList := by
  unfold importClass at ran
  obtain ⟨n, made, rest⟩ := bind_ok.mp ran
  obtain ⟨e, built, added⟩ := bind_ok.mp rest
  obtain rfl := pure_ok.mp added
  have link := (classToTaxonomyNode_ok made).link
  have same := (taxonomyToElement_link built).trans link
  rw [made]
  refine ⟨rfl, ?_, ?_⟩
  · exact congrArg (fun l => [l]) link
  · simp only [ImportedClasses.elementLinks, List.map_append, List.map_cons, List.map_nil, same]

theorem importClasses_ok {isObject : Bool} (names : List String) {s after : ImportedClasses}
    (ran : names.foldlM (importClass owl options isObject) s = .ok after) :
    Imported owl s after names
      (names.filterMap fun name => (classToTaxonomyNode owl name isObject).toOption) := by
  induction names generalizing s with
  | nil =>
    obtain rfl := Except.ok.inj ran
    exact ⟨(List.append_nil _).symm, rfl, (List.append_nil _).symm⟩
  | cons name names ih =>
    rw [List.foldlM_cons] at ran
    obtain ⟨next, first, rest⟩ := bind_ok.mp ran
    have one := importClass_ok first
    have more := ih rest
    have split : (name :: names).filterMap
        (fun name => (classToTaxonomyNode owl name isObject).toOption) =
          (classToTaxonomyNode owl name isObject).toOption.toList ++
            names.filterMap fun name => (classToTaxonomyNode owl name isObject).toOption := by
      rw [List.filterMap_cons]
      cases (classToTaxonomyNode owl name isObject).toOption with
      | none => rfl
      | some n => rfl
    rw [split]
    refine ⟨?_, ?_, ?_⟩
    · rw [more.nodes, one.nodes, List.append_assoc]
    · rw [List.map_append, one.links, more.links]
      rfl
    · rw [more.elements, one.elements, List.append_assoc]
      rfl

def importedNodes (owl : OwlModel) (options : ImportOptions) : List TaxonomyNode :=
  ((selectClasses owl options).objects.toList.filterMap fun name =>
    (classToTaxonomyNode owl name true).toOption) ++
  (selectClasses owl options).actions.toList.filterMap fun name =>
    (classToTaxonomyNode owl name false).toOption

theorem importClasses_all {classes : ImportedClasses}
    (ran : importClasses owl options (selectClasses owl options) = .ok classes) :
    Imported owl {} classes (selectClasses owl options).all (importedNodes owl options) := by
  unfold importClasses at ran
  obtain ⟨objects, first, rest⟩ := bind_ok.mp ran
  have one := importClasses_ok _ first
  have two := importClasses_ok _ rest
  refine ⟨?_, ?_, ?_⟩
  · rw [two.nodes, one.nodes, List.append_assoc, importedNodes]
  · rw [importedNodes, List.map_append, one.links, two.links, ClassNames.all, List.map_append]
  · rw [two.elements, one.elements, List.append_assoc, ClassNames.all, List.map_append]

end Classes

section Attributes

variable [UnicodeCase] [UuidV5] {owl : OwlModel} {options : ImportOptions}

def attributeLink (owl : OwlModel) (taxonomyNames : List String) (e : String × OwlProperty) :
    Option (String × Option String) :=
  (attributeClass owl taxonomyNames e.2).map fun parent => (toPascalCase e.1, some parent)

omit [UuidV5] in
theorem taxonomyDomainName_mem {domain name : String} {taxonomyNames : List String}
    (found : taxonomyDomainName domain taxonomyNames = some name) : name ∈ taxonomyNames := by
  simpa using List.find?_some found

omit [UuidV5] in
theorem attributeClass_mem {taxonomyNames : List String} {property : OwlProperty} {name : String}
    (found : attributeClass owl taxonomyNames property = some name) : name ∈ taxonomyNames := by
  obtain ⟨domain, _, resolved⟩ := Option.bind_eq_some_iff.mp found
  rcases Option.or_eq_some_iff.mp resolved with direct | ⟨_, inherited⟩
  · exact taxonomyDomainName_mem direct
  · obtain ⟨ancestor, _, there⟩ := List.exists_of_findSome?_eq_some inherited
    exact taxonomyDomainName_mem there

theorem propertyToElement_link {name parent : String} {property : OwlProperty}
    {e : ModelElementSpec} (built : propertyToElement name property parent options = .ok e) :
    (e.name, e.parentClass) = (toPascalCase name, some parent) := by
  unfold propertyToElement at built
  obtain ⟨uri, _, made⟩ := bind_ok.mp built
  rw [← pure_ok.mp made]

theorem importOwlAttribute_ok {taxonomyNames : List String} {batch after : AttributeImportBatch}
    {e : String × OwlProperty}
    (ran : importOwlAttribute owl taxonomyNames options batch e = .ok after) :
    after.elements.map (fun e => (e.name, e.parentClass)) =
      batch.elements.map (fun e => (e.name, e.parentClass)) ++
        (attributeLink owl taxonomyNames e).toList := by
  unfold importOwlAttribute at ran
  unfold attributeLink
  split at ran
  · rename_i skipped
    obtain rfl := Except.ok.inj ran
    rw [skipped]
    exact (List.append_nil _).symm
  · rename_i parent found
    obtain ⟨element, built, added⟩ := bind_ok.mp ran
    obtain rfl := pure_ok.mp added
    rw [found, List.map_append, List.map_cons, List.map_nil, propertyToElement_link built]
    rfl

def attributeLinks (owl : OwlModel) (taxonomyNames : List String) : List (String × Option String) :=
  owl.properties.entries.filterMap (attributeLink owl taxonomyNames)

theorem importOwlAttributes_ok {taxonomyNames : List String} {batch : AttributeImportBatch}
    (ran : importOwlAttributes owl taxonomyNames options = .ok batch) :
    batch.elements.map (fun e => (e.name, e.parentClass)) = attributeLinks owl taxonomyNames := by
  have all : ∀ (entries : List (String × OwlProperty)) {first last : AttributeImportBatch},
      entries.foldlM (importOwlAttribute owl taxonomyNames options) first = .ok last →
        last.elements.map (fun e => (e.name, e.parentClass)) =
          first.elements.map (fun e => (e.name, e.parentClass)) ++
            entries.filterMap (attributeLink owl taxonomyNames) := by
    intro entries
    induction entries with
    | nil =>
      intro first last ran
      obtain rfl := Except.ok.inj ran
      exact (List.append_nil _).symm
    | cons e entries ih =>
      intro first last ran
      rw [List.foldlM_cons] at ran
      obtain ⟨next, one, rest⟩ := bind_ok.mp ran
      rw [ih rest, importOwlAttribute_ok one, List.append_assoc, List.filterMap_cons]
      cases attributeLink owl taxonomyNames e with
      | none => rfl
      | some link => rfl
  exact all _ ran

end Attributes

section Merge

def seedNodes (options : ImportOptions) : List TaxonomyNode :=
  (options.mergeSeed.map (·.taxonomy)).getD []

def seedElements (options : ImportOptions) : List ModelElementSpec :=
  (options.mergeSeed.map (·.elements)).getD []

def elementLink (e : ModelElementSpec) : String × Option String := (e.name, e.parentClass)

theorem merged_taxonomyLinks (options : ImportOptions) (m : MimManifest) :
    SameLatest Prod.fst (mergeSeedOption options m).taxonomyLinks
      (m.taxonomyLinks ++ (seedNodes options).map nodeLink) := by
  unfold mergeSeedOption seedNodes
  cases options.mergeSeed with
  | none =>
    simp only [Option.map_none, Option.getD_none, List.map_nil, List.append_nil]
    exact fun e => Iff.rfl
  | some seed =>
    have same := sameLatest_indexed (·.name) (·.parent) (m.taxonomy ++ seed.taxonomy)
    rw [List.map_append, ← indexed_append] at same
    exact same

theorem merged_elementLinks (options : ImportOptions) (m : MimManifest) :
    SameLatest Prod.fst (mergeSeedOption options m).elementLinks
      (m.elementLinks ++ (seedElements options).map elementLink) := by
  unfold mergeSeedOption seedElements
  cases options.mergeSeed with
  | none =>
    simp only [Option.map_none, Option.getD_none, List.map_nil, List.append_nil]
    exact fun e => Iff.rfl
  | some seed =>
    have same := sameLatest_indexed (·.name) (·.parentClass) (m.elements ++ seed.elements)
    rw [List.map_append, ← indexed_append] at same
    exact same

theorem seed_linked {options : ImportOptions} (seedLoads : ∀ seed, options.mergeSeed = some seed →
      ∃ r, ModelRegistry.fromManifest seed = .ok r) :
    Linked ((seedNodes options).map nodeLink) (· ∈ (seedNodes options).map (·.name)) ∧
      Linked ((seedElements options).map elementLink) fun p =>
        p ∈ (seedElements options).map (·.name) ∨ p ∈ (seedNodes options).map (·.name) := by
  unfold seedNodes seedElements
  cases merged : options.mergeSeed with
  | none => exact ⟨fun e latest => absurd (latest_mem latest) List.not_mem_nil,
      fun e latest => absurd (latest_mem latest) List.not_mem_nil⟩
  | some seed =>
    have linked := (loads_iff seed).mp (seedLoads seed merged)
    simp only [MimManifest.taxonomyLinks, MimManifest.elementLinks, List.map_map] at linked
    exact linked

variable [UnicodeCase] [UuidV5] {owl : OwlModel} {options : ImportOptions}

def mergedTaxonomy (owl : OwlModel) (options : ImportOptions) : List TaxonomyNode :=
  match options.mergeSeed with
  | none => importedNodes owl options
  | some seed => (indexed (·.name) (importedNodes owl options ++ seed.taxonomy)).values

theorem merged_taxonomy {m : MimManifest} (nodes : m.taxonomy = importedNodes owl options) :
    (mergeSeedOption options m).taxonomy = mergedTaxonomy owl options := by
  unfold mergeSeedOption mergedTaxonomy
  cases options.mergeSeed with
  | none => exact nodes
  | some seed =>
    dsimp only [mergeSeed]
    rw [← nodes, ← indexed_append]

def missingObjects (owl : OwlModel) (options : ImportOptions) : Nat :=
  options.minObjects - (mergedTaxonomy owl options).countP (·.isObject)

def missingActions (owl : OwlModel) (options : ImportOptions) : Nat :=
  options.minActions - (mergedTaxonomy owl options).countP (·.isAction)

def syntheticObjects (owl : OwlModel) (options : ImportOptions) : List (String × Option String) :=
  (List.range' 1 (missingObjects owl options)).map fun i => nodeLink (syntheticObject i)

def syntheticActions (owl : OwlModel) (options : ImportOptions) : List (String × Option String) :=
  (List.range' (missingObjects owl options + 1) (missingActions owl options)).map fun i =>
    nodeLink (syntheticAction i)

def importedClasses (owl : OwlModel) (options : ImportOptions) : List String :=
  (selectClasses owl options).all

def classLinks (owl : OwlModel) (options : ImportOptions) : List (String × Option String) :=
  (importedClasses owl options).map (classLink owl)

def taxonomyNames (owl : OwlModel) (options : ImportOptions) : List String :=
  (importedClasses owl options).map toPascalCase

structure Composed (owl : OwlModel) (options : ImportOptions) (m : MimManifest) : Prop where
  taxonomy : ∃ merged, m.taxonomyLinks =
      merged ++ (syntheticObjects owl options ++ syntheticActions owl options) ∧
    SameLatest Prod.fst merged (classLinks owl options ++ (seedNodes options).map nodeLink)
  elements : ∃ merged, m.elementLinks =
      merged ++ (syntheticObjects owl options ++ syntheticActions owl options) ∧
    SameLatest Prod.fst merged (classLinks owl options ++
      attributeLinks owl (taxonomyNames owl options) ++ (seedElements options).map elementLink)

theorem appendSyntheticCoverage_some {m after : MimManifest}
    (nodes : m.taxonomy = mergedTaxonomy owl options)
    (ran : appendSyntheticCoverage m options = some after) :
    Appended m after (syntheticObjects owl options ++ syntheticActions owl options) := by
  unfold appendSyntheticCoverage at ran
  obtain ⟨⟨last, objects⟩, first, rest⟩ := Option.bind_eq_some_iff.mp ran
  obtain ⟨⟨final, actions⟩, second, same⟩ := Option.bind_eq_some_iff.mp rest
  obtain rfl := Option.some.inj same
  obtain ⟨total, one⟩ := appendSynthetic_some syntheticObject_packaged (Nat.le_add_left _ _) first
  obtain ⟨_, two⟩ := appendSynthetic_some syntheticAction_packaged (Nat.le_add_left _ _) second
  have start : last = missingObjects owl options := by
    rw [total, objectCount, nodes, Nat.zero_add, missingObjects]
  rw [objectCount, nodes] at one
  rw [actionCount, nodes, start] at two
  exact one.trans two

theorem importBase_ok {m : MimManifest} {attributes : AttributeImportBatch}
    (ran : importBase owl options = .ok (m, attributes)) :
    m.taxonomy = mergedTaxonomy owl options ∧
      SameLatest Prod.fst m.taxonomyLinks
        (classLinks owl options ++ (seedNodes options).map nodeLink) ∧
      SameLatest Prod.fst m.elementLinks (classLinks owl options ++
        attributeLinks owl (taxonomyNames owl options) ++ (seedElements options).map elementLink) := by
  unfold importBase at ran
  obtain ⟨classes, first, rest⟩ := bind_ok.mp ran
  obtain ⟨batch, second, made⟩ := bind_ok.mp rest
  obtain ⟨rfl, rfl⟩ := Prod.mk.inj (pure_ok.mp made)
  have imported := importClasses_all first
  have attached := importOwlAttributes_ok second
  have nodes : classes.taxonomy = importedNodes owl options := imported.nodes
  refine ⟨merged_taxonomy nodes, ?_, ?_⟩
  · have links : classes.taxonomy.map nodeLink = classLinks owl options := by
      rw [nodes, imported.links, classLinks, importedClasses]
    rw [← links]
    exact merged_taxonomyLinks options _
  · have links : (classes.elements ++ batch.elements).map elementLink = classLinks owl options ++
        attributeLinks owl (taxonomyNames owl options) := by
      rw [List.map_append]
      exact congrArg₂ _ imported.elements attached
    rw [← links]
    exact merged_elementLinks options _

theorem importManifest_ok {m : MimManifest} {report : ImportReport}
    (returned : OwlImporter.importManifest owl options = some (.ok (m, report))) :
    ∃ merged attributes, importBase owl.resolvePropertyDomains options = .ok (merged, attributes) ∧
      appendSyntheticCoverage merged options = some m ∧
      report = importReport owl.resolvePropertyDomains options m attributes := by
  unfold OwlImporter.importManifest at returned
  dsimp only at returned
  cases base : importBase owl.resolvePropertyDomains options with
  | error e =>
    rw [base] at returned
    cases returned
  | ok made =>
    obtain ⟨merged, attributes⟩ := made
    rw [base] at returned
    obtain ⟨after, added, same⟩ := Option.map_eq_some_iff.mp returned
    obtain ⟨rfl, rfl⟩ := Prod.mk.inj (Except.ok.inj same)
    exact ⟨merged, attributes, rfl, added, rfl⟩

theorem importManifest_composed {m : MimManifest} {report : ImportReport}
    (returned : OwlImporter.importManifest owl options = some (.ok (m, report))) :
    Composed owl.resolvePropertyDomains options m := by
  obtain ⟨merged, attributes, base, added, _⟩ := importManifest_ok returned
  obtain ⟨nodes, taxonomy, elements⟩ := importBase_ok base
  have appended := appendSyntheticCoverage_some nodes added
  exact ⟨⟨_, appended.taxonomy, taxonomy⟩, ⟨_, appended.elements, elements⟩⟩

end Merge

section Parents

variable [UnicodeCase] [UuidV5] (owl : OwlModel) (options : ImportOptions)

def syntheticNames : List String :=
  (syntheticObjects owl options).map Prod.fst ++ (syntheticActions owl options).map Prod.fst

/-- The names of all types there will be: imported, from the seed, and synthetic. -/
def typeNames : List String :=
  taxonomyNames owl options ++ (seedNodes options).map (·.name) ++ syntheticNames owl options

/-- The names of the properties that become attributes of an imported class. -/
def attributeNames : List String :=
  (attributeLinks owl (taxonomyNames owl options)).map Prod.fst

/-- The parents an import needs are there. A class whose entry is replaced by a later one of
the same name needs none. -/
structure ParentsKnown : Prop where
  nodes : ∀ c, Latest toPascalCase (importedClasses owl options) c →
    toPascalCase c ∉ (seedNodes options).map (·.name) →
    toPascalCase c ∉ syntheticNames owl options →
    ∀ p, importedParent owl c = some p → p ∈ typeNames owl options
  elements : ∀ c, Latest toPascalCase (importedClasses owl options) c →
    toPascalCase c ∉ attributeNames owl options →
    toPascalCase c ∉ (seedElements options).map (·.name) →
    toPascalCase c ∉ syntheticNames owl options →
    ∀ p, importedParent owl c = some p → p ∈ typeNames owl options ∨
      p ∈ attributeNames owl options ∨ p ∈ (seedElements options).map (·.name)
  objects : missingObjects owl options ≠ 0 → "Object" ∈ typeNames owl options
  actions : missingActions owl options ≠ 0 → "Action" ∈ typeNames owl options

end Parents

section Loading

variable [UnicodeCase] [UuidV5] {owl : OwlModel} {options : ImportOptions}

omit [UnicodeCase] in
theorem syntheticObject_name (i : Nat) :
    (syntheticObject i).name = "ImportedObject" ++ fourDigits i := rfl

omit [UnicodeCase] in
theorem syntheticAction_name (i : Nat) :
    (syntheticAction i).name = "ImportedAction" ++ fourDigits i := rfl

omit [UnicodeCase] in
theorem synthetic_names_apart (i j : Nat) : (syntheticObject i).name ≠ (syntheticAction j).name := by
  intro same
  have chars := congrArg (fun s : String => s.toList.take 14) same
  have objects : "ImportedObject".toList.length = 14 := by decide
  have actions : "ImportedAction".toList.length = 14 := by decide
  simp only [syntheticObject_name, syntheticAction_name, String.toList_append] at chars
  rw [List.take_left' objects, List.take_left' actions] at chars
  exact absurd chars (by decide)

theorem synthetic_linked (known : String → Prop) :
    Linked (syntheticObjects owl options ++ syntheticActions owl options) known ↔
      (missingObjects owl options ≠ 0 → known "Object") ∧
        (missingActions owl options ≠ 0 → known "Action") := by
  have objects : Linked (syntheticObjects owl options) known ↔
      (missingObjects owl options ≠ 0 → known "Object") := by
    have all : ∀ e ∈ syntheticObjects owl options, e.2 = some "Object" := by
      intro e mem
      obtain ⟨i, _, rfl⟩ := List.mem_map.mp mem
      rfl
    rw [linked_to known all]
    simp [syntheticObjects]
  have actions : Linked (syntheticActions owl options) known ↔
      (missingActions owl options ≠ 0 → known "Action") := by
    have all : ∀ e ∈ syntheticActions owl options, e.2 = some "Action" := by
      intro e mem
      obtain ⟨i, _, rfl⟩ := List.mem_map.mp mem
      rfl
    rw [linked_to known all]
    simp [syntheticActions]
  have apart : ∀ e ∈ syntheticObjects owl options,
      e.1 ∉ (syntheticActions owl options).map Prod.fst := by
    intro e mem taken
    obtain ⟨i, _, rfl⟩ := List.mem_map.mp mem
    obtain ⟨f, listed, same⟩ := List.mem_map.mp taken
    obtain ⟨j, _, rfl⟩ := List.mem_map.mp listed
    exact synthetic_names_apart i j same.symm
  rw [linked_append, actions, and_comm, ← objects]
  refine and_congr_left fun _ => ⟨fun linked e latest => linked e latest (apart e (latest_mem latest)),
    fun linked e latest _ => linked e latest⟩

omit [UuidV5] in
theorem latest_classLinks (e : String × Option String) :
    Latest Prod.fst (classLinks owl options) e ↔
      ∃ c, Latest toPascalCase (importedClasses owl options) c ∧ classLink owl c = e :=
  latest_map (classLink owl) (importedClasses owl options) e

theorem composed_taxonomyNames {m : MimManifest} (composed : Composed owl options m) (p : String) :
    p ∈ m.taxonomyLinks.map Prod.fst ↔ p ∈ typeNames owl options := by
  obtain ⟨merged, shape, same⟩ := composed.taxonomy
  rw [shape, List.map_append, List.mem_append, mem_keys_of_sameLatest same]
  simp only [typeNames, syntheticNames, taxonomyNames, classLinks, List.map_append, List.map_map,
    List.mem_append]
  rfl

theorem composed_elementNames {m : MimManifest} (composed : Composed owl options m) (p : String) :
    p ∈ m.elementLinks.map Prod.fst ∨ p ∈ m.taxonomyLinks.map Prod.fst ↔
      p ∈ typeNames owl options ∨ p ∈ attributeNames owl options ∨
        p ∈ (seedElements options).map (·.name) := by
  obtain ⟨merged, shape, same⟩ := composed.elements
  rw [composed_taxonomyNames composed, shape, List.map_append, List.mem_append,
    mem_keys_of_sameLatest same]
  have names : p ∈ (classLinks owl options).map Prod.fst ↔ p ∈ taxonomyNames owl options := by
    rw [classLinks, taxonomyNames, List.map_map]
    rfl
  have elements : p ∈ ((seedElements options).map elementLink).map Prod.fst ↔
      p ∈ (seedElements options).map (·.name) := by
    rw [List.map_map]
    rfl
  have synthetic : p ∈ (syntheticObjects owl options ++ syntheticActions owl options).map Prod.fst ↔
      p ∈ syntheticNames owl options := by rw [syntheticNames, List.map_append]
  rw [synthetic, List.map_append, List.mem_append, List.map_append, List.mem_append, names, elements,
    ← attributeNames]
  simp only [typeNames, List.mem_append]
  constructor
  · rintro ((((imported | attributed) | seeded) | added) | typed)
    · exact .inl (.inl (.inl imported))
    · exact .inr (.inl attributed)
    · exact .inr (.inr seeded)
    · exact .inl (.inr added)
    · exact .inl typed
  · rintro (typed | attributed | seeded)
    · exact .inr typed
    · exact .inl (.inl (.inl (.inr attributed)))
    · exact .inl (.inl (.inr seeded))

theorem nodes_linked_iff
    (seed : Linked ((seedNodes options).map nodeLink) (· ∈ (seedNodes options).map (·.name))) :
    (∀ e, Latest Prod.fst (classLinks owl options ++ (seedNodes options).map nodeLink) e →
      e.1 ∉ syntheticNames owl options → ∀ p, e.2 = some p → p ∈ typeNames owl options) ↔
    ∀ c, Latest toPascalCase (importedClasses owl options) c →
      toPascalCase c ∉ (seedNodes options).map (·.name) →
      toPascalCase c ∉ syntheticNames owl options →
      ∀ p, importedParent owl c = some p → p ∈ typeNames owl options := by
  have seedNames : ∀ x, x ∈ ((seedNodes options).map nodeLink).map Prod.fst ↔
      x ∈ (seedNodes options).map (·.name) := by
    intro x
    rw [List.map_map]
    rfl
  constructor
  · intro linked c latest unseeded unsynthetic
    refine linked (classLink owl c) ((latest_append _ _ _).mpr (.inr ⟨?_, ?_⟩)) unsynthetic
    · exact (latest_classLinks _).mpr ⟨c, latest, rfl⟩
    · exact fun mem => unseeded ((seedNames _).mp mem)
  · intro known e latest unsynthetic p parent
    rcases (latest_append _ _ _).mp latest with seeded | ⟨imported, unseeded⟩
    · have there := seed e seeded p parent
      exact List.mem_append_left _ (List.mem_append_right _ there)
    · obtain ⟨c, last, rfl⟩ := (latest_classLinks e).mp imported
      exact known c last (fun mem => unseeded ((seedNames _).mpr mem)) unsynthetic p parent

theorem attributeLinks_linked (e : String × Option String)
    (mem : e ∈ attributeLinks owl (taxonomyNames owl options)) (p : String) (parent : e.2 = some p) :
    p ∈ typeNames owl options := by
  obtain ⟨property, _, made⟩ := List.mem_filterMap.mp mem
  obtain ⟨name, found, rfl⟩ := Option.map_eq_some_iff.mp made
  obtain rfl := Option.some.inj parent
  exact List.mem_append_left _ (List.mem_append_left _ (attributeClass_mem found))

theorem elements_linked_iff
    (seed : Linked ((seedElements options).map elementLink) fun p =>
      p ∈ (seedElements options).map (·.name) ∨ p ∈ (seedNodes options).map (·.name)) :
    (∀ e, Latest Prod.fst (classLinks owl options ++
        attributeLinks owl (taxonomyNames owl options) ++ (seedElements options).map elementLink) e →
      e.1 ∉ syntheticNames owl options → ∀ p, e.2 = some p → p ∈ typeNames owl options ∨
        p ∈ attributeNames owl options ∨ p ∈ (seedElements options).map (·.name)) ↔
    ∀ c, Latest toPascalCase (importedClasses owl options) c →
      toPascalCase c ∉ attributeNames owl options →
      toPascalCase c ∉ (seedElements options).map (·.name) →
      toPascalCase c ∉ syntheticNames owl options →
      ∀ p, importedParent owl c = some p → p ∈ typeNames owl options ∨
        p ∈ attributeNames owl options ∨ p ∈ (seedElements options).map (·.name) := by
  have seedNames : ∀ x, x ∈ ((seedElements options).map elementLink).map Prod.fst ↔
      x ∈ (seedElements options).map (·.name) := by
    intro x
    rw [List.map_map]
    rfl
  constructor
  · intro linked c latest unattributed unseeded unsynthetic
    refine linked (classLink owl c) ?_ unsynthetic
    refine (latest_append _ _ _).mpr (.inr ⟨(latest_append _ _ _).mpr (.inr ⟨?_, unattributed⟩), ?_⟩)
    · exact (latest_classLinks _).mpr ⟨c, latest, rfl⟩
    · exact fun mem => unseeded ((seedNames _).mp mem)
  · intro known e latest unsynthetic p parent
    rcases (latest_append _ _ _).mp latest with seeded | ⟨own, unseeded⟩
    · rcases seed e seeded p parent with element | node
      · exact .inr (.inr element)
      · exact .inl (List.mem_append_left _ (List.mem_append_right _ node))
    · rcases (latest_append _ _ _).mp own with attributed | ⟨imported, unattributed⟩
      · exact .inl (attributeLinks_linked e (latest_mem attributed) p parent)
      · obtain ⟨c, last, rfl⟩ := (latest_classLinks e).mp imported
        exact known c last unattributed (fun mem => unseeded ((seedNames _).mpr mem))
          unsynthetic p parent

omit [UnicodeCase] [UuidV5] in
theorem appendSynthetic_ends {node : Nat → TaxonomyNode} {wanted : Nat}
    (packaged : ∀ i, (node i).packagePath.toList.head? = some 'C')
    (usable : UsableVersion options.version) (fuel count index : Nat) (m : MimManifest)
    (enough : wanted ≤ count + fuel) :
    ∃ r, appendSynthetic node options wanted fuel count index m = some r := by
  induction fuel generalizing count index m with
  | zero =>
    have full : ¬ count < wanted := by omega
    exact ⟨_, by rw [appendSynthetic, if_neg full]⟩
  | succ fuel ih =>
    by_cases short : count < wanted
    · obtain ⟨element, built⟩ :=
        (taxonomyToElement_ok_iff .classElement options (packaged (index + 1))).mpr usable
      rw [appendSynthetic, if_pos short, built]
      exact ih (count + 1) (index + 1) _ (by omega)
    · exact ⟨_, by rw [appendSynthetic, if_neg short]⟩

omit [UnicodeCase] in
theorem appendSyntheticCoverage_ends (usable : UsableVersion options.version) (m : MimManifest) :
    ∃ after, appendSyntheticCoverage m options = some after := by
  obtain ⟨objects, first⟩ := appendSynthetic_ends syntheticObject_packaged usable
    options.minObjects (objectCount m) 0 m (Nat.le_add_left _ _)
  obtain ⟨actions, second⟩ := appendSynthetic_ends syntheticAction_packaged usable
    options.minActions (actionCount m) objects.1 objects.2 (Nat.le_add_left _ _)
  refine ⟨actions.2, ?_⟩
  simp only [appendSyntheticCoverage, Option.bind_eq_bind, first, Option.bind_some, second]
  rfl

theorem importManifest_ends (usable : UsableVersion options.version) :
    ∃ r, OwlImporter.importManifest owl options = some r := by
  unfold OwlImporter.importManifest
  dsimp only
  cases base : importBase owl.resolvePropertyDomains options with
  | error e => exact ⟨_, rfl⟩
  | ok made =>
    obtain ⟨after, added⟩ := appendSyntheticCoverage_ends usable made.1
    exact ⟨_, congrArg (Option.map _) added⟩

theorem classToTaxonomyNode_packaged {name : String} {isObject : Bool} {n : TaxonomyNode}
    (made : classToTaxonomyNode owl name isObject = .ok n) :
    n.packagePath.toList.head? = some 'C' := by
  rw [(classToTaxonomyNode_ok made).packagePath]
  exact head_append (head_append (head_append (head_append (head_append (by decide) _) _) _) _) _

theorem importClass_succeeds (usable : UsableVersion options.version) (isObject : Bool)
    (s : ImportedClasses) {name : String} (declared : owl.classes.containsKey name = true) :
    ∃ t, importClass owl options isObject s name = .ok t := by
  obtain ⟨c, found⟩ := Option.isSome_iff_exists.mp declared
  have made : ∃ n, classToTaxonomyNode owl name isObject = .ok n := by
    unfold classToTaxonomyNode
    rw [found]
    exact ⟨_, rfl⟩
  obtain ⟨n, made⟩ := made
  obtain ⟨e, built⟩ := (taxonomyToElement_ok_iff .classElement options
    (classToTaxonomyNode_packaged made)).mpr usable
  exact ⟨_, bind_ok.mpr ⟨n, made, bind_ok.mpr ⟨e, built, rfl⟩⟩⟩

theorem importOwlAttribute_succeeds (usable : UsableVersion options.version)
    (taxonomyNames : List String) (batch : AttributeImportBatch) (e : String × OwlProperty) :
    ∃ t, importOwlAttribute owl taxonomyNames options batch e = .ok t := by
  unfold importOwlAttribute
  cases attributeClass owl taxonomyNames e.2 with
  | none => exact ⟨_, rfl⟩
  | some parent =>
    obtain ⟨element, built⟩ := (propertyToElement_ok_iff e.1 e.2 parent options).mpr usable
    exact ⟨_, bind_ok.mpr ⟨element, built, rfl⟩⟩

theorem importBase_succeeds (usable : UsableVersion options.version)
    (declared : ∀ c ∈ importedClasses owl options, owl.classes.containsKey c = true) :
    ∃ r, importBase owl options = .ok r := by
  obtain ⟨objects, first⟩ := foldlM_succeeds (selectClasses owl options).objects.toList
    (fun s c mem => importClass_succeeds usable true s
      (declared c (List.mem_append_left _ mem))) {}
  obtain ⟨classes, second⟩ := foldlM_succeeds (selectClasses owl options).actions.toList
    (fun s c mem => importClass_succeeds usable false s
      (declared c (List.mem_append_right _ mem))) objects
  obtain ⟨batch, third⟩ := foldlM_succeeds owl.properties.entries
    (fun s e _ => importOwlAttribute_succeeds usable (taxonomyNames owl options) s e)
    ⟨[], 0, 0, owl.propertiesWithDomainCount⟩
  unfold importBase
  exact ⟨_, bind_ok.mpr ⟨classes, bind_ok.mpr ⟨objects, first, second⟩,
    bind_ok.mpr ⟨batch, third, rfl⟩⟩⟩

theorem importManifest_returns (usable : UsableVersion options.version)
    (declared : ∀ c ∈ importedClasses owl.resolvePropertyDomains options,
      owl.resolvePropertyDomains.classes.containsKey c = true) :
    ∃ m report, OwlImporter.importManifest owl options = some (.ok (m, report)) := by
  obtain ⟨⟨base, attributes⟩, built⟩ := importBase_succeeds usable declared
  obtain ⟨m, added⟩ := appendSyntheticCoverage_ends usable base
  refine ⟨m, importReport owl.resolvePropertyDomains options m attributes, ?_⟩
  unfold OwlImporter.importManifest
  dsimp only
  rw [built]
  exact congrArg (Option.map _) added

theorem composed_loads_iff {m : MimManifest} (composed : Composed owl options m)
    (seedLoads : ∀ seed, options.mergeSeed = some seed →
      ∃ r, ModelRegistry.fromManifest seed = .ok r) :
    (∃ r, ModelRegistry.fromManifest m = .ok r) ↔ ParentsKnown owl options := by
  have types := funext fun p => propext (composed_taxonomyNames composed p)
  have names := funext fun p => propext (composed_elementNames composed p)
  obtain ⟨seedTaxonomy, seedSpecs⟩ := seed_linked seedLoads
  obtain ⟨taxonomy, taxonomyShape, taxonomySame⟩ := composed.taxonomy
  obtain ⟨merged, elementShape, elementSame⟩ := composed.elements
  have synthetic : (syntheticObjects owl options ++ syntheticActions owl options).map Prod.fst =
      syntheticNames owl options := List.map_append
  rw [loads_iff, names, types, taxonomyShape, elementShape, linked_append_same taxonomySame,
    linked_append_same elementSame, synthetic_linked, synthetic_linked, synthetic,
    nodes_linked_iff seedTaxonomy, elements_linked_iff seedSpecs]
  constructor
  · rintro ⟨⟨⟨objects, actions⟩, nodes⟩, _, elements⟩
    exact ⟨nodes, elements, objects, actions⟩
  · rintro ⟨nodes, elements, objects, actions⟩
    exact ⟨⟨⟨objects, actions⟩, nodes⟩, ⟨fun missing => .inl (objects missing),
      fun missing => .inl (actions missing)⟩, elements⟩

/-- An imported manifest can be loaded just when the parents its import needs are known. -/
theorem import_loads_iff {m : MimManifest} {report : ImportReport}
    (returned : OwlImporter.importManifest owl options = some (.ok (m, report)))
    (seedLoads : ∀ seed, options.mergeSeed = some seed →
      ∃ r, ModelRegistry.fromManifest seed = .ok r) :
    (∃ r, ModelRegistry.fromManifest m = .ok r) ↔
      ParentsKnown owl.resolvePropertyDomains options :=
  composed_loads_iff (importManifest_composed returned) seedLoads

end Loading

section Fixtures

def landOperations (parents : List String) : OwlModel where
  classes := .ofList [("ACTION", { name := "ACTION" }), ("TANK", { name := "TANK", parents })]

def unpadded : ImportOptions where
  authoritativeMimworld := true
  minObjects := 0
  minActions := 0
  minCodeLists := 0

theorem unpadded_usable : UsableVersion unpadded.version := ⟨'5', _, rfl, by decide⟩

theorem unpadded_unseeded (seed : MimManifest) (given : unpadded.mergeSeed = some seed) :
    ∃ r, ModelRegistry.fromManifest seed = .ok r := by
  cases given

theorem import_loads_under_root : letI := asciiCase
    letI := lastCharacters
    ∃ m report,
      OwlImporter.importManifest (landOperations ["ACTION"]) unpadded = some (.ok (m, report)) ∧
      (∃ r, ModelRegistry.fromManifest m = .ok r) ∧
      ParentsKnown (landOperations ["ACTION"]).resolvePropertyDomains unpadded := by
  let : UnicodeCase := asciiCase
  let : UuidV5 := lastCharacters
  have imported : importedClasses (landOperations ["ACTION"]).resolvePropertyDomains unpadded =
      ["ACTION", "TANK"] := by decide +kernel
  have names : typeNames (landOperations ["ACTION"]).resolvePropertyDomains unpadded =
      ["Action", "Tank"] := by decide +kernel
  have declared : ∀ c ∈ importedClasses (landOperations ["ACTION"]).resolvePropertyDomains unpadded,
      (landOperations ["ACTION"]).resolvePropertyDomains.classes.containsKey c = true := by
    decide +kernel
  have root : importedParent (landOperations ["ACTION"]).resolvePropertyDomains "ACTION" = none := by
    decide +kernel
  have tank : importedParent (landOperations ["ACTION"]).resolvePropertyDomains "TANK" =
      some "Action" := by decide +kernel
  have parents : ∀ c ∈ importedClasses (landOperations ["ACTION"]).resolvePropertyDomains unpadded,
      ∀ p, importedParent (landOperations ["ACTION"]).resolvePropertyDomains c = some p →
        p ∈ typeNames (landOperations ["ACTION"]).resolvePropertyDomains unpadded := by
    rw [imported, names]
    intro c mem p parent
    rcases List.mem_pair.mp mem with rfl | rfl
    · cases root.symm.trans parent
    · obtain rfl := Option.some.inj (tank.symm.trans parent)
      exact List.mem_cons_self
  have known : ParentsKnown (landOperations ["ACTION"]).resolvePropertyDomains unpadded := by
    refine ⟨?_, ?_, ?_, ?_⟩
    · exact fun c latest _ _ p parent => parents c (latest_mem latest) p parent
    · exact fun c latest _ _ _ p parent => .inl (parents c (latest_mem latest) p parent)
    · exact fun missing => absurd (Nat.zero_sub _) missing
    · exact fun missing => absurd (Nat.zero_sub _) missing
  obtain ⟨m, report, returned⟩ := importManifest_returns unpadded_usable declared
  exact ⟨m, report, returned, (import_loads_iff returned unpadded_unseeded).mpr known, known⟩

theorem unpadded_taxonomy [UnicodeCase] [UuidV5] {owl : OwlModel} {m : MimManifest}
    {report : ImportReport}
    (returned : OwlImporter.importManifest owl unpadded = some (.ok (m, report))) :
    m.taxonomy = importedNodes owl.resolvePropertyDomains unpadded := by
  obtain ⟨merged, attributes, base, added, _⟩ := importManifest_ok returned
  have kept : appendSyntheticCoverage merged unpadded = some merged := by
    simp only [appendSyntheticCoverage, unpadded, appendSynthetic, Nat.not_lt_zero, if_false,
      Option.bind_eq_bind, Option.bind_some]
    rfl
  obtain rfl := Option.some.inj (added.symm.trans kept)
  exact (importBase_ok base).1

/-- The parent of a class is taken over though no class of that name is imported. -/
theorem import_undeclared_parent : letI := asciiCase
    letI := lastCharacters
    ∃ m report,
      OwlImporter.importManifest (landOperations ["MATERIEL"]) unpadded = some (.ok (m, report)) ∧
      ModelRegistry.fromManifest m =
        .error (.model "taxonomy node 'Tank' references unknown parent 'Materiel'") := by
  let : UnicodeCase := asciiCase
  let : UuidV5 := lastCharacters
  have declared : ∀ c ∈ importedClasses (landOperations ["MATERIEL"]).resolvePropertyDomains unpadded,
      (landOperations ["MATERIEL"]).resolvePropertyDomains.classes.containsKey c = true := by
    decide +kernel
  obtain ⟨m, report, returned⟩ := importManifest_returns unpadded_usable declared
  refine ⟨m, report, returned, fromManifest_unlinked ?_⟩
  rw [unpadded_taxonomy returned]
  decide +kernel

end Fixtures

end MimImport
