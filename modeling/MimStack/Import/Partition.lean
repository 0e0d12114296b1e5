import MimStack.Import.Coverage

/-!
Objects and actions. Every pass of the selection adds a class to one of the two sets, or
moves it from the objects to the actions, so each class is imported once.
-/
namespace MimImport
open RustText SortedStore IndexedMap Fallible MimCore MimModel

section Selected

variable {owl : OwlModel} {options : ImportOptions}

/-- What holds of the two sets after every pass. -/
structure Partitioned (owl : OwlModel) (options : ImportOptions) (s : ClassNames) : Prop where
  apart : ∀ name, s.objects.contains name = true → ¬ s.actions.contains name = true
  root : s.actions.contains options.actionRoot = true
  descendants : ∀ name ∈ owl.descendantsOf options.actionRoot, s.actions.contains name = true
  covered : ∀ name ∈ owl.classNames, isEnumerationClass owl name = false → name ∈ s.all

theorem foldl_kept {σ α : Type} {p : σ → Prop} {f : σ → α → σ}
    (step : ∀ s a, p s → p (f s a)) (items : List α) {s : σ} (here : p s) : p (items.foldl f s) := by
  induction items generalizing s with
  | nil => exact here
  | cons a rest ih => exact ih (step s a here)

theorem addObject_partitioned {s : ClassNames} (partitioned : Partitioned owl options s)
    {name : String} (noAction : ¬ s.actions.contains name = true) :
    Partitioned owl options (s.addObject name) := by
  refine { partitioned with apart := ?_, covered := ?_ }
  · intro other listed
    rcases (SortedSet.contains_add _ _ _).mp listed with rfl | before
    · exact noAction
    · exact partitioned.apart other before
  · intro other declared plain
    rw [mem_all_addObject]
    exact Or.inr (partitioned.covered other declared plain)

theorem promote_partitioned {s : ClassNames} (partitioned : Partitioned owl options s)
    (name : String) : Partitioned owl options (s.promote name) := by
  have kept : ∀ other, s.actions.contains other = true →
      (s.promote name).actions.contains other = true := by
    intro other listed
    exact (SortedSet.contains_add _ _ _).mpr (Or.inr listed)
  constructor
  · intro other listed moved
    obtain ⟨different, before⟩ := (SortedSet.contains_erase _ _ _).mp listed
    rcases (SortedSet.contains_add _ _ _).mp moved with same | already
    · exact different same
    · exact partitioned.apart other before already
  · exact kept _ partitioned.root
  · intro other below
    exact kept other (partitioned.descendants other below)
  · intro other declared plain
    rw [mem_all_iff]
    by_cases same : other = name
    · exact Or.inr ((SortedSet.contains_add _ _ _).mpr (Or.inl same))
    · rcases (mem_all_iff s other).mp (partitioned.covered other declared plain) with object | action
      · exact Or.inl ((SortedSet.contains_erase _ _ _).mpr ⟨same, object⟩)
      · exact Or.inr (kept other action)

theorem fillObjects_partitioned {s : ClassNames} (minObjects : Nat) (names : List String)
    (partitioned : Partitioned owl options s) :
    Partitioned owl options (s.fillObjects minObjects names) := by
  refine foldl_kept ?_ names partitioned
  intro t name here
  split
  · exact here
  · rename_i wanted
    rw [Bool.or_eq_true, not_or] at wanted
    exact addObject_partitioned here wanted.2

theorem promoteEvents_partitioned {s : ClassNames} (minActions : Nat) (names : List String)
    (partitioned : Partitioned owl options s) :
    Partitioned owl options (s.promoteEvents minActions names) := by
  refine foldl_kept ?_ names partitioned
  intro t name here
  split
  · exact here
  · exact promote_partitioned here name

theorem promoteAny_partitioned {s : ClassNames} (minActions : Nat) (names : List String)
    (partitioned : Partitioned owl options s) :
    Partitioned owl options (s.promoteAny minActions names) := by
  refine foldl_kept ?_ names partitioned
  intro t name here
  split
  · exact here
  · exact promote_partitioned here name

theorem ensurePropertyDomain_partitioned {s : ClassNames} (property : OwlProperty)
    (partitioned : Partitioned owl options s) :
    Partitioned owl options (ensurePropertyDomain owl s property) := by
  unfold ensurePropertyDomain
  split
  · exact partitioned
  · dsimp only
    split
    · exact partitioned
    · rename_i wanted
      rw [Bool.or_eq_true, not_or] at wanted
      exact addObject_partitioned partitioned wanted.2

theorem declaredClasses_partitioned (owl : OwlModel) (options : ImportOptions) :
    Partitioned owl options (declaredClasses owl options) := by
  have objects : ∀ name, (declaredClasses owl options).objects.contains name = true ↔
      name ∈ owl.classNames ∧ ¬ (declaredClasses owl options).actions.contains name = true ∧
        isEnumerationClass owl name = false := by
    intro name
    rw [declaredClasses, SortedSet.contains_addAll, List.mem_filter]
    simp [SortedSet.contains_empty]
  constructor
  · intro name listed
    exact ((objects name).mp listed).2.1
  · exact (SortedSet.contains_add _ _ _).mpr (Or.inl rfl)
  · intro name below
    exact (SortedSet.contains_add _ _ _).mpr (Or.inr ((SortedSet.contains_addAll _ _ _).mpr
      (Or.inl below)))
  · intro name declared plain
    rw [mem_all_iff]
    by_cases action : (declaredClasses owl options).actions.contains name = true
    · exact Or.inr action
    · exact Or.inl ((objects name).mpr ⟨declared, action, plain⟩)

theorem selectClasses_partitioned (owl : OwlModel) (options : ImportOptions) :
    Partitioned owl options (selectClasses owl options) := by
  have declared := declaredClasses_partitioned owl options
  have padded : Partitioned owl options (if options.authoritativeMimworld then
      declaredClasses owl options else padClassCoverage owl options
        (((declaredClasses owl options).fillObjects options.minObjects owl.classNames).promoteEvents
          options.minActions owl.classNames)) := by
    split
    · exact declared
    · exact promoteAny_partitioned _ _ (fillObjects_partitioned _ _ (fillObjects_partitioned _ _
        (promoteEvents_partitioned _ _ (fillObjects_partitioned _ _ declared))))
  exact foldl_kept (fun s property here => ensurePropertyDomain_partitioned property here) _ padded

theorem partitioned_nodup {s : ClassNames} (partitioned : Partitioned owl options s) :
    s.all.Nodup := by
  refine List.nodup_append.mpr ⟨SortedMap.nodup_keys _, SortedMap.nodup_keys _, ?_⟩
  intro object listed action listed' same
  exact partitioned.apart object ((SortedSet.mem_toList _ _).mp listed)
    ((SortedSet.mem_toList _ _).mp (same ▸ listed'))

end Selected

section Resolved

theorem rounds_classes (owl : OwlModel) (n : Nat) :
    (OwlModel.resolveStep^[n] owl).classes = owl.classes ∧
      (OwlModel.resolveStep^[n] owl).enumerations = owl.enumerations := by
  induction n generalizing owl with
  | zero => exact ⟨rfl, rfl⟩
  | succ n ih =>
    rw [Function.iterate_succ_apply]
    exact ih owl.resolveStep

theorem resolvePropertyDomains_classes (owl : OwlModel) :
    owl.resolvePropertyDomains.classes = owl.classes ∧
      owl.resolvePropertyDomains.enumerations = owl.enumerations := by
  obtain ⟨k, settled, _⟩ := Saturation.settle_first _ _ owl.resolvePropertyDomains_settles
  rw [settled]
  exact rounds_classes owl (k + 1)

theorem descendantsOf_congr {a b : OwlModel} (same : a.classes = b.classes) (root : String) :
    a.descendantsOf root = b.descendantsOf root := by
  have children : a.children = b.children := by
    funext current
    rw [OwlModel.children, OwlModel.children, same]
  rw [OwlModel.descendantsOf, OwlModel.descendantsOf, children, same]

end Resolved

section Nodes

variable [UnicodeCase] [UuidV5] {owl : OwlModel} {options : ImportOptions}

def MadeOf (owl : OwlModel) (isObject : Bool) : List String → List TaxonomyNode → Prop :=
  List.Forall₂ fun name node => classToTaxonomyNode owl name isObject = .ok node

theorem importClass_made {isObject : Bool} (names : List String) {s after : ImportedClasses}
    (ran : names.foldlM (importClass owl options isObject) s = .ok after) :
    ∃ nodes, after.taxonomy = s.taxonomy ++ nodes ∧ MadeOf owl isObject names nodes := by
  induction names generalizing s with
  | nil =>
    obtain rfl := Except.ok.inj ran
    exact ⟨[], (List.append_nil _).symm, .nil⟩
  | cons name names ih =>
    rw [List.foldlM_cons] at ran
    obtain ⟨next, first, rest⟩ := bind_ok.mp ran
    unfold importClass at first
    obtain ⟨node, made, built⟩ := bind_ok.mp first
    obtain ⟨element, _, added⟩ := bind_ok.mp built
    obtain rfl := pure_ok.mp added
    obtain ⟨nodes, taxonomy, others⟩ := ih rest
    refine ⟨node :: nodes, ?_, .cons made others⟩
    rw [taxonomy, List.append_assoc]
    rfl

theorem importClasses_made {names : ClassNames} {classes : ImportedClasses}
    (ran : importClasses owl options names = .ok classes) :
    ∃ objectNodes actionNodes, classes.taxonomy = objectNodes ++ actionNodes ∧
      MadeOf owl true names.objects.toList objectNodes ∧
      MadeOf owl false names.actions.toList actionNodes := by
  unfold importClasses at ran
  obtain ⟨objects, first, rest⟩ := bind_ok.mp ran
  obtain ⟨objectNodes, before, objectsMade⟩ := importClass_made _ first
  obtain ⟨actionNodes, after, actionsMade⟩ := importClass_made _ rest
  refine ⟨objectNodes, actionNodes, ?_, objectsMade, actionsMade⟩
  rw [after, before]
  rfl

theorem madeOf_congr {a b : OwlModel} (same : a.classes = b.classes) {isObject : Bool}
    {names : List String} {nodes : List TaxonomyNode} (made : MadeOf a isObject names nodes) :
    MadeOf b isObject names nodes := by
  refine made.imp ?_
  intro name node here
  have parent : importedParent a name = importedParent b name := by
    unfold importedParent
    rw [same]
  rw [← here, classToTaxonomyNode, classToTaxonomyNode, same, parent]

theorem madeOf_kind {isObject : Bool} {names : List String} {nodes : List TaxonomyNode}
    (made : MadeOf owl isObject names nodes) :
    ∀ node ∈ nodes, node.isObject = isObject ∧ node.isAction = !isObject := by
  induction made with
  | nil => simp
  | @cons name node names nodes first _ ih =>
    refine List.forall_mem_cons.mpr ⟨?_, ih⟩
    have objectKind : (inferObjectKind name).isSome = true := by
      unfold inferObjectKind
      dsimp only
      split_ifs <;> rfl
    have actionKind : (inferActionKind name).isSome = true := by
      unfold inferActionKind
      dsimp only
      split_ifs <;> rfl
    have made := classToTaxonomyNode_ok first
    rw [TaxonomyNode.isObject, TaxonomyNode.isAction, made.objectKind, made.actionKind]
    generalize inferObjectKind name = asObject at objectKind ⊢
    generalize inferActionKind name = asAction at actionKind ⊢
    cases isObject with
    | true => exact ⟨objectKind, rfl⟩
    | false => exact ⟨rfl, actionKind⟩

/-- The taxonomy is made of the classes that are imported as objects, of those imported as actions
and of synthetic types, no class occurs in it twice, and none but enumerations are left out. -/
def ClassesPartitioned (owl : OwlModel) (options : ImportOptions) (m : MimManifest) : Prop :=
  ∃ (objects actions : List String) (objectNodes actionNodes synthetic : List TaxonomyNode),
    m.taxonomy = objectNodes ++ actionNodes ++ synthetic ∧
    MadeOf owl true objects objectNodes ∧ MadeOf owl false actions actionNodes ∧
    (∀ node ∈ objectNodes, node.isObject = true ∧ node.isAction = false) ∧
    (∀ node ∈ actionNodes, node.isObject = false ∧ node.isAction = true) ∧
    (∀ node ∈ synthetic, ∃ i, node = syntheticObject i ∨ node = syntheticAction i) ∧
    (objects ++ actions).Nodup ∧
    options.actionRoot ∈ actions ∧
    (∀ name ∈ owl.descendantsOf options.actionRoot, name ∈ actions) ∧
    ∀ name ∈ owl.classNames, isEnumerationClass owl name = false →
      name ∈ objects ∨ name ∈ actions

theorem import_partitions_classes (owl : OwlModel) (options : ImportOptions) (m : MimManifest)
    (report : ImportReport) (unseeded : options.mergeSeed = none)
    (returned : OwlImporter.importManifest owl options = some (.ok (m, report))) :
    ClassesPartitioned owl options m := by
  obtain ⟨classes, batch, codeLists, imported, _, added, _⟩ := importManifest_parts returned
  obtain ⟨sameClasses, sameEnumerations⟩ := resolvePropertyDomains_classes owl
  have partitioned := selectClasses_partitioned owl.resolvePropertyDomains options
  obtain ⟨objectNodes, actionNodes, taxonomy, objectsMade, actionsMade⟩ :=
    importClasses_made imported
  rw [mergeSeedOption, unseeded] at added
  unfold appendSyntheticCoverage at added
  obtain ⟨⟨last, withObjects⟩, first, rest⟩ := Option.bind_eq_some_iff.mp added
  obtain ⟨⟨final, withActions⟩, second, same⟩ := Option.bind_eq_some_iff.mp rest
  obtain rfl := Option.some.inj same
  obtain ⟨objectNumbers, _, objectsAdded, _⟩ := appendSynthetic_after first
  obtain ⟨actionNumbers, _, actionsAdded, _⟩ := appendSynthetic_after second
  have listed : ∀ name, (selectClasses owl.resolvePropertyDomains options).actions.contains name =
      true → name ∈ (selectClasses owl.resolvePropertyDomains options).actions.toList :=
    fun name => (SortedSet.mem_toList _ _).mpr
  refine ⟨_, _, objectNodes, actionNodes,
    objectNumbers.map syntheticObject ++ actionNumbers.map syntheticAction, ?_,
    madeOf_congr sameClasses objectsMade, madeOf_congr sameClasses actionsMade,
    madeOf_kind objectsMade, madeOf_kind actionsMade, ?_, partitioned_nodup partitioned,
    listed _ partitioned.root, ?_, ?_⟩
  · have imported : (importedManifest options classes batch codeLists).taxonomy =
        objectNodes ++ actionNodes := taxonomy
    rw [actionsAdded, objectsAdded, imported, List.append_assoc]
  · intro node added
    rcases List.mem_append.mp added with object | action
    · obtain ⟨i, _, rfl⟩ := List.mem_map.mp object
      exact ⟨i, Or.inl rfl⟩
    · obtain ⟨i, _, rfl⟩ := List.mem_map.mp action
      exact ⟨i, Or.inr rfl⟩
  · intro name below
    rw [← descendantsOf_congr sameClasses] at below
    exact listed name (partitioned.descendants name below)
  · intro name declared plain
    have known : name ∈ owl.resolvePropertyDomains.classNames := by
      rw [OwlModel.classNames, sameClasses]
      exact declared
    have same : isEnumerationClass owl.resolvePropertyDomains name = isEnumerationClass owl name := by
      rw [isEnumerationClass, isEnumerationClass, sameClasses, sameEnumerations]
    exact List.mem_append.mp (partitioned.covered name known (same.trans plain))

end Nodes

def landForces : OwlModel where
  classes := .ofList [("ACTION", { name := "ACTION" }),
    ("MOVE", { name := "MOVE", parents := ["ACTION"] }), ("VEHICLE", { name := "VEHICLE" }),
    ("TANK", { name := "TANK", parents := ["VEHICLE"] })]

def padded : ImportOptions := { unpadded with minObjects := 3, minActions := 3 }

theorem landForces_partitioned : letI := asciiCase
    letI := lastCharacters
    ∃ m report, OwlImporter.importManifest landForces padded = some (.ok (m, report)) ∧
      (∀ name ∈ ["Tank", "Vehicle", "Action", "Move", "ImportedObject0001", "ImportedAction0002"],
        name ∈ m.taxonomyLinks.map Prod.fst) ∧
      ClassesPartitioned landForces padded m := by
  let : UnicodeCase := asciiCase
  let : UuidV5 := lastCharacters
  have declared : ∀ c ∈ importedClasses landForces.resolvePropertyDomains padded,
      landForces.resolvePropertyDomains.classes.containsKey c = true := by decide +kernel
  have names : typeNames landForces.resolvePropertyDomains padded =
      ["Tank", "Vehicle", "Action", "Move", "ImportedObject0001", "ImportedAction0002"] := by
    decide +kernel
  have usable : UsableVersion padded.version := unpadded_usable
  obtain ⟨m, report, returned⟩ := importManifest_returns usable declared
  refine ⟨m, report, returned, fun name listed => ?_,
    import_partitions_classes _ padded m report rfl returned⟩
  rw [composed_taxonomyNames (importManifest_composed returned), names]
  exact listed

end MimImport
