import MimStack.Import.OwlXml

/-!
Which class the children of a class element are recorded for. The reader looks back to
the nearest tag of a class or a property, whatever elements have begun and ended since,
so a nested class takes the children after it away from the class around it.
-/
namespace MimImport
open RustText SortedStore PullMarkup OwlXml

inductive Statement where
  | parent (name : String)
  | label (text : String)
  deriving DecidableEq

def told : Pulled → Option Statement
  | .start name attributes =>
    if localName name = "subClassOf" then (resourceRef attributes).map .parent else none
  | .empty name attributes =>
    if localName name = "subClassOf" then (resourceRef attributes).map .parent else none
  | .text raw => if isEmpty raw then none else some (.label raw)
  | _ => none

def statement (owner : Option String) (e : Pulled) : Option (String × Statement) :=
  owner.bind fun c => (told e).map (c, ·)

theorem statement_silent {e : Pulled} (silent : told e = none) (owner : Option String) :
    statement owner e = none := by
  rw [statement, silent]
  cases owner with
  | none => rfl
  | some c => rfl

def labelFor (c : String) (s : String × Statement) : Option String :=
  match s.2 with
  | .label text => if s.1 = c then some text else none
  | .parent _ => none

def lastLabel (c : String) (statements : List (String × Statement)) : Option String :=
  (statements.filterMap (labelFor c)).getLast?

section Own

structure Surroundings where
  owner : Option String := none
  labelled : Option String := none

def classElement (name : String) (attributes : List (String × String)) : Option String :=
  if localName name = "Class" then classRef attributes else none

def Surroundings.inside (s : Surroundings) (name : String) (attributes : List (String × String)) :
    Surroundings where
  owner := classElement name attributes
  labelled := if localName name = "label" then s.owner else none

def Surroundings.speaker (s : Surroundings) : Pulled → Option String
  | .text _ => s.labelled
  | _ => s.owner

def ownStatements (document : List Node) : List (String × Statement) :=
  (placedOf Surroundings.inside {} document).filterMap fun e => statement (e.2.speaker e.1) e.1

/-- The classes that have an element. -/
def classElements (events : List Pulled) : List String :=
  events.filterMap fun e =>
    match e with
    | .start name attributes => classElement name attributes
    | .empty name attributes => classElement name attributes
    | _ => none

end Own

section Nearest

def within (tag : String) : List Pulled → Bool
  | .start name _ :: before => localName name == tag || within tag before
  | .finish name :: before => localName name != tag && within tag before
  | _ :: before => within tag before
  | [] => false

def openedClass (name : String) (attributes : List (String × String)) (enumerated : Bool)
    (nearest : Option String) : Option String :=
  if localName name = "Class" ∨ localName name = "Thing" then
    if enumerated then nearest else (classRef attributes).or nearest
  else if localName name = "ObjectProperty" ∨ localName name = "DatatypeProperty" then
    if (classRef attributes).isSome then none else nearest
  else nearest

/-- The class of the nearest tag, looking back: opening tags of named classes and properties
count, and closing tags of classes. -/
def nearestClass : List Pulled → Option String
  | .start name attributes :: before =>
    openedClass name attributes (within "oneOf" before) (nearestClass before)
  | .empty name attributes :: before =>
    openedClass name attributes (within "oneOf" before) (nearestClass before)
  | .finish name :: before => if localName name = "Class" then none else nearestClass before
  | _ :: before => nearestClass before
  | [] => none

def nearestSpeaker (before : List Pulled) : Pulled → Option String
  | .text _ => if within "label" before then nearestClass before else none
  | _ => nearestClass before

def nearStatements (before : List Pulled) : List Pulled → List (String × Statement)
  | [] => []
  | e :: rest => (statement (nearestSpeaker before e) e).toList ++ nearStatements (e :: before) rest

end Nearest

section Places

/-- Where the reader takes itself to be: the current class, and whether it is in an enumeration
and in a label. -/
def place (s : ParserState) : Option String × Bool × Bool := (s.currentClass, s.inOneOf, s.inLabel)

def placeAfter (before : List Pulled) : Option String × Bool × Bool :=
  (nearestClass before, within "oneOf" before, within "label" before)

end Places

section Records

def OwlModel.labelOf (owl : OwlModel) (c : String) : Option String :=
  (owl.classes.get c).bind (·.label)

def Recorded (before after : OwlModel) (noted : Option (String × Statement)) : Prop :=
  ∀ c, (∀ parent, parent ∈ after.parentsOf c ↔
      parent ∈ before.parentsOf c ∨ noted = some (c, .parent parent)) ∧
    after.labelOf c = (noted.bind (labelFor c)).or (before.labelOf c)

variable {m n : OwlModel}

theorem recorded_unchanged (parents : ∀ c, n.parentsOf c = m.parentsOf c)
    (labels : ∀ c, n.labelOf c = m.labelOf c) : Recorded m n none := by
  intro c
  constructor
  · intro parent
    rw [parents]
    simp
  · rw [labels]
    rfl

theorem recorded_same (same : n.classes = m.classes) : Recorded m n none := by
  apply recorded_unchanged
  · intro c
    rw [OwlModel.parentsOf, OwlModel.parentsOf, same]
  · intro c
    rw [OwlModel.labelOf, OwlModel.labelOf, same]

theorem recorded_declareClass (m : OwlModel) (name : String) :
    Recorded m (m.declareClass name) none := by
  apply recorded_unchanged
  · intro c
    rw [OwlModel.parentsOf, OwlModel.parentsOf, OwlModel.declareClass, SortedMap.get_update]
    split
    · rename_i same
      subst same
      cases m.classes.get c with
      | none => rfl
      | some entry => rfl
    · rfl
  · intro c
    rw [OwlModel.labelOf, OwlModel.labelOf, OwlModel.declareClass, SortedMap.get_update]
    split
    · rename_i same
      subst same
      cases m.classes.get c with
      | none => rfl
      | some entry => rfl
    · rfl

theorem mem_withParent (parents : List String) (parent other : String) :
    other ∈ OwlModel.withParent parents parent ↔ other ∈ parents ∨ parent = other := by
  unfold OwlModel.withParent
  split
  · rename_i listed
    constructor
    · exact Or.inl
    · intro either
      rcases either with there | rfl
      · exact there
      · exact List.contains_iff_mem.mp listed
  · rw [List.mem_append, List.mem_singleton, eq_comm]

theorem recorded_addParent (m : OwlModel) (child parent : String) :
    Recorded m (m.addParent child parent) (some (child, .parent parent)) := by
  intro c
  have other : ((c, Statement.parent parent) = (child, Statement.parent parent)) ↔ c = child := by
    simp
  rw [OwlModel.parentsOf, OwlModel.parentsOf, OwlModel.labelOf, OwlModel.labelOf,
    OwlModel.addParent, SortedMap.get_update]
  by_cases same : c = child
  · subst same
    constructor
    · intro name
      rw [if_pos rfl]
      cases m.classes.get c with
      | none => simp [mem_withParent]
      | some entry => simp [mem_withParent]
    · rw [if_pos rfl]
      cases m.classes.get c with
      | none => rfl
      | some entry => rfl
  · constructor
    · intro name
      rw [if_neg same]
      simp [Ne.symm same]
    · rw [if_neg same]
      rfl

theorem recorded_labelClass (m : OwlModel) (name text : String) :
    Recorded m (m.labelClass name text) (some (name, .label text)) := by
  intro c
  rw [OwlModel.parentsOf, OwlModel.parentsOf, OwlModel.labelOf, OwlModel.labelOf,
    OwlModel.labelClass, SortedMap.get_update]
  by_cases same : c = name
  · subst same
    constructor
    · intro parent
      rw [if_pos rfl]
      cases m.classes.get c with
      | none => simp
      | some entry => simp
    · have named : (some (c, Statement.label text)).bind (labelFor c) = some text := if_pos rfl
      rw [if_pos rfl, named]
      rfl
  · constructor
    · intro parent
      rw [if_neg same]
      simp
    · have other : (some (name, Statement.label text)).bind (labelFor c) = none :=
        if_neg (Ne.symm same)
      rw [if_neg same, other]
      rfl

theorem get_change {V : Type} (m : SortedMap String V) (k x : String) (f : V → V) :
    (change m k f).get x = if x = k then (m.get x).map f else m.get x := by
  unfold change
  split
  · rename_i v found
    rw [SortedMap.get_insert]
    split
    · rename_i same
      rw [same, found]
      rfl
    · rfl
  · rename_i absent
    split
    · rename_i same
      rw [same, absent]
      rfl
    · rfl

theorem recorded_enumeration {owner : String}
    (marked : n.classes = change m.classes owner fun entry => { entry with isEnumeration := true }) :
    Recorded m n none := by
  apply recorded_unchanged
  · intro c
    rw [OwlModel.parentsOf, OwlModel.parentsOf, marked, get_change]
    split
    · cases m.classes.get c with
      | none => rfl
      | some entry => rfl
    · rfl
  · intro c
    rw [OwlModel.labelOf, OwlModel.labelOf, marked, get_change]
    split
    · cases m.classes.get c with
      | none => rfl
      | some entry => rfl
    · rfl

end Records

section Steps

def takenSpeaker (s : ParserState) : Pulled → Option String
  | .text _ => if s.inLabel then s.currentClass else none
  | _ => s.currentClass

/-- The second reader has come to a place from the first, with one more statement or none. -/
structure Acts (p q : Parser) (reached : Option String × Bool × Bool)
    (noted : Option (String × Statement)) : Prop where
  place : place q.state = reached
  recorded : Recorded p.model q.model noted

variable (p : Parser) (attributes : List (String × String))

theorem acts_quiet {p q : Parser} {reached : Option String × Bool × Bool}
    (here : place q.state = reached) (same : q.model.classes = p.model.classes) :
    Acts p q reached none :=
  ⟨here, recorded_same same⟩

theorem openClass_acts (property : Option String) : Acts p (p.openClass property attributes)
    (if p.state.inOneOf then p.state.currentClass else (classRef attributes).or p.state.currentClass,
      p.state.inOneOf, p.state.inLabel) none := by
  unfold Parser.openClass
  cases classRef attributes with
  | none =>
    refine acts_quiet ?_ rfl
    rw [Option.none_or, ite_self]
    rfl
  | some name =>
    dsimp only
    split
    · exact acts_quiet rfl rfl
    · exact ⟨rfl, recorded_declareClass _ _⟩

theorem openProperty_acts (kind : OwlPropertyKind) : Acts p (p.openProperty kind attributes)
    (if (classRef attributes).isSome then none else p.state.currentClass, p.state.inOneOf,
      p.state.inLabel) none := by
  unfold Parser.openProperty
  cases classRef attributes with
  | none => exact acts_quiet rfl rfl
  | some name => exact acts_quiet rfl rfl

theorem subPropertyOf_acts : Acts p (p.subPropertyOf attributes) (place p.state) none := by
  unfold Parser.subPropertyOf
  split
  · exact acts_quiet rfl rfl
  · exact acts_quiet rfl rfl

theorem inverseOf_acts : Acts p (p.inverseOf attributes) (place p.state) none := by
  unfold Parser.inverseOf
  split
  · exact acts_quiet rfl rfl
  · exact acts_quiet rfl rfl

theorem domain_acts : Acts p (p.domain attributes) (place p.state) none := by
  unfold Parser.domain
  split
  · exact acts_quiet rfl rfl
  · split
    · exact acts_quiet rfl rfl
    · exact acts_quiet rfl rfl

theorem range_acts : Acts p (p.range attributes) (place p.state) none := by
  unfold Parser.range
  split
  · exact acts_quiet rfl rfl
  · split
    · exact acts_quiet rfl rfl
    · exact acts_quiet rfl rfl

theorem subClassOf_acts : Acts p (p.subClassOf attributes) (place p.state)
    (p.state.currentClass.bind fun c => ((resourceRef attributes).map Statement.parent).map (c, ·)) := by
  unfold Parser.subClassOf
  split
  · rename_i child parent current resource
    rw [current, resource]
    exact ⟨rfl, recorded_addParent _ _ _⟩
  · rename_i incomplete
    cases current : p.state.currentClass with
    | none => exact acts_quiet rfl rfl
    | some child =>
      cases resource : resourceRef attributes with
      | none => exact acts_quiet rfl rfl
      | some parent => exact absurd resource (incomplete child parent current)

theorem handleStart_acts (name : String) : Acts p (p.handleStart name attributes)
    (openedClass name attributes p.state.inOneOf p.state.currentClass,
      localName name == "oneOf" || p.state.inOneOf, localName name == "label" || p.state.inLabel)
    (statement p.state.currentClass (.start name attributes)) := by
  have silent : localName name ≠ "subClassOf" →
      statement p.state.currentClass (.start name attributes) = none := by
    intro other
    apply statement_silent
    rw [told, if_neg other]
  unfold Parser.handleStart openedClass
  split
  · rename_i named
    rw [silent (by rw [named]; decide), named]
    simpa using openClass_acts p attributes none
  · rename_i named
    rw [silent (by rw [named]; decide), named]
    simpa using openClass_acts p attributes none
  · rename_i named
    rw [silent (by rw [named]; decide), named]
    simpa using openProperty_acts p attributes .object
  · rename_i named
    rw [silent (by rw [named]; decide), named]
    simpa using openProperty_acts p attributes .data
  · rename_i named
    rw [silent (by rw [named]; decide), named]
    exact subPropertyOf_acts p attributes
  · rename_i named
    rw [silent (by rw [named]; decide), named]
    exact inverseOf_acts p attributes
  · rename_i named
    rw [silent (by rw [named]; decide), named]
    exact domain_acts p attributes
  · rename_i named
    rw [silent (by rw [named]; decide), named]
    exact range_acts p attributes
  · rename_i named
    rw [statement, told, if_pos named, named]
    exact subClassOf_acts p attributes
  · rename_i named
    rw [silent (by rw [named]; decide), named]
    exact acts_quiet rfl rfl
  · rename_i named
    rw [silent (by rw [named]; decide), named]
    exact acts_quiet rfl rfl
  · rename_i noClass noThing noObject noData _ _ _ _ noSubClass noOneOf noLabel
    rw [silent noSubClass, if_neg (not_or.mpr ⟨noClass, noThing⟩),
      if_neg (not_or.mpr ⟨noObject, noData⟩), beq_eq_false_iff_ne.mpr noOneOf,
      beq_eq_false_iff_ne.mpr noLabel]
    exact acts_quiet rfl rfl

theorem handleEmpty_acts (name : String) : Acts p (p.handleEmpty name attributes)
    (openedClass name attributes p.state.inOneOf p.state.currentClass, p.state.inOneOf,
      p.state.inLabel)
    (statement p.state.currentClass (.empty name attributes)) := by
  have silent : localName name ≠ "subClassOf" →
      statement p.state.currentClass (.empty name attributes) = none := by
    intro other
    apply statement_silent
    rw [told, if_neg other]
  unfold Parser.handleEmpty openedClass
  split
  · rename_i named
    rw [silent (by rw [named]; decide), named]
    simpa using openClass_acts p attributes p.state.currentProperty
  · rename_i named
    rw [silent (by rw [named]; decide), named]
    simpa using openClass_acts p attributes p.state.currentProperty
  · rename_i named
    rw [silent (by rw [named]; decide), named]
    simpa using openProperty_acts p attributes .object
  · rename_i named
    rw [silent (by rw [named]; decide), named]
    simpa using openProperty_acts p attributes .data
  · rename_i named
    rw [statement, told, if_pos named, named]
    exact subClassOf_acts p attributes
  · rename_i named
    rw [silent (by rw [named]; decide), named]
    exact subPropertyOf_acts p attributes
  · rename_i named
    rw [silent (by rw [named]; decide), named]
    exact domain_acts p attributes
  · rename_i named
    rw [silent (by rw [named]; decide), named]
    exact range_acts p attributes
  · rename_i named
    rw [silent (by rw [named]; decide), named]
    exact inverseOf_acts p attributes
  · rename_i noClass noThing noObject noData noSubClass _ _ _ _
    rw [silent noSubClass, if_neg (not_or.mpr ⟨noClass, noThing⟩),
      if_neg (not_or.mpr ⟨noObject, noData⟩)]
    exact acts_quiet rfl rfl

theorem closeOneOf_acts :
    Acts p p.closeOneOf (p.state.currentClass, false, p.state.inLabel) none := by
  unfold Parser.closeOneOf
  split
  · exact acts_quiet rfl rfl
  · split
    · exact acts_quiet rfl rfl
    · exact ⟨rfl, recorded_enumeration rfl⟩

theorem closeProperty_acts : Acts p p.closeProperty (place p.state) none := by
  unfold Parser.closeProperty
  split
  · exact acts_quiet rfl rfl
  · split
    · exact acts_quiet rfl rfl
    · exact acts_quiet rfl rfl

theorem handleEnd_acts (name : String) : Acts p (p.handleEnd name)
    (if localName name = "Class" then none else p.state.currentClass,
      localName name != "oneOf" && p.state.inOneOf, localName name != "label" && p.state.inLabel)
    none := by
  unfold Parser.handleEnd
  split
  · rename_i named
    rw [named]
    split
    · exact closeOneOf_acts p
    · rename_i outside
      rw [Bool.not_eq_true] at outside
      refine acts_quiet ?_ rfl
      rw [place, outside]
      rfl
  · rename_i named
    rw [named]
    exact acts_quiet rfl rfl
  · rename_i named
    rw [named]
    exact acts_quiet rfl rfl
  · rename_i named
    rw [named]
    exact closeProperty_acts p
  · rename_i named
    rw [named]
    exact closeProperty_acts p
  · rename_i noOneOf noLabel noClass _ _
    rw [if_neg noClass, bne_iff_ne.mpr noOneOf, bne_iff_ne.mpr noLabel]
    exact acts_quiet rfl rfl

theorem handleText_acts (text : String) : Acts p (p.handleText text) (place p.state)
    (statement (takenSpeaker p.state (.text text)) (.text text)) := by
  unfold Parser.handleText
  rw [takenSpeaker, statement, told]
  cases p.state.inLabel with
  | false => exact acts_quiet rfl rfl
  | true =>
    cases isEmpty text with
    | true =>
      cases p.state.currentClass with
      | none => exact acts_quiet rfl rfl
      | some name => exact acts_quiet rfl rfl
    | false =>
      cases p.state.currentClass with
      | some name => exact ⟨rfl, recorded_labelClass _ _ _⟩
      | none =>
        cases p.state.currentProperty with
        | none => exact acts_quiet rfl rfl
        | some name => exact acts_quiet rfl rfl

theorem step_acts {before : List Pulled} (here : place p.state = placeAfter before) (e : Pulled) :
    Acts p (p.step e) (placeAfter (e :: before)) (statement (takenSpeaker p.state e) e) := by
  obtain ⟨current, rest⟩ := Prod.mk.inj here
  obtain ⟨enumerated, labelled⟩ := Prod.mk.inj rest
  cases e with
  | start name attributes =>
    have acts := handleStart_acts p attributes name
    refine ⟨acts.place.trans ?_, acts.recorded⟩
    rw [current, enumerated, labelled]
    rfl
  | empty name attributes =>
    have acts := handleEmpty_acts p attributes name
    refine ⟨acts.place.trans ?_, acts.recorded⟩
    rw [current, enumerated, labelled]
    rfl
  | text raw =>
    have acts := handleText_acts p raw
    exact ⟨acts.place.trans here, acts.recorded⟩
  | finish name =>
    have acts := handleEnd_acts p name
    rw [statement_silent rfl]
    refine ⟨acts.place.trans ?_, acts.recorded⟩
    rw [current, enumerated, labelled]
    rfl
  | other =>
    rw [statement_silent rfl]
    exact acts_quiet here rfl

end Steps

section Runs

theorem takenSpeaker_nearest {s : ParserState} {before : List Pulled}
    (here : place s = placeAfter before) (e : Pulled) :
    takenSpeaker s e = nearestSpeaker before e := by
  obtain ⟨current, rest⟩ := Prod.mk.inj here
  obtain ⟨_, labelled⟩ := Prod.mk.inj rest
  cases e with
  | text raw => rw [takenSpeaker, nearestSpeaker, current, labelled]
  | start name attributes => exact current
  | empty name attributes => exact current
  | finish name => exact current
  | other => exact current

theorem run_recorded (events : List Pulled) {p : Parser} {before : List Pulled}
    (here : place p.state = placeAfter before) (c : String) :
    (∀ parent, parent ∈ (p.run events).model.parentsOf c ↔ parent ∈ p.model.parentsOf c ∨
      (c, .parent parent) ∈ nearStatements before events) ∧
    (p.run events).model.labelOf c =
      (lastLabel c (nearStatements before events)).or (p.model.labelOf c) := by
  induction events generalizing p before with
  | nil =>
    constructor
    · intro parent
      simp [Parser.run, nearStatements]
    · rfl
  | cons e events ih =>
    have acts := step_acts p here e
    obtain ⟨parents, label⟩ := ih acts.place
    obtain ⟨first, text⟩ := acts.recorded c
    rw [takenSpeaker_nearest here e] at first text
    have run : p.run (e :: events) = (p.step e).run events := rfl
    rw [run, nearStatements]
    constructor
    · intro parent
      rw [parents, first, List.mem_append, Option.mem_toList, or_assoc]
    · rw [label, text, ← Option.or_assoc, lastLabel, lastLabel, List.filterMap_append,
        List.getLast?_append]
      congr 2
      cases statement (nearestSpeaker before e) e with
      | none => rfl
      | some s =>
        cases found : labelFor c s with
        | none => simp [found]
        | some text => simp [found]

/-- The parents and the label of a class are those that its own elements give it. -/
def ChildrenRecorded (document : List Node) (model : OwlModel) (c : String) : Prop :=
  (∀ parent, parent ∈ model.parentsOf c ↔ (c, .parent parent) ∈ ownStatements document) ∧
    model.labelOf c = lastLabel c (ownStatements document)

/-- Every own child of the elements of a class is said again where a tag of that class is the
nearest, if it does not stand there itself; nothing else is said there; and the last label there
is the last of its own. -/
def ToldNearby (document : List Node) (c : String) : Prop :=
  (∀ parent, (c, .parent parent) ∈ ownStatements document ↔
      (c, .parent parent) ∈ nearStatements [] (eventsOf document)) ∧
    lastLabel c (ownStatements document) = lastLabel c (nearStatements [] (eventsOf document))

theorem recorded_iff_near (document : List Node) (c : String) :
    ChildrenRecorded document (Parser.run {} (eventsOf document)).model c ↔
      ToldNearby document c := by
  have start : place ({} : Parser).state = placeAfter [] := rfl
  obtain ⟨parents, label⟩ := run_recorded (eventsOf document) start c
  have unread : ∀ parent, parent ∉ ({} : OwlModel).parentsOf c := fun parent => List.not_mem_nil
  have unlabelled : ({} : OwlModel).labelOf c = none := rfl
  unfold ChildrenRecorded ToldNearby
  simp only [parents, label, unread, unlabelled, false_or, Option.or_none]
  constructor
  · intro recorded
    exact ⟨fun parent => (recorded.1 parent).symm, recorded.2.symm⟩
  · intro place
    exact ⟨fun parent => (place.1 parent).symm, place.2.symm⟩

/-- Every child that says something of a class stands where a tag of that class is the nearest,
and nothing else stands where one is. -/
def InPlace (document : List Node) : Prop :=
  ∀ before e s after, placedOf Surroundings.inside {} document = before ++ (e, s) :: after →
    told e ≠ none → s.speaker e = nearestSpeaker (before.map Prod.fst).reverse e

theorem inPlace_statements (rest : List (Pulled × Surroundings)) (start : List Pulled)
    (places : ∀ before e s after, rest = before ++ (e, s) :: after → told e ≠ none →
      s.speaker e = nearestSpeaker ((before.map Prod.fst).reverse ++ start) e) :
    (rest.filterMap fun e => statement (e.2.speaker e.1) e.1) =
      nearStatements start (rest.map Prod.fst) := by
  induction rest generalizing start with
  | nil => rfl
  | cons first rest ih =>
    have later := ih (first.1 :: start) (by
      intro before e s after shape speaks
      have here := places (first :: before) e s after (by rw [shape]; rfl) speaks
      rw [List.map_cons, List.reverse_cons, List.append_assoc] at here
      exact here)
    have same : statement (first.2.speaker first.1) first.1 =
        statement (nearestSpeaker start first.1) first.1 := by
      by_cases silent : told first.1 = none
      · rw [statement_silent silent, statement_silent silent]
      · have here := places [] first.1 first.2 rest rfl silent
        rw [here]
        rfl
    rw [List.map_cons, nearStatements, ← later, ← same, List.filterMap_cons]
    cases statement (first.2.speaker first.1) first.1 with
    | none => rfl
    | some s => rfl

theorem inPlace_read {document : List Node} (places : InPlace document) (c : String) :
    ToldNearby document c := by
  have same : ownStatements document = nearStatements [] (eventsOf document) := by
    rw [← placedOf_events Surroundings.inside {} document]
    apply inPlace_statements
    intro before e s after shape speaks
    rw [List.append_nil]
    exact places before e s after shape speaks
  unfold ToldNearby
  rw [same]
  exact ⟨fun parent => Iff.rfl, rfl⟩

/-- The parser records the children of every class as they stand if all of them are in place, and
in general if they are told nearby. -/
theorem class_children_recorded_iff (document : List Node) :
    ∃ model, parse (eventsOf document, none) = .ok model ∧
      (InPlace document →
        ∀ c ∈ classElements (eventsOf document), ChildrenRecorded document model c) ∧
      ((∀ c ∈ classElements (eventsOf document), ChildrenRecorded document model c) ↔
        ∀ c ∈ classElements (eventsOf document), ToldNearby document c) := by
  have whole : (∀ c ∈ classElements (eventsOf document),
      ChildrenRecorded document (Parser.run {} (eventsOf document)).model c) ↔
        ∀ c ∈ classElements (eventsOf document), ToldNearby document c :=
    forall₂_congr fun c _ => recorded_iff_near document c
  exact ⟨_, rfl, fun places => whole.mpr fun c _ => inPlace_read places c, whole⟩

end Runs

section Fixture

def nestedVehicle : List Node :=
  [.element "rdf:RDF" [("xmlns:rdf", "http://www.w3.org/1999/02/22-rdf-syntax-ns#"),
      ("xmlns:owl", "http://www.w3.org/2002/07/owl#"),
      ("xmlns:rdfs", "http://www.w3.org/2000/01/rdf-schema#")]
    [.element "owl:Class" [("rdf:ID", "TANK")]
      [.element "rdfs:subClassOf" [] [.empty "owl:Class" [("rdf:about", "#VEHICLE")]],
        .empty "rdfs:subClassOf" [("rdf:resource", "#MATERIEL")]]]]

/-- The reference is recorded for the nested class. -/
theorem nestedVehicle_misread : ∃ model, parse (eventsOf nestedVehicle, none) = .ok model ∧
    "TANK" ∈ classElements (eventsOf nestedVehicle) ∧ model.parentsOf "TANK" = [] ∧
    model.parentsOf "VEHICLE" = ["MATERIEL"] ∧ ¬ ChildrenRecorded nestedVehicle model "TANK" := by
  have own : ownStatements nestedVehicle = [("TANK", .parent "MATERIEL")] := by decide +kernel
  refine ⟨(Parser.run {} (eventsOf nestedVehicle)).model, rfl, ?_, ?_, ?_, ?_⟩
  · decide +kernel
  · decide +kernel
  · decide +kernel
  · intro recorded
    have listed := (recorded.1 "MATERIEL").mpr (by rw [own]; exact List.mem_singleton_self _)
    have none : (Parser.run {} (eventsOf nestedVehicle)).model.parentsOf "TANK" = [] := by
      decide +kernel
    rw [none] at listed
    exact absurd listed List.not_mem_nil

end Fixture

end MimImport
