import MimStack.Spif.Parser

/-!
A policy file as blocks and what stands between them. Each block says one thing: a
classification, a category or a rule. The classification a rule names is opened like a
block of its own and not closed like one, so the name of a category that comes next is
lost.
-/
namespace MimSpif
open RustText PullMarkup

section Blocks

inductive BlockKind where
  | classification
  | category
  | validation
  deriving DecidableEq

def blockKind (name : String) : Option BlockKind :=
  match localName name with
  | "securityClassification" => some .classification
  | "classification" => some .classification
  | "securityCategory" => some .category
  | "category" => some .category
  | "validation" => some .validation
  | _ => none

def tagName : Pulled → Option String
  | .start name _ => some name
  | .finish name => some name
  | _ => none

/-- An element of a kind of block. Inside it is no block and no version of the file; a rule names
a classification. -/
structure Block where
  name : String
  attributes : List (String × String)
  content : List Pulled
  kind : BlockKind
  named : blockKind name = some kind
  flat : ∀ e ∈ content, ∀ tag, tagName e = some tag →
    (blockKind tag = none ∧ localName tag ≠ "versioninfo") ∨
      kind = .validation ∧ localName tag = "classification"

def Block.events (b : Block) : List Pulled :=
  .start b.name b.attributes :: (b.content ++ [.finish b.name])

def versionAfter (given : Bool) : Pulled → Bool
  | .start name _ => localName name == "versioninfo" || given
  | .finish name => localName name != "versioninfo" && given
  | _ => given

structure Filler where
  content : List Pulled
  plain : ∀ e ∈ content, ∀ tag, tagName e = some tag → blockKind tag = none
  closed : content.foldl versionAfter false = false

/-- What comes before the first block, and each block with what comes after it. -/
structure Document where
  lead : Filler
  parts : List (Block × Filler)

def events (document : Document) : List Pulled :=
  document.lead.content ++ document.parts.flatMap fun part => part.1.events ++ part.2.content

def blocks (document : Document) : List Block := document.parts.map Prod.fst

def fillers (document : Document) : List Filler := document.lead :: document.parts.map Prod.snd

def Reordered (document other : Document) : Prop :=
  fillers other = fillers document ∧ (blocks other).Perm (blocks document)

end Blocks

section Entries

def closings (text : String) : List Pulled → List (String × String)
  | [] => []
  | .start _ _ :: rest => closings "" rest
  | .text raw :: rest => closings (trim raw) rest
  | .finish name :: rest => (localName name, text) :: closings "" rest
  | _ :: rest => closings text rest

def fields (content : List Pulled) : List (String × String) := closings "" content

def classificationField (name : String) (field : String × String) : String :=
  if field.1 = "name" then field.2 else name

def categoryField (category : SpifCategory) (field : String × String) : SpifCategory :=
  if field.1 = "name" then { category with name := field.2 }
  else if field.1 = "type" ∨ field.1 = "tagtype" then
    { category with categoryType := parseCategoryType field.2 }
  else if field.1 = "genericValue" ∨ field.1 = "categoryName" ∨ field.1 = "value" then
    { category with allowedValues := pushText category.allowedValues field.2 }
  else category

def validationField (validation : SpifValidation) (field : String × String) : SpifValidation :=
  if field.1 = "classification" then { validation with classification := field.2 }
  else if field.1 = "categoryName" then { validation with categoryName := field.2 }
  else if field.1 = "requiredValue" ∨ field.1 = "genericValue" then
    { validation with requiredAnyOf := pushText validation.requiredAnyOf field.2 }
  else validation

def Block.classificationEntry (b : Block) : Option String :=
  let name := (fields b.content).foldl classificationField ""
  if b.kind = .classification ∧ ¬ isEmpty name then some name else none

def Block.categoryEntry (b : Block) : Option SpifCategory :=
  let category := (fields b.content).foldl categoryField ⟨"", categoryTypeOf b.attributes, []⟩
  if b.kind = .category ∧ ¬ isEmpty category.name then some category else none

def Block.validationEntry (b : Block) : Option SpifValidation :=
  let validation := (fields b.content).foldl validationField ⟨"", "", []⟩
  if b.kind = .validation ∧ ¬ isEmpty validation.classification ∧
    ¬ isEmpty validation.categoryName then some validation else none

def identifierOf (field : String × String) : Option String :=
  if field.1 = "identifier" ∧ ¬ isEmpty field.2 then some field.2 else none

def identifiers (content : List Pulled) : List String := (fields content).filterMap identifierOf

def urlOf : Pulled → Option String
  | .start name attributes =>
    if localName name = "identifier" ∨ localName name = "name" then
      (attributeValue "URL" attributes).or (attributeValue "url" attributes)
    else none
  | .empty _ attributes => (attributeValue "URL" attributes).or (attributeValue "url" attributes)
  | _ => none

def urls (content : List Pulled) : List String := content.filterMap urlOf

def Filler.version (f : Filler) : Option SpifVersionInfo := (SpifParser.run {} f.content).versionInfo

def opensClassification : Pulled → Bool
  | .start name _ => localName name == "classification"
  | _ => false

/-- A rule that names a classification by an element. -/
def Block.namesClassification (b : Block) : Bool :=
  b.kind = .validation && b.content.any opensClassification

end Entries

section Contents

def lists (p : SpifParser) : List String × List SpifCategory × List SpifValidation :=
  (p.allowedClassifications, p.categories, p.validations)

def Plain (e : Pulled) : Prop := ∀ tag, tagName e = some tag → blockKind tag = none

theorem blockKind_none {name : String} (plain : blockKind name = none) :
    localName name ≠ "securityClassification" ∧ localName name ≠ "classification" ∧
      localName name ≠ "securityCategory" ∧ localName name ≠ "category" ∧
        localName name ≠ "validation" := by
  unfold blockKind at plain
  split at plain
  · cases plain
  · cases plain
  · cases plain
  · cases plain
  · cases plain
  · rename_i one two three four five
    exact ⟨one, two, three, four, five⟩

def fieldStep {S : Type} (field : S → String × String → S) (s : S) (text : String) : Pulled → S
  | .finish name => field s (localName name, text)
  | _ => s

theorem takeUrl_same (p : SpifParser) (attributes : List (String × String)) :
    ∃ oid, p.takeUrl attributes = { p with policyOid := oid } := by
  unfold SpifParser.takeUrl
  split
  · exact ⟨_, rfl⟩
  · exact ⟨p.policyOid, rfl⟩

theorem begin_text (p : SpifParser) (name : String) (attributes : List (String × String)) :
    (p.begin name attributes).currentText = p.currentText := by
  unfold SpifParser.begin
  split
  · rfl
  · rfl
  · rfl
  · rfl
  · rfl
  · rfl
  · rfl

theorem startTag_same (p : SpifParser) (name : String) (attributes : List (String × String)) :
    ∃ oid, p.startTag name attributes =
      { SpifParser.begin { p with currentText := "" } (localName name) attributes with
        policyOid := oid } := by
  unfold SpifParser.startTag
  dsimp only
  split
  · exact takeUrl_same _ attributes
  · exact ⟨_, rfl⟩

def textAfter (text : String) : Pulled → String
  | .start _ _ => ""
  | .text raw => trim raw
  | .finish _ => ""
  | _ => text

theorem step_text (p : SpifParser) (e : Pulled) :
    (p.step e).currentText = textAfter p.currentText e := by
  cases e with
  | start name attributes =>
    obtain ⟨oid, same⟩ := startTag_same p name attributes
    rw [SpifParser.step, same]
    exact begin_text _ _ _
  | empty name attributes =>
    obtain ⟨oid, same⟩ := takeUrl_same p attributes
    rw [SpifParser.step, same]
    rfl
  | text raw => rfl
  | finish name =>
    rw [SpifParser.step, SpifParser.endTag, textAfter]
  | other => rfl

theorem closings_cons (text : String) (e : Pulled) (rest : List Pulled) {S : Type}
    (field : S → String × String → S) (s : S) :
    (closings text (e :: rest)).foldl field s =
      (closings (textAfter text e) rest).foldl field (fieldStep field s text e) := by
  cases e with
  | start name attributes => rw [closings, textAfter, fieldStep.eq_def]
  | empty name attributes => rfl
  | text raw => rw [closings, textAfter, fieldStep.eq_def]
  | finish name => rw [closings, List.foldl_cons, textAfter, fieldStep]
  | other => rfl

theorem run_cons (p : SpifParser) (e : Pulled) (rest : List Pulled) :
    p.run (e :: rest) = (p.step e).run rest := rfl

theorem run_closings {S : Type} (view : SpifParser → S) {field : S → String × String → S}
    (inside : SpifParser → Prop) (allowed : Pulled → Prop)
    (step : ∀ p e, inside p → allowed e →
      inside (p.step e) ∧ view (p.step e) = fieldStep field (view p) p.currentText e)
    (content : List Pulled) (all : ∀ e ∈ content, allowed e) {p : SpifParser} (here : inside p) :
    inside (p.run content) ∧
      view (p.run content) = (closings p.currentText content).foldl field (view p) := by
  induction content generalizing p with
  | nil => exact ⟨here, rfl⟩
  | cons e rest ih =>
    obtain ⟨next, change⟩ := step p e here (all e List.mem_cons_self)
    obtain ⟨last, total⟩ := ih (fun f mem => all f (List.mem_cons_of_mem e mem)) next
    refine ⟨last, ?_⟩
    rw [run_cons, total, change, step_text, closings_cons]

structure Kept (p q : SpifParser) : Prop where
  lists : lists q = lists p
  inClassification : q.inClassification = p.inClassification
  inCategory : q.inCategory = p.inCategory
  inValidation : q.inValidation = p.inValidation

def body (p : SpifParser) : String × SpifCategory × SpifValidation :=
  (p.className, p.category, p.validation)

theorem begin_plain {name : String} (plain : blockKind name = none) (p : SpifParser)
    (attributes : List (String × String)) :
    Kept p (p.begin (localName name) attributes) ∧
      body (p.begin (localName name) attributes) = body p := by
  obtain ⟨one, two, three, four, five⟩ := blockKind_none plain
  unfold SpifParser.begin
  split
  · rename_i named
    exact absurd named one
  · rename_i named
    exact absurd named two
  · rename_i named
    exact absurd named three
  · rename_i named
    exact absurd named four
  · rename_i named
    exact absurd named five
  · exact ⟨⟨rfl, rfl, rfl, rfl⟩, rfl⟩
  · exact ⟨⟨rfl, rfl, rfl, rfl⟩, rfl⟩

theorem startTag_plain {name : String} (plain : blockKind name = none) (p : SpifParser)
    (attributes : List (String × String)) :
    Kept p (p.startTag name attributes) ∧ body (p.startTag name attributes) = body p := by
  obtain ⟨oid, same⟩ := startTag_same p name attributes
  obtain ⟨kept, bodies⟩ := begin_plain plain { p with currentText := "" } attributes
  rw [same]
  exact ⟨⟨kept.lists, kept.inClassification, kept.inCategory, kept.inValidation⟩, bodies⟩

inductive Closes (p : SpifParser) (name : String) : SpifParser → Prop
  | identifier (named : name = "identifier") (unset : isEmpty p.policyId = true) :
    Closes p name { p with policyId := p.currentText }
  | spifVersion (named : name = "spifversion") (inside : p.inVersioninfo = true) :
    Closes p name { p with spifVersion := some p.currentText }
  | issuingAuthority (named : name = "issuingauthority") (inside : p.inVersioninfo = true) :
    Closes p name { p with issuingAuthority := some p.currentText }
  | className (named : name = "name") (inside : p.inClassification = true) :
    Closes p name { p with className := p.currentText }
  | categoryName (named : name = "name") (sealed : p.inClassification = false)
    (inside : p.inCategory = true) : Closes p name { p with category.name := p.currentText }
  | categoryType (named : name = "type" ∨ name = "tagtype") (inside : p.inCategory = true) :
    Closes p name { p with category.categoryType := parseCategoryType p.currentText }
  | categoryValue (named : name = "genericValue" ∨ name = "categoryName" ∨ name = "value")
    (inside : p.inCategory = true) : Closes p name
      { p with category.allowedValues := pushText p.category.allowedValues p.currentText }
  | ruleClassification (named : name = "classification") (inside : p.inValidation = true) :
    Closes p name { p with validation.classification := p.currentText }
  | ruleCategory (named : name = "categoryName") (inside : p.inValidation = true) :
    Closes p name { p with validation.categoryName := p.currentText }
  | ruleValue (named : name = "requiredValue" ∨ name = "genericValue")
    (inside : p.inValidation = true) : Closes p name
      { p with validation.requiredAnyOf := pushText p.validation.requiredAnyOf p.currentText }
  | classification (named : name = "securityClassification" ∨ name = "classification")
    (unruled : name = "classification" → p.inValidation = false)
    (inside : p.inClassification = true) : Closes p name p.closeClassification
  | category (named : name = "securityCategory" ∨ name = "category")
    (inside : p.inCategory = true) : Closes p name p.closeCategory
  | validation (named : name = "validation") (inside : p.inValidation = true) :
    Closes p name p.closeValidation
  | version (named : name = "versioninfo") (inside : p.inVersioninfo = true) : Closes p name
      { p with versionInfo := some ⟨p.spifVersion, p.issuingAuthority⟩, inVersioninfo := false }
  | nothing (noIdentifier : ¬ (name = "identifier" ∧ isEmpty p.policyId = true))
    (noVersion : name ∈ ["spifversion", "issuingauthority", "versioninfo"] →
      p.inVersioninfo = false)
    (noName : name = "name" → p.inClassification = false ∧ p.inCategory = false)
    (noField : name ∈ ["type", "tagtype", "genericValue", "categoryName", "value"] →
      p.inCategory = false)
    (noRule : name ∈ ["classification", "categoryName", "requiredValue", "genericValue"] →
      p.inValidation = false) : Closes p name p

theorem close_closes (p : SpifParser) (name : String) : Closes p name (p.close name) := by
  have no : ∀ {n : Prop} {flag : Bool}, ¬ (n ∧ flag = true) → n → flag = false :=
    fun none named => Bool.eq_false_iff.mpr fun set => none ⟨named, set⟩
  unfold SpifParser.close
  refine iteInduction (motive := Closes p name) (fun c => .identifier c.1 c.2) fun c1 => ?_
  refine iteInduction (motive := Closes p name) (fun c => .spifVersion c.1 c.2) fun c2 => ?_
  refine iteInduction (motive := Closes p name) (fun c => .issuingAuthority c.1 c.2) fun c3 => ?_
  refine iteInduction (motive := Closes p name) (fun c => .className c.1 c.2) fun c4 => ?_
  refine iteInduction (motive := Closes p name)
    (fun c => .categoryName c.1 (no c4 c.1) c.2) fun c5 => ?_
  refine iteInduction (motive := Closes p name) (fun c => .categoryType c.1 c.2) fun c6 => ?_
  refine iteInduction (motive := Closes p name) (fun c => .categoryValue c.1 c.2) fun c7 => ?_
  refine iteInduction (motive := Closes p name) (fun c => .ruleClassification c.1 c.2)
    fun c8 => ?_
  refine iteInduction (motive := Closes p name) (fun c => .ruleCategory c.1 c.2) fun c9 => ?_
  refine iteInduction (motive := Closes p name) (fun c => .ruleValue c.1 c.2) fun c10 => ?_
  refine iteInduction (motive := Closes p name)
    (fun c => .classification c.1 (fun named => no c8 named) c.2) fun _ => ?_
  refine iteInduction (motive := Closes p name) (fun c => .category c.1 c.2) fun _ => ?_
  refine iteInduction (motive := Closes p name) (fun c => .validation c.1 c.2) fun _ => ?_
  refine iteInduction (motive := Closes p name) (fun c => .version c.1 c.2) fun c14 => ?_
  refine .nothing c1 ?_ (fun named => ⟨no c4 named, no c5 named⟩) ?_ ?_
  · simp only [List.mem_cons, List.not_mem_nil, or_false]
    intro named
    rcases named with version | authority | info
    · exact no c2 version
    · exact no c3 authority
    · exact no c14 info
  · simp only [List.mem_cons, List.not_mem_nil, or_false, ← or_assoc (a := name = "type")]
    intro named
    rcases named with type | value
    · exact no c6 type
    · exact no c7 value
  · simp only [List.mem_cons, List.not_mem_nil, or_false]
    intro named
    rcases named with classification | category | value
    · exact no c8 classification
    · exact no c9 category
    · exact no c10 value

theorem close_kept {name : String} (plain : blockKind name = none) (p : SpifParser) :
    Kept p (p.close (localName name)) := by
  obtain ⟨one, two, three, four, five⟩ := blockKind_none plain
  have closes := close_closes p (localName name)
  generalize p.close (localName name) = q at closes ⊢
  cases closes with
  | classification named => exact absurd named (not_or.mpr ⟨one, two⟩)
  | category named => exact absurd named (not_or.mpr ⟨three, four⟩)
  | validation named => exact absurd named five
  | identifier | spifVersion | issuingAuthority | className | categoryName | categoryType
  | categoryValue | ruleClassification | ruleCategory | ruleValue | version | nothing =>
    exact ⟨rfl, rfl, rfl, rfl⟩

theorem endTag_body (p : SpifParser) (name : String) :
    body (p.endTag name) = body (p.close (localName name)) := by
  rw [SpifParser.endTag]
  generalize p.close (localName name) = q
  rfl

theorem kept_endTag {p : SpifParser} {name : String} {r : SpifParser}
    (kept : Kept r (p.close (localName name))) : Kept r (p.endTag name) := by
  rw [SpifParser.endTag]
  generalize p.close (localName name) = q at kept ⊢
  exact ⟨kept.lists, kept.inClassification, kept.inCategory, kept.inValidation⟩

theorem endTag_kept {name : String} (plain : blockKind name = none) (p : SpifParser) :
    Kept p (p.endTag name) := kept_endTag (close_kept plain p)

theorem step_kept (p : SpifParser) {e : Pulled} (plain : Plain e) : Kept p (p.step e) := by
  cases e with
  | start name attributes => exact (startTag_plain (plain name rfl) p attributes).1
  | empty name attributes =>
    obtain ⟨oid, same⟩ := takeUrl_same p attributes
    rw [SpifParser.step, same]
    exact ⟨rfl, rfl, rfl, rfl⟩
  | text raw =>
    rw [SpifParser.step]
    generalize trim raw = text
    exact ⟨rfl, rfl, rfl, rfl⟩
  | finish name => exact endTag_kept (plain name rfl) p
  | other => exact ⟨rfl, rfl, rfl, rfl⟩

theorem step_body (p : SpifParser) {e : Pulled} (plain : Plain e)
    (noEnd : ∀ name, e ≠ .finish name) : body (p.step e) = body p := by
  cases e with
  | start name attributes => exact (startTag_plain (plain name rfl) p attributes).2
  | empty name attributes =>
    obtain ⟨oid, same⟩ := takeUrl_same p attributes
    rw [SpifParser.step, same]
    rfl
  | text raw =>
    rw [SpifParser.step]
    generalize trim raw = text
    rfl
  | finish name => exact absurd rfl (noEnd name)
  | other => rfl

/-- With a classification left open the name of a category is taken for that of a
classification. -/
def leakedField (leaked : Bool) (category : SpifCategory) (field : String × String) :
    SpifCategory :=
  if leaked ∧ field.1 = "name" then category else categoryField category field

theorem leakedField_other {leaked : Bool} {category : SpifCategory} {tag text : String}
    (other : tag ∉ ["name", "type", "tagtype", "genericValue", "categoryName", "value"]) :
    leakedField leaked category (tag, text) = category := by
  simp only [List.mem_cons, List.not_mem_nil, or_false, not_or] at other
  obtain ⟨noName, noType, noTagtype, noGeneric, noCategoryName, noValue⟩ := other
  rw [leakedField, if_neg (fun both => noName both.2), categoryField, if_neg noName,
    if_neg (not_or.mpr ⟨noType, noTagtype⟩),
    if_neg (not_or.mpr ⟨noGeneric, not_or.mpr ⟨noCategoryName, noValue⟩⟩)]

theorem close_category {name : String} (plain : blockKind name = none) {p : SpifParser}
    (inside : p.inCategory = true) (outside : p.inValidation = false) :
    (p.close (localName name)).category =
      leakedField p.inClassification p.category (localName name, p.currentText) := by
  obtain ⟨one, two, three, four, five⟩ := blockKind_none plain
  have closes := close_closes p (localName name)
  generalize p.close (localName name) = q at closes ⊢
  generalize localName name = tag at *
  cases closes with
  | identifier named | spifVersion named | issuingAuthority named | version named =>
    exact (leakedField_other (by rw [named]; decide)).symm
  | className named leaked => rw [leakedField, if_pos ⟨leaked, named⟩]
  | categoryName named sealed =>
    rw [sealed, leakedField, if_neg (fun both => Bool.noConfusion both.1), categoryField,
      if_pos named]
  | categoryType named =>
    have nameless : tag ≠ "name" := by
      rcases named with rfl | rfl
      · decide
      · decide
    rw [leakedField, if_neg (fun both => nameless both.2), categoryField, if_neg nameless,
      if_pos named]
  | categoryValue named =>
    have other : tag ∉ ["name", "type", "tagtype"] := by
      rcases named with rfl | rfl | rfl
      · decide
      · decide
      · decide
    simp only [List.mem_cons, List.not_mem_nil, or_false, not_or] at other
    rw [leakedField, if_neg (fun both => other.1 both.2), categoryField, if_neg other.1,
      if_neg (not_or.mpr other.2), if_pos named]
  | ruleClassification _ ruled | ruleCategory _ ruled | ruleValue _ ruled =>
    rw [outside] at ruled
    cases ruled
  | classification named => exact absurd named (not_or.mpr ⟨one, two⟩)
  | category named => exact absurd named (not_or.mpr ⟨three, four⟩)
  | validation named => exact absurd named five
  | nothing _ _ noName noField =>
    refine (leakedField_other fun mem => ?_).symm
    rcases List.mem_cons.mp mem with named | field
    · exact Bool.noConfusion (inside.symm.trans (noName named).2)
    · exact Bool.noConfusion (inside.symm.trans (noField field))

def RuleTag (name : String) : Prop := blockKind name = none ∨ localName name = "classification"

theorem ruleTag_others {name : String} (tag : RuleTag name) :
    localName name ≠ "securityClassification" ∧ localName name ≠ "securityCategory" ∧
      localName name ≠ "category" ∧ localName name ≠ "validation" := by
  rcases tag with plain | named
  · obtain ⟨one, _, three, four, five⟩ := blockKind_none plain
    exact ⟨one, three, four, five⟩
  · rw [named]
    decide

theorem validationField_other {validation : SpifValidation} {tag text : String}
    (other : tag ∉ ["classification", "categoryName", "requiredValue", "genericValue"]) :
    validationField validation (tag, text) = validation := by
  simp only [List.mem_cons, List.not_mem_nil, or_false, not_or] at other
  obtain ⟨noClassification, noCategoryName, noRequired, noGeneric⟩ := other
  rw [validationField, if_neg noClassification, if_neg noCategoryName,
    if_neg (not_or.mpr ⟨noRequired, noGeneric⟩)]

theorem close_validation {name : String} (ruled : RuleTag name) {p : SpifParser}
    (outside : p.inCategory = false) (inside : p.inValidation = true) :
    Kept p (p.close (localName name)) ∧ (p.close (localName name)).validation =
      validationField p.validation (localName name, p.currentText) := by
  obtain ⟨one, three, four, five⟩ := ruleTag_others ruled
  have closes := close_closes p (localName name)
  generalize p.close (localName name) = q at closes ⊢
  generalize localName name = tag at *
  cases closes with
  | identifier named | spifVersion named | issuingAuthority named | version named
  | className named =>
    rw [validationField_other (by rw [named]; decide)]
    exact ⟨⟨rfl, rfl, rfl, rfl⟩, rfl⟩
  | categoryName _ _ categorised | categoryType _ categorised | categoryValue _ categorised
  | category _ categorised =>
    rw [outside] at categorised
    cases categorised
  | ruleClassification named =>
    rw [validationField, if_pos named]
    exact ⟨⟨rfl, rfl, rfl, rfl⟩, rfl⟩
  | ruleCategory named =>
    have unclassified : tag ≠ "classification" := by
      rw [named]
      decide
    rw [validationField, if_neg unclassified, if_pos named]
    exact ⟨⟨rfl, rfl, rfl, rfl⟩, rfl⟩
  | ruleValue named =>
    have other : tag ∉ ["classification", "categoryName"] := by
      rcases named with rfl | rfl
      · decide
      · decide
    simp only [List.mem_cons, List.not_mem_nil, or_false, not_or] at other
    rw [validationField, if_neg other.1, if_neg other.2, if_pos named]
    exact ⟨⟨rfl, rfl, rfl, rfl⟩, rfl⟩
  | classification named unruled =>
    rcases named with security | plain
    · exact absurd security one
    · exact Bool.noConfusion (inside.symm.trans (unruled plain))
  | validation named => exact absurd named five
  | nothing _ _ _ _ noRule =>
    rw [validationField_other fun field => Bool.noConfusion (inside.symm.trans (noRule field))]
    exact ⟨⟨rfl, rfl, rfl, rfl⟩, rfl⟩

theorem classificationField_other {className tag text : String} (other : tag ≠ "name") :
    classificationField className (tag, text) = className := if_neg other

theorem close_classification {name : String} (plain : blockKind name = none) {p : SpifParser}
    (inside : p.inClassification = true) (outside : p.inCategory = false)
    (apart : p.inValidation = false) :
    (p.close (localName name)).className =
      classificationField p.className (localName name, p.currentText) := by
  obtain ⟨one, two, three, four, five⟩ := blockKind_none plain
  have closes := close_closes p (localName name)
  generalize p.close (localName name) = q at closes ⊢
  generalize localName name = tag at *
  cases closes with
  | identifier named | spifVersion named | issuingAuthority named | version named =>
    exact (classificationField_other (by rw [named]; decide)).symm
  | className named => rw [classificationField, if_pos named]
  | categoryName _ _ categorised | categoryType _ categorised | categoryValue _ categorised
  | category _ categorised =>
    rw [outside] at categorised
    cases categorised
  | ruleClassification _ ruled | ruleCategory _ ruled | ruleValue _ ruled =>
    rw [apart] at ruled
    cases ruled
  | classification named => exact absurd named (not_or.mpr ⟨one, two⟩)
  | validation named => exact absurd named five
  | nothing _ _ noName =>
    refine (classificationField_other fun named => ?_).symm
    exact Bool.noConfusion (inside.symm.trans (noName named).1)

theorem Kept.trans {p q r : SpifParser} (first : Kept p q) (second : Kept q r) : Kept p r where
  lists := second.lists.trans first.lists
  inClassification := second.inClassification.trans first.inClassification
  inCategory := second.inCategory.trans first.inCategory
  inValidation := second.inValidation.trans first.inValidation

theorem plain_step_fieldStep {S : Type} (view : SpifParser → S) {field : S → String × String → S}
    {p : SpifParser} {e : Pulled} (plain : Plain e)
    (viewed : ∀ q, body q = body p → view q = view p)
    (closed : ∀ name, e = .finish name →
      view (p.endTag name) = field (view p) (localName name, p.currentText)) :
    view (p.step e) = fieldStep field (view p) p.currentText e := by
  cases e with
  | finish name => exact closed name rfl
  | start name attributes => exact viewed _ (step_body p plain (fun _ same => by cases same))
  | empty name attributes => exact viewed _ (step_body p plain (fun _ same => by cases same))
  | text raw => exact viewed _ (step_body p plain (fun _ same => by cases same))
  | other => exact viewed _ (step_body p plain (fun _ same => by cases same))

theorem category_content {content : List Pulled} (plain : ∀ e ∈ content, Plain e) {p : SpifParser}
    (inside : p.inCategory = true) (outside : p.inValidation = false) :
    Kept p (p.run content) ∧ (p.run content).category =
      (closings p.currentText content).foldl (leakedField p.inClassification) p.category := by
  refine run_closings (·.category) (Kept p) Plain ?_ content plain ⟨rfl, rfl, rfl, rfl⟩
  intro q e kept here
  refine ⟨kept.trans (step_kept q here), ?_⟩
  apply plain_step_fieldStep (·.category) here
  · intro r same
    exact congrArg (fun parts => parts.2.1) same
  · intro name closing
    subst closing
    have read : (q.endTag name).category = (q.close (localName name)).category :=
      congrArg (fun parts => parts.2.1) (endTag_body q name)
    rw [read, ← kept.inClassification]
    exact close_category (here name rfl) (kept.inCategory.trans inside)
      (kept.inValidation.trans outside)

theorem classification_content {content : List Pulled} (plain : ∀ e ∈ content, Plain e)
    {p : SpifParser} (inside : p.inClassification = true) (outside : p.inCategory = false)
    (apart : p.inValidation = false) :
    Kept p (p.run content) ∧ (p.run content).className =
      (closings p.currentText content).foldl classificationField p.className := by
  refine run_closings (·.className) (Kept p) Plain ?_ content plain ⟨rfl, rfl, rfl, rfl⟩
  intro q e kept here
  refine ⟨kept.trans (step_kept q here), ?_⟩
  apply plain_step_fieldStep (·.className) here
  · intro r same
    exact congrArg (fun parts => parts.1) same
  · intro name closing
    subst closing
    have read : (q.endTag name).className = (q.close (localName name)).className :=
      congrArg (fun parts => parts.1) (endTag_body q name)
    rw [read]
    exact close_classification (here name rfl) (kept.inClassification.trans inside)
      (kept.inCategory.trans outside) (kept.inValidation.trans apart)

structure InRule (l : List String × List SpifCategory × List SpifValidation) (p : SpifParser) :
    Prop where
  lists : lists p = l
  inCategory : p.inCategory = false
  inValidation : p.inValidation = true

theorem rule_step {l : List String × List SpifCategory × List SpifValidation} {p : SpifParser}
    (inside : InRule l p) {e : Pulled} (ruled : ∀ tag, tagName e = some tag → RuleTag tag) :
    InRule l (p.step e) ∧
      (p.step e).validation = fieldStep validationField p.validation p.currentText e ∧
      (p.step e).inClassification = (p.inClassification || opensClassification e) := by
  cases e with
  | start name attributes =>
    rcases ruled name rfl with plain | named
    · obtain ⟨kept, bodies⟩ := startTag_plain plain p attributes
      have other : (localName name == "classification") = false :=
        beq_eq_false_iff_ne.mpr (blockKind_none plain).2.1
      refine ⟨⟨kept.lists.trans inside.lists, kept.inCategory.trans inside.inCategory,
        kept.inValidation.trans inside.inValidation⟩, ?_, ?_⟩
      · exact congrArg (fun parts => parts.2.2) bodies
      · rw [opensClassification, other, Bool.or_false]
        exact kept.inClassification
    · obtain ⟨oid, same⟩ := startTag_same p name attributes
      rw [SpifParser.step, same, named, opensClassification, named]
      refine ⟨⟨inside.lists, inside.inCategory, inside.inValidation⟩, rfl, ?_⟩
      rw [beq_self_eq_true, Bool.or_true]
      rfl
  | finish name =>
    obtain ⟨kept, changed⟩ := close_validation (ruled name rfl) inside.inCategory
      inside.inValidation
    have ended := kept_endTag kept
    have read : (p.endTag name).validation = (p.close (localName name)).validation :=
      congrArg (fun parts => parts.2.2) (endTag_body p name)
    refine ⟨⟨ended.lists.trans inside.lists, ended.inCategory.trans inside.inCategory,
      ended.inValidation.trans inside.inValidation⟩, read.trans changed, ?_⟩
    exact ended.inClassification.trans (Bool.or_false _).symm
  | empty name attributes =>
    obtain ⟨oid, same⟩ := takeUrl_same p attributes
    rw [SpifParser.step, same]
    exact ⟨⟨inside.lists, inside.inCategory, inside.inValidation⟩, rfl, (Bool.or_false _).symm⟩
  | text raw =>
    rw [SpifParser.step]
    generalize trim raw = text
    exact ⟨⟨inside.lists, inside.inCategory, inside.inValidation⟩, rfl, (Bool.or_false _).symm⟩
  | other => exact ⟨inside, rfl, (Bool.or_false _).symm⟩

theorem rule_content {content : List Pulled}
    (ruled : ∀ e ∈ content, ∀ tag, tagName e = some tag → RuleTag tag)
    {l : List String × List SpifCategory × List SpifValidation} {p : SpifParser}
    (inside : InRule l p) :
    InRule l (p.run content) ∧ (p.run content).validation =
      (closings p.currentText content).foldl validationField p.validation := by
  refine run_closings (·.validation) (InRule l)
    (fun e => ∀ tag, tagName e = some tag → RuleTag tag) ?_ content ruled inside
  intro q e here allowed
  obtain ⟨next, field, _⟩ := rule_step here allowed
  exact ⟨next, field⟩

theorem rule_leaves_open {content : List Pulled}
    (ruled : ∀ e ∈ content, ∀ tag, tagName e = some tag → RuleTag tag)
    {l : List String × List SpifCategory × List SpifValidation} {p : SpifParser}
    (inside : InRule l p) :
    (p.run content).inClassification = (p.inClassification || content.any opensClassification) := by
  induction content generalizing p with
  | nil => exact (Bool.or_false _).symm
  | cons e rest ih =>
    obtain ⟨next, _, flag⟩ := rule_step inside (ruled e List.mem_cons_self)
    have total := ih (fun f mem => ruled f (List.mem_cons_of_mem e mem)) next
    rw [run_cons, total, flag, List.any_cons, Bool.or_assoc]

end Contents

section BlockRuns

theorem blockKind_classification {name : String} (kind : blockKind name = some .classification) :
    localName name = "securityClassification" ∨ localName name = "classification" := by
  unfold blockKind at kind
  split at kind
  · exact Or.inl ‹_›
  · exact Or.inr ‹_›
  · cases kind
  · cases kind
  · cases kind
  · cases kind

theorem blockKind_category {name : String} (kind : blockKind name = some .category) :
    localName name = "securityCategory" ∨ localName name = "category" := by
  unfold blockKind at kind
  split at kind
  · cases kind
  · cases kind
  · exact Or.inl ‹_›
  · exact Or.inr ‹_›
  · cases kind
  · cases kind

theorem blockKind_validation {name : String} (kind : blockKind name = some .validation) :
    localName name = "validation" := by
  unfold blockKind at kind
  split at kind
  · cases kind
  · cases kind
  · cases kind
  · cases kind
  · assumption
  · cases kind

structure Between (p : SpifParser) : Prop where
  inCategory : p.inCategory = false
  inValidation : p.inValidation = false

theorem close_ofClassification {p : SpifParser} (between : Between p)
    (inside : p.inClassification = true) {tag : String}
    (named : tag = "securityClassification" ∨ tag = "classification") :
    p.close tag = p.closeClassification := by
  rcases named with rfl | rfl
  · simp [SpifParser.close, between.inCategory, between.inValidation, inside]
  · simp [SpifParser.close, between.inCategory, between.inValidation, inside]

theorem close_ofCategory {p : SpifParser} (inside : p.inCategory = true) {tag : String}
    (named : tag = "securityCategory" ∨ tag = "category") : p.close tag = p.closeCategory := by
  rcases named with rfl | rfl
  · simp [SpifParser.close, inside]
  · simp [SpifParser.close, inside]

theorem close_ofValidation {p : SpifParser} (inside : p.inValidation = true) :
    p.close "validation" = p.closeValidation := by
  simp [SpifParser.close, inside]

theorem pushText_append (values : List String) (text : String) :
    pushText values text = values ++ (if isEmpty text then none else some text).toList := by
  unfold pushText
  split
  · exact (List.append_nil _).symm
  · rfl

theorem run_block (p : SpifParser) (b : Block) :
    p.run b.events = ((p.startTag b.name b.attributes).run b.content).endTag b.name := by
  rw [Block.events, SpifParser.run, List.foldl_cons, List.foldl_append]
  rfl

def Block.leaves (b : Block) (leaked : Bool) : Bool :=
  match b.kind with
  | .classification => false
  | .category => leaked
  | .validation => leaked || b.namesClassification

structure Contributes (b : Block) (p q : SpifParser) : Prop where
  between : Between q
  leak : q.inClassification = b.leaves p.inClassification
  classifications : q.allowedClassifications = p.allowedClassifications ++ b.classificationEntry.toList
  categories : q.categories =
    p.categories ++ (if p.inClassification then none else b.categoryEntry).toList
  validations : q.validations = p.validations ++ b.validationEntry.toList

theorem entries_other (b : Block) :
    (b.kind ≠ .classification → b.classificationEntry = none) ∧
      (b.kind ≠ .category → b.categoryEntry = none) ∧
        (b.kind ≠ .validation → b.validationEntry = none) := by
  refine ⟨?_, ?_, ?_⟩
  · intro other
    exact if_neg (fun both => other both.1)
  · intro other
    exact if_neg (fun both => other both.1)
  · intro other
    exact if_neg (fun both => other both.1)

theorem flat_plain {b : Block} (other : b.kind ≠ .validation) : ∀ e ∈ b.content, Plain e := by
  intro e mem tag named
  rcases b.flat e mem tag named with plain | ⟨rule, _⟩
  · exact plain.1
  · exact absurd rule other

theorem classification_contributes {b : Block} (kind : b.kind = .classification) {p : SpifParser}
    (between : Between p) : Contributes b p (p.run b.events) := by
  have named := blockKind_classification (b.named.trans (congrArg some kind))
  have plain := flat_plain (b := b) (by rw [kind]; decide)
  obtain ⟨_, noCategory, noValidation⟩ := entries_other b
  obtain ⟨oid, opened⟩ := startTag_same p b.name b.attributes
  have begun : p.startTag b.name b.attributes = { p with
      currentText := "", inClassification := true, className := "", policyOid := oid } := by
    rw [opened]
    rcases named with same | same
    · rw [same]
      rfl
    · rw [same]
      rfl
  obtain ⟨kept, name⟩ := classification_content plain (p := p.startTag b.name b.attributes)
    (by rw [begun]) (by rw [begun]; exact between.inCategory)
    (by rw [begun]; exact between.inValidation)
  rw [run_block, SpifParser.endTag]
  generalize (p.startTag b.name b.attributes).run b.content = q at kept name ⊢
  rw [begun] at kept name
  rw [close_ofClassification ⟨kept.inCategory.trans between.inCategory,
    kept.inValidation.trans between.inValidation⟩ kept.inClassification named]
  obtain ⟨classifications, rest⟩ := Prod.mk.inj kept.lists
  obtain ⟨categories, validations⟩ := Prod.mk.inj rest
  have entry : b.classificationEntry = if isEmpty q.className then none else some q.className := by
    rw [name, Block.classificationEntry]
    simp only [kind, true_and, fields]
    split_ifs
    · rfl
    · rfl
  refine ⟨⟨kept.inCategory.trans between.inCategory, kept.inValidation.trans between.inValidation⟩,
    ?_, ?_, ?_, ?_⟩
  · rw [Block.leaves, kind]
    rfl
  · rw [entry, ← pushText_append]
    exact congrArg (pushText · q.className) classifications
  · rw [noCategory (by rw [kind]; decide), ite_self, Option.toList_none, List.append_nil]
    exact categories
  · rw [noValidation (by rw [kind]; decide), Option.toList_none, List.append_nil]
    exact validations

theorem leakedField_name {leaked : Bool} (fields : List (String × String)) (category : SpifCategory)
    (sealed : leaked = true) : (fields.foldl (leakedField leaked) category).name = category.name := by
  induction fields generalizing category with
  | nil => rfl
  | cons field rest ih =>
    rw [List.foldl_cons, ih]
    unfold leakedField
    split
    · rfl
    · rename_i other
      have unnamed : field.1 ≠ "name" := fun same => other ⟨sealed, same⟩
      rw [categoryField, if_neg unnamed]
      split_ifs
      · rfl
      · rfl
      · rfl

theorem leakedField_open : leakedField false = categoryField := by
  funext category field
  exact if_neg (fun both => Bool.noConfusion both.1)

theorem category_contributes {b : Block} (kind : b.kind = .category) {p : SpifParser}
    (between : Between p) : Contributes b p (p.run b.events) := by
  have named := blockKind_category (b.named.trans (congrArg some kind))
  have plain := flat_plain (b := b) (by rw [kind]; decide)
  obtain ⟨noClassification, _, noValidation⟩ := entries_other b
  obtain ⟨oid, opened⟩ := startTag_same p b.name b.attributes
  have begun : p.startTag b.name b.attributes = { p with
      currentText := "", inCategory := true
      category := ⟨"", categoryTypeOf b.attributes, []⟩, policyOid := oid } := by
    rw [opened]
    rcases named with same | same
    · rw [same]
      rfl
    · rw [same]
      rfl
  obtain ⟨kept, category⟩ := category_content plain (p := p.startTag b.name b.attributes)
    (by rw [begun]) (by rw [begun]; exact between.inValidation)
  rw [run_block, SpifParser.endTag]
  generalize (p.startTag b.name b.attributes).run b.content = q at kept category ⊢
  rw [begun] at kept category
  rw [close_ofCategory kept.inCategory named]
  obtain ⟨classifications, rest⟩ := Prod.mk.inj kept.lists
  obtain ⟨categories, validations⟩ := Prod.mk.inj rest
  have entry : (if isEmpty q.category.name then q.categories else q.categories ++ [q.category]) =
      p.categories ++ (if p.inClassification then none else b.categoryEntry).toList := by
    have here : q.categories = p.categories := categories
    rw [here]
    cases leaked : p.inClassification with
    | true =>
      have unnamed : q.category.name = "" := by
        rw [category]
        exact leakedField_name _ _ leaked
      rw [unnamed]
      exact (List.append_nil _).symm
    | false =>
      have own : q.category = (fields b.content).foldl categoryField
          ⟨"", categoryTypeOf b.attributes, []⟩ := by
        rw [category]
        dsimp only
        rw [leaked, leakedField_open]
        rfl
      have read : b.categoryEntry =
          if isEmpty q.category.name then none else some q.category := by
        rw [own, Block.categoryEntry]
        simp only [kind, true_and]
        split_ifs
        · rfl
        · rfl
      rw [read]
      cases isEmpty q.category.name with
      | true => exact (List.append_nil _).symm
      | false => rfl
  refine ⟨⟨rfl, kept.inValidation.trans between.inValidation⟩, ?_, ?_, ?_, ?_⟩
  · rw [Block.leaves, kind]
    exact kept.inClassification
  · rw [noClassification (by rw [kind]; decide), Option.toList_none, List.append_nil]
    exact classifications
  · exact entry
  · rw [noValidation (by rw [kind]; decide), Option.toList_none, List.append_nil]
    exact validations

theorem validation_contributes {b : Block} (kind : b.kind = .validation) {p : SpifParser}
    (between : Between p) : Contributes b p (p.run b.events) := by
  have named := blockKind_validation (b.named.trans (congrArg some kind))
  have ruled : ∀ e ∈ b.content, ∀ tag, tagName e = some tag → RuleTag tag := by
    intro e mem tag tagged
    rcases b.flat e mem tag tagged with plain | ⟨_, classification⟩
    · exact Or.inl plain.1
    · exact Or.inr classification
  obtain ⟨noClassification, noCategory, _⟩ := entries_other b
  obtain ⟨oid, opened⟩ := startTag_same p b.name b.attributes
  have begun : p.startTag b.name b.attributes = { p with
      currentText := "", inValidation := true, validation := ⟨"", "", []⟩, policyOid := oid } := by
    rw [opened, named]
    rfl
  have inside : InRule (lists p) (p.startTag b.name b.attributes) := by
    rw [begun]
    exact ⟨rfl, between.inCategory, rfl⟩
  obtain ⟨kept, validation⟩ := rule_content ruled inside
  have leak := rule_leaves_open ruled inside
  rw [run_block, SpifParser.endTag, named]
  generalize (p.startTag b.name b.attributes).run b.content = q at kept validation leak ⊢
  rw [begun] at validation leak
  rw [close_ofValidation kept.inValidation]
  obtain ⟨classifications, rest⟩ := Prod.mk.inj kept.lists
  obtain ⟨categories, validations⟩ := Prod.mk.inj rest
  have entry : (if isEmpty q.validation.classification || isEmpty q.validation.categoryName then
      q.validations else q.validations ++ [q.validation]) =
        p.validations ++ b.validationEntry.toList := by
    have own : q.validation = (fields b.content).foldl validationField ⟨"", "", []⟩ := validation
    have here : q.validations = p.validations := validations
    rw [here, Block.validationEntry]
    simp only [kind, true_and, ← own, Bool.or_eq_true]
    split_ifs with blank both both
    · exact absurd blank (not_or.mpr both)
    · exact (List.append_nil _).symm
    · rfl
    · exact absurd (not_or.mp blank) both
  refine ⟨⟨kept.inCategory, rfl⟩, ?_, ?_, ?_, ?_⟩
  · rw [Block.leaves, kind, Block.namesClassification, kind]
    exact leak
  · rw [noClassification (by rw [kind]; decide), Option.toList_none, List.append_nil]
    exact classifications
  · rw [noCategory (by rw [kind]; decide), ite_self, Option.toList_none, List.append_nil]
    exact categories
  · exact entry

theorem block_contributes (b : Block) {p : SpifParser} (between : Between p) :
    Contributes b p (p.run b.events) := by
  cases kind : b.kind with
  | classification => exact classification_contributes kind between
  | category => exact category_contributes kind between
  | validation => exact validation_contributes kind between

end BlockRuns

section Documents

def keptCategories (leaked : Bool) : List Block → List SpifCategory
  | [] => []
  | b :: rest =>
    (if leaked then none else b.categoryEntry).toList ++ keptCategories (b.leaves leaked) rest

structure Read (items : List Block) (p q : SpifParser) : Prop where
  classifications : q.allowedClassifications =
    p.allowedClassifications ++ items.filterMap Block.classificationEntry
  categories : q.categories = p.categories ++ keptCategories p.inClassification items
  validations : q.validations = p.validations ++ items.filterMap Block.validationEntry

theorem filterMap_cons_toList {α β : Type} (f : α → Option β) (a : α) (rest : List α) :
    (a :: rest).filterMap f = (f a).toList ++ rest.filterMap f := by
  rw [List.filterMap_cons]
  cases f a with
  | none => rfl
  | some b => rfl

theorem run_append (p : SpifParser) (xs ys : List Pulled) :
    p.run (xs ++ ys) = (p.run xs).run ys := List.foldl_append

theorem run_filler (f : Filler) (p : SpifParser) : Kept p (p.run f.content) := by
  have kept : ∀ (content : List Pulled), (∀ e ∈ content, Plain e) → ∀ p : SpifParser,
      Kept p (p.run content) := by
    intro content
    induction content with
    | nil => exact fun _ p => ⟨rfl, rfl, rfl, rfl⟩
    | cons e rest ih =>
      intro plain p
      have first := step_kept p (plain e List.mem_cons_self)
      exact first.trans (ih (fun g mem => plain g (List.mem_cons_of_mem e mem)) (p.step e))
  exact kept f.content f.plain p

theorem run_parts (parts : List (Block × Filler)) {p : SpifParser} (between : Between p) :
    Read (parts.map Prod.fst) p
      (p.run (parts.flatMap fun part => part.1.events ++ part.2.content)) := by
  induction parts generalizing p with
  | nil => exact ⟨(List.append_nil _).symm, (List.append_nil _).symm, (List.append_nil _).symm⟩
  | cons part rest ih =>
    obtain ⟨b, f⟩ := part
    have here := block_contributes b between
    have kept := run_filler f (p.run b.events)
    have later := ih (p := (p.run b.events).run f.content)
      ⟨kept.inCategory.trans here.between.inCategory,
        kept.inValidation.trans here.between.inValidation⟩
    obtain ⟨classifications, others⟩ := Prod.mk.inj kept.lists
    obtain ⟨categories, validations⟩ := Prod.mk.inj others
    rw [List.flatMap_cons, run_append, run_append, List.map_cons]
    refine ⟨?_, ?_, ?_⟩
    · rw [later.classifications, classifications, here.classifications, filterMap_cons_toList,
        List.append_assoc]
    · rw [later.categories, categories, kept.inClassification, here.categories, here.leak,
        keptCategories, List.append_assoc]
    · rw [later.validations, validations, here.validations, filterMap_cons_toList,
        List.append_assoc]

theorem run_document (document : Document) {p : SpifParser} (between : Between p) : Read (blocks document) p (p.run (events document)) := by
  have kept := run_filler document.lead p
  have later := run_parts document.parts (p := p.run document.lead.content)
    ⟨kept.inCategory.trans between.inCategory, kept.inValidation.trans between.inValidation⟩
  obtain ⟨classifications, others⟩ := Prod.mk.inj kept.lists
  obtain ⟨categories, validations⟩ := Prod.mk.inj others
  rw [events, run_append]
  refine ⟨?_, ?_, ?_⟩
  · exact later.classifications.trans (by rw [classifications]; rfl)
  · exact later.categories.trans (by rw [categories, kept.inClassification]; rfl)
  · exact later.validations.trans (by rw [validations]; rfl)

theorem keptCategories_all {items : List Block}
    (none : (∀ b ∈ items, b.namesClassification = false) ∨ ∀ b ∈ items, b.categoryEntry = none) :
    keptCategories false items = items.filterMap Block.categoryEntry := by
  rcases none with closed | unnamed
  · induction items with
    | nil => rfl
    | cons b rest ih =>
      have sealed : b.leaves false = false := by
        unfold Block.leaves
        split
        · rfl
        · rfl
        · rw [closed b List.mem_cons_self]
          rfl
      rw [keptCategories, sealed, ih (fun c mem => closed c (List.mem_cons_of_mem b mem)),
        filterMap_cons_toList]
      rfl
  · have silent : ∀ (items : List Block) (leaked : Bool), (∀ b ∈ items, b.categoryEntry = none) →
        keptCategories leaked items = [] := by
      intro items
      induction items with
      | nil => exact fun leaked _ => rfl
      | cons b rest ih =>
        intro leaked all
        rw [keptCategories, all b List.mem_cons_self, ite_self,
          ih _ (fun c mem => all c (List.mem_cons_of_mem b mem))]
        rfl
    rw [silent items false unnamed]
    exact (List.filterMap_eq_nil_iff.mpr unnamed).symm

theorem keptCategories_fewer (items : List Block) (leaked : Bool) :
    (keptCategories leaked items).length ≤ (items.filterMap Block.categoryEntry).length := by
  induction items generalizing leaked with
  | nil => exact Nat.le_refl 0
  | cons b rest ih =>
    have later := ih (b.leaves leaked)
    rw [keptCategories, filterMap_cons_toList, List.length_append, List.length_append]
    cases leaked with
    | true =>
      rw [if_pos rfl, Option.toList_none, List.length_nil]
      omega
    | false => exact Nat.add_le_add_left later _

end Documents

end MimSpif
