import MimStack.Core
import MimStack.Import.Owl
import MimStack.Lib.PullMarkup

/-!
The reading of an ontology from what a pull parser hands out. The reader keeps one
current class and one current property, and tells by the names of the tags alone where
it is.
-/
namespace MimImport
open RustText SortedStore PullMarkup MimCore

namespace OwlModel

def declareClass (model : OwlModel) (name : String) : OwlModel :=
  { model with classes := model.classes.update name { name } id }

def withParent (parents : List String) (parent : String) : List String :=
  if parents.contains parent then parents else parents ++ [parent]

def addParent (model : OwlModel) (child parent : String) : OwlModel :=
  { model with classes := model.classes.update child { name := child } fun entry =>
      { entry with parents := withParent entry.parents parent } }

def labelClass (model : OwlModel) (name text : String) : OwlModel :=
  { model with classes := model.classes.update name { name := "unknown" } fun entry =>
      { entry with label := some text } }

end OwlModel

namespace OwlXml

structure ParserState where
  currentClass : Option String := none
  currentProperty : Option String := none
  pendingDomain : Option String := none
  pendingRange : Option String := none
  inLabel : Bool := false
  inOneOf : Bool := false
  oneOfOwner : Option String := none
  oneOfValues : List String := []

structure Parser where
  model : OwlModel := {}
  state : ParserState := {}

def classRef (attributes : List (String × String)) : Option String :=
  ((attributeValue "about" attributes).or (attributeValue "ID" attributes)).map normalizeOwlRef

def resourceRef (attributes : List (String × String)) : Option String :=
  (attributeValue "resource" attributes).map normalizeOwlRef

def change {V : Type} (m : SortedMap String V) (k : String) (f : V → V) : SortedMap String V :=
  match m.get k with
  | some v => m.insert k (f v)
  | none => m

def Parser.updateProperty (p : Parser) (name : String) (fresh : OwlProperty)
    (f : OwlProperty → OwlProperty) : Parser :=
  { p with model.properties := p.model.properties.update name fresh f }

def Parser.changeProperty (p : Parser) (name : String) (f : OwlProperty → OwlProperty) : Parser :=
  { p with model.properties := change p.model.properties name f }

namespace Parser

def openClass (p : Parser) (property : Option String) (attributes : List (String × String)) :
    Parser :=
  match classRef attributes with
  | none => p
  | some name =>
    if p.state.inOneOf then
      { p with state.oneOfValues := p.state.oneOfValues ++ [name] }
    else
      { p with
        model := p.model.declareClass name
        state.currentClass := some name
        state.currentProperty := property }

def openProperty (p : Parser) (kind : OwlPropertyKind) (attributes : List (String × String)) :
    Parser :=
  match classRef attributes with
  | none => p
  | some name =>
    let property : OwlProperty :=
      { name, propertyType := kind, domain := p.state.pendingDomain, range := p.state.pendingRange }
    { p with
      model.properties := p.model.properties.insert name property
      state.currentProperty := some name
      state.currentClass := none
      state.pendingDomain := none
      state.pendingRange := none }

def subClassOf (p : Parser) (attributes : List (String × String)) : Parser :=
  match p.state.currentClass, resourceRef attributes with
  | some child, some parent => { p with model := p.model.addParent child parent }
  | _, _ => p

def subPropertyOf (p : Parser) (attributes : List (String × String)) : Parser :=
  match p.state.currentProperty, resourceRef attributes with
  | some child, some parent =>
    p.updateProperty child { name := child } fun entry =>
      { entry with parents := OwlModel.withParent entry.parents parent }
  | _, _ => p

def inverseOf (p : Parser) (attributes : List (String × String)) : Parser :=
  match p.state.currentProperty, resourceRef attributes with
  | some child, some partner =>
    p.updateProperty child { name := child } fun entry => { entry with inverseOf := some partner }
  | _, _ => p

def domain (p : Parser) (attributes : List (String × String)) : Parser :=
  match resourceRef attributes with
  | none => p
  | some domain =>
    match p.state.currentProperty with
    | some property =>
      p.changeProperty property fun entry => { entry with domain := some domain }
    | none => { p with state.pendingDomain := some domain }

def range (p : Parser) (attributes : List (String × String)) : Parser :=
  match resourceRef attributes with
  | none => p
  | some range =>
    match p.state.currentProperty with
    | some property =>
      p.changeProperty property fun entry => { entry with range := some range }
    | none => { p with state.pendingRange := some range }

def handleStart (p : Parser) (name : String) (attributes : List (String × String)) : Parser :=
  match localName name with
  | "Class" | "Thing" => p.openClass none attributes
  | "ObjectProperty" => p.openProperty .object attributes
  | "DatatypeProperty" => p.openProperty .data attributes
  | "subPropertyOf" => p.subPropertyOf attributes
  | "inverseOf" => p.inverseOf attributes
  | "domain" => p.domain attributes
  | "range" => p.range attributes
  | "subClassOf" => p.subClassOf attributes
  | "oneOf" =>
    { p with
      state.inOneOf := true
      state.oneOfValues := []
      state.oneOfOwner := p.state.currentClass }
  | "label" => { p with state.inLabel := true }
  | _ => p

def handleEmpty (p : Parser) (name : String) (attributes : List (String × String)) : Parser :=
  match localName name with
  | "Class" | "Thing" => p.openClass p.state.currentProperty attributes
  | "ObjectProperty" => p.openProperty .object attributes
  | "DatatypeProperty" => p.openProperty .data attributes
  | "subClassOf" => p.subClassOf attributes
  | "subPropertyOf" => p.subPropertyOf attributes
  | "domain" => p.domain attributes
  | "range" => p.range attributes
  | "inverseOf" => p.inverseOf attributes
  | _ => p

def closeOneOf (p : Parser) : Parser :=
  let closed := { p with
    state.inOneOf := false
    state.oneOfOwner := none
    state.oneOfValues := [] }
  match p.state.oneOfOwner with
  | none => closed
  | some owner =>
    if p.state.oneOfValues.isEmpty then closed
    else { closed with
      model.enumerations := p.model.enumerations.insert owner p.state.oneOfValues
      model.classes := change p.model.classes owner fun entry =>
        { entry with isEnumeration := true } }

def closeProperty (p : Parser) : Parser :=
  let closed := { p with state.currentProperty := none }
  match p.state.currentProperty with
  | none => closed
  | some name =>
    match p.model.properties.get name with
    | none => closed
    | some entry =>
      { closed with
        model.properties := p.model.properties.insert name
          (entry.fill p.state.pendingDomain p.state.pendingRange)
        state.pendingDomain := if entry.domain.isNone then none else p.state.pendingDomain
        state.pendingRange := if entry.range.isNone then none else p.state.pendingRange }

def handleEnd (p : Parser) (name : String) : Parser :=
  match localName name with
  | "oneOf" => if p.state.inOneOf then p.closeOneOf else p
  | "label" => { p with state.inLabel := false }
  | "Class" => { p with state.currentClass := none }
  | "ObjectProperty" | "DatatypeProperty" => p.closeProperty
  | _ => p

def handleText (p : Parser) (text : String) : Parser :=
  if p.state.inLabel && !isEmpty text then
    match p.state.currentClass with
    | some name => { p with model := p.model.labelClass name text }
    | none =>
      match p.state.currentProperty with
      | some name =>
        p.updateProperty name unknownProperty fun entry => { entry with label := some text }
      | none => p
  else p

def step (p : Parser) : Pulled → Parser
  | .start name attributes => p.handleStart name attributes
  | .empty name attributes => p.handleEmpty name attributes
  | .finish name => p.handleEnd name
  | .text raw => p.handleText raw
  | .other => p

def run (p : Parser) (events : List Pulled) : Parser := events.foldl step p

end Parser

/-- What is made of what the pull parser has handed out, and of the error it ended with. -/
def parse (read : List Pulled × Option String) : Except MimError OwlModel :=
  match read.2 with
  | some err => .error (.parse err)
  | none => .ok (Parser.run {} read.1).model

end OwlXml

end MimImport
