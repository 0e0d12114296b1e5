import Mathlib.Data.List.Basic

/-!
Markup as a pull parser hands it out, empty elements told apart from the others, and
documents as trees. What is handed out for a tree is its walk; every step of the walk
stands in the context that the elements around it give.
-/
namespace PullMarkup

inductive Pulled where
  | start (name : String) (attributes : List (String × String))
  | empty (name : String) (attributes : List (String × String))
  | text (raw : String)
  | finish (name : String)
  | other
  deriving DecidableEq

def localName (name : String) : String :=
  match name.toList.dropWhile (· != ':') with
  | [] => name
  | _ :: rest => .ofList rest

/-- The value of the first attribute of that name, whatever its namespace. -/
def attributeValue (key : String) (attributes : List (String × String)) : Option String :=
  (attributes.find? fun a => a.1 == key || localName a.1 == key).map (·.2)

inductive Node where
  | element (name : String) (attributes : List (String × String)) (children : List Node)
  | empty (name : String) (attributes : List (String × String))
  | text (raw : String)
  | other

section Walk

mutual

def Node.events : Node → List Pulled
  | .element name attributes children =>
    .start name attributes :: (eventsOf children ++ [.finish name])
  | .empty name attributes => [.empty name attributes]
  | .text raw => [.text raw]
  | .other => [.other]

def eventsOf : List Node → List Pulled
  | [] => []
  | node :: rest => node.events ++ eventsOf rest

end

variable {C : Type} (inside : C → String → List (String × String) → C)

mutual

def Node.placed (context : C) : Node → List (Pulled × C)
  | .element name attributes children =>
    (.start name attributes, context) ::
      (placedOf (inside context name attributes) children ++ [(.finish name, context)])
  | .empty name attributes => [(.empty name attributes, context)]
  | .text raw => [(.text raw, context)]
  | .other => [(.other, context)]

def placedOf (context : C) : List Node → List (Pulled × C)
  | [] => []
  | node :: rest => node.placed context ++ placedOf context rest

end

mutual

theorem placed_events (context : C) (node : Node) :
    (node.placed inside context).map Prod.fst = node.events := by
  cases node with
  | element name attributes children =>
    rw [Node.placed, Node.events, List.map_cons, List.map_append, placedOf_events]
    rfl
  | empty name attributes => rfl
  | text raw => rfl
  | other => rfl

theorem placedOf_events (context : C) (nodes : List Node) :
    (placedOf inside context nodes).map Prod.fst = eventsOf nodes := by
  cases nodes with
  | nil => rfl
  | cons node rest =>
    rw [placedOf, eventsOf, List.map_append, placed_events, placedOf_events]

end

end Walk

end PullMarkup
