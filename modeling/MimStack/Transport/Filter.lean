import MimStack.Runtime

/-!
Transport errors and the filter expression language `//Class[@name='value']…`.
-/
namespace MimTransport
open RustText JsonText MimCore MimRuntime

inductive TransportError where
  | invalidRequest (message : String)
  | notFound (message : String)
  | inactive (message : String)
  | serialization (message : String)
  | validation (message : String)
  | forbidden (message : String)
  | unsupported (message : String)
  deriving DecidableEq

structure FilterPredicate where
  propertyName : String
  value : String
  deriving DecidableEq

structure FilterExpression where
  className : String
  predicates : List FilterPredicate
  deriving DecidableEq

def parseQuotedValue (raw : String) : Except TransportError String :=
  match raw.toList with
  | [] => .error (.invalidRequest "predicate value must be quoted")
  | quote :: rest =>
    if quote != '\'' && quote != '"' then
      .error (.invalidRequest ("predicate value must be quoted: " ++ raw))
    else if rest.getLast? != some quote then
      .error (.invalidRequest ("unterminated predicate value: " ++ raw))
    else .ok (.ofList rest.dropLast)

def parsePredicate (text : String) : Except TransportError FilterPredicate :=
  match (stripPrefix "[" text).bind (stripSuffix "]") with
  | none => .error (.invalidRequest ("malformed filter predicate: " ++ text))
  | some inner =>
    match splitAtChar '=' (trim (trimStartMatches (· == '@') (trim inner))) with
    | none => .error (.invalidRequest ("predicate missing =: " ++ text))
    | some (name, rawValue) =>
      if isEmpty (trim name) then
        .error (.invalidRequest ("predicate missing property name: " ++ text))
      else
        match parseQuotedValue (trim (trimStartMatches (· == '=') rawValue)) with
        | .error e => .error e
        | .ok value => .ok ⟨trim name, value⟩

/-- The loop over `[…]` groups. `pending` is the group read so far, if one is open; the
result carries the text left over after the last group. -/
def parsePredicates (expression : String) :
    Option (List Char) → List Char → Except TransportError (List FilterPredicate × List Char)
  | none, [] => .ok ([], [])
  | none, c :: rest =>
    if c == '[' then parsePredicates expression (some ['[']) rest else .ok ([], c :: rest)
  | some _, [] => .error (.invalidRequest ("unclosed predicate in " ++ expression))
  | some pending, c :: rest =>
    if c == ']' then
      match parsePredicate (.ofList (pending ++ [']'])) with
      | .error e => .error e
      | .ok predicate =>
        match parsePredicates expression none rest with
        | .error e => .error e
        | .ok (more, trailing) => .ok (predicate :: more, trailing)
    else parsePredicates expression (some (pending ++ [c])) rest

def parseFilter (expression : String) : Except TransportError FilterExpression :=
  match stripPrefix "//" (trim expression) with
  | none => .error (.invalidRequest ("filter must start with //, got '" ++ expression ++ "'"))
  | some body =>
    let (head, cursor) := (splitAtChar '[' body).getD (body, "")
    if isEmpty (trim head) then
      .error (.invalidRequest "filter missing class name after //")
    else
      match parsePredicates expression none cursor.toList with
      | .error e => .error e
      | .ok (predicates, trailing) =>
        if isEmpty (trim (.ofList trailing)) then .ok ⟨trim head, predicates⟩
        else .error (.invalidRequest ("unexpected trailing filter text: '" ++
          .ofList trailing ++ "'"))

def propertyValueMatches (actual : Value) (expected : String) : Bool :=
  match actual with
  | .string text => text == expected
  | .number text => text == expected
  | .bool flag => (if flag then "true" else "false") == expected
  | other => trimMatches (· == '"') other.toText == expected

def presentValue (i : MimInstance) (name : String) : Option Value :=
  (i.property name).bind fun property => property.value.asOption

def instanceMatches (i : MimInstance) (filter : FilterExpression) : Bool :=
  i.className == filter.className &&
    filter.predicates.all fun predicate =>
      (presentValue i predicate.propertyName).any (propertyValueMatches · predicate.value)

example : parseFilter "//Target[@nameText='A'][status=\"ACTIVE\"]" =
    .ok ⟨"Target", [⟨"nameText", "A"⟩, ⟨"status", "ACTIVE"⟩]⟩ := by decide
example : parseFilter "//Target[@nameText='A'" =
    .error (.invalidRequest "unclosed predicate in //Target[@nameText='A'") := by decide

end MimTransport
