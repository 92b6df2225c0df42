/-
JavaScript, and what TypeScript shares with it. A function without a name of its own takes the
name of the variable that it is the value of.
-/
import CodeAtlas.Dialect.Basic

namespace CodeAtlas.Dialect.JavaScript

open CodeAtlas.Syntax

/-- The kinds of nodes that define functions. -/
def functionKinds : List String :=
  ["function_declaration", "generator_function_declaration", "function_expression",
    "arrow_function", "method_definition"]

/-- The kinds of nodes that are decisions. -/
def decisionKinds : List String :=
  ["if_statement", "for_statement", "for_in_statement", "while_statement", "do_statement",
    "with_statement", "switch_case", "try_statement", "catch_clause", "ternary_expression",
    "binary_expression"]

/-- The names that are never recorded as callees. -/
def builtins : List String :=
  ["console", "require", "import", "export", "setTimeout", "setInterval", "clearTimeout",
    "clearInterval", "fetch", "Promise", "Array", "Object", "String", "Number", "Boolean", "JSON",
    "Math", "Date", "RegExp", "Error"]

/-- The kinds of names that a definition can carry itself. -/
def ownNameKinds : List String :=
  ["identifier", "property_identifier", "private_property_identifier"]

/-- The name that a definition carries, or the name of the variable whose value it is. -/
def nameNode? (node : Node) : Option Node :=
  match node.child? "name" with
  | some name => if ownNameKinds.contains name.kind then some name else none
  | none =>
    if (node.above.map Tree.kind) == some "variable_declarator" && node.fills "value" then
      (node.sibling? "name").filter (·.kind == "identifier")
    else none

/-- Parameters in parentheses are shown one by one, a single one without them as it stands. -/
def parametersBy (render : Node → String) (source : Source) (node : Node) : List String :=
  match (node.child? "parameters").or (node.child? "parameter") with
  | some list =>
    if list.kind == "formal_parameters" then showParameters render list
    else [source.stringOf list]
  | none => []

/-- A parameter as it is shown, with an ellipsis in place of a default value. -/
def showParameter (source : Source) (parameter : Node) : String :=
  match parameter.kind, fieldText? source parameter "left" with
  | "assignment_pattern", some left => s!"{left}=..."
  | _, _ => source.stringOf parameter

/-- A function is called by its name, a method by the name of its property. -/
def calleeNode? (node : Node) : Option Node :=
  if node.kind != "call_expression" then none
  else
    match node.child? "function" with
    | none => none
    | some function =>
      match function.kind with
      | "identifier" => some function
      | "member_expression" => function.child? "property"
      | _ => none

/-- The first argument of a call, if it is a string. -/
def firstString (arguments : Node) : List Node :=
  (arguments.namedChildren.take 1).filter (·.kind == "string")

/-- Modules are named by import statements and by calls that require them. -/
def importNodes (source : Source) (node : Node) : List Node :=
  match node.kind with
  | "import_statement" => inFieldOfKind node "source" "string"
  | "call_expression" =>
    let requires :=
      (inFieldOfKind node "function" "identifier").any (source.stringOf · == "require")
    if requires then (inFieldOfKind node "arguments" "arguments").flatMap firstString else []
  | _ => []

/-- A module's name without the quotes around it, of one byte each. -/
def importText? (text : List Char) : Option (List Char) :=
  match text with
  | first :: rest =>
    match rest.getLast? with
    | some last =>
      if first.utf8Size = 1 ∧ last.utf8Size = 1 then nonempty? rest.dropLast else none
    | none => none
  | [] => none

/-- What the analysis knows about JavaScript. -/
def dialect : Dialect where
  language := .javascript
  functionKinds := functionKinds
  decisionKinds := decisionKinds
  builtins := builtins
  nameNode? := nameNode?
  parameters := fun source => parametersBy (showParameter source) source
  returnTypeNode? := fun _ => none
  calleeNode? := calleeNode?
  importNodes := importNodes
  importText? := importText?

end CodeAtlas.Dialect.JavaScript
