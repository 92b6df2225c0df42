/-
Python. A parameter with an annotation is shown with it, one with only a default value with an
ellipsis in its place.
-/
import CodeAtlas.Dialect.Basic

namespace CodeAtlas.Dialect.Python

open CodeAtlas.Syntax

/-- A parameter as it is shown. -/
def showParameter (source : Source) (parameter : Node) : String :=
  let whole := source.stringOf parameter
  let field? := fieldText? source parameter
  match parameter.kind with
  | "typed_parameter" =>
    match field? "type" with
    | some type =>
      let name := (parameter.namedChildren.head?.map source.stringOf).getD ""
      s!"{name}: {type}"
    | none => whole
  | "typed_default_parameter" =>
    match field? "name", field? "type" with
    | some name, some type => s!"{name}: {type}"
    | _, _ => whole
  | "default_parameter" =>
    match field? "name" with
    | some name => s!"{name}=..."
    | none => whole
  | _ => whole

/-- The parameters of a definition. -/
def parameters (source : Source) (node : Node) : List String :=
  match node.child? "parameters" with
  | some list => showParameters (showParameter source) list
  | none => []

/-- A function is called by its name, a method by the name of its attribute. -/
def calleeNode? (node : Node) : Option Node :=
  if node.kind != "call" then none
  else
    match node.child? "function" with
    | none => none
    | some function =>
      match function.kind with
      | "identifier" => some function
      | "attribute" => function.child? "attribute"
      | _ => none

/-- A statement may import several modules, each perhaps under another name. -/
def importNodes (_ : Source) (node : Node) : List Node :=
  match node.kind with
  | "import_statement" =>
    (node.inField "name").flatMap fun child =>
      match child.kind with
      | "dotted_name" => [child]
      | "aliased_import" => inFieldOfKind child "name" "dotted_name"
      | _ => []
  | "import_from_statement" => (node.inField "module_name").filter Node.isNamed
  | _ => []

/-- What the analysis knows about Python. -/
def dialect : Dialect where
  language := .python
  functionKinds := ["function_definition"]
  decisionKinds :=
    ["if_statement", "elif_clause", "for_statement", "while_statement", "try_statement",
      "except_clause", "with_statement", "conditional_expression", "boolean_operator",
      "list_comprehension", "dictionary_comprehension", "set_comprehension",
      "generator_expression", "case_clause"]
  builtins :=
    ["print", "len", "str", "int", "float", "list", "dict", "set", "tuple", "range", "open",
      "type", "isinstance", "hasattr", "getattr", "setattr", "super", "map", "filter", "zip",
      "enumerate", "sorted", "reversed", "min", "max", "sum", "abs", "round", "format", "input",
      "bool", "bytes"]
  nameNode? := fun node => node.child? "name"
  parameters := parameters
  returnTypeNode? := fun node => node.child? "return_type"
  calleeNode? := calleeNode?
  importNodes := importNodes
  importText? := trimmed?

end CodeAtlas.Dialect.Python
