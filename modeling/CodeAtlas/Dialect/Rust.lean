/-
Rust. A parameter is shown as its pattern and its type; a callee with type arguments is the
function that they are given to.
-/
import CodeAtlas.Dialect.Basic

namespace CodeAtlas.Dialect.Rust

open CodeAtlas.Syntax

/-- A parameter as it is shown. -/
def showParameter (source : Source) (parameter : Node) : String :=
  match parameter.kind, fieldText? source parameter "pattern",
      fieldText? source parameter "type" with
  | "parameter", some pattern, some type => s!"{pattern}: {type}"
  | _, _, _ => source.stringOf parameter

/-- The parameters of a definition. -/
def parameters (source : Source) (node : Node) : List String :=
  match node.child? "parameters" with
  | some list => showParameters (showParameter source) list
  | none => []

/-- The name in what is called: of a field or a path its last part. -/
def calledName? (function : Node) : Option Node :=
  match function.kind with
  | "identifier" => some function
  | "field_expression" => function.child? "field"
  | "scoped_identifier" => function.child? "name"
  | "generic_function" =>
    match found : function.child? "function" with
    | some inner =>
      have := Node.size_lt_of_mem_children (Node.mem_children_of_child? found)
      calledName? inner
    | none => none
  | _ => none
termination_by function.tree.size

/-- The name of what a call calls. -/
def calleeNode? (node : Node) : Option Node :=
  if node.kind == "call_expression" then (node.child? "function").bind calledName? else none

/-- The paths that a declaration uses. A path under another name is shown without it. -/
def importNodes (_ : Source) (node : Node) : List Node :=
  if node.kind == "use_declaration" then
    (node.inField "argument").flatMap fun child =>
      match child.kind with
      | "scoped_identifier" | "identifier" | "use_list" | "scoped_use_list" | "use_wildcard" =>
        if child.isNamed then [child] else []
      | "use_as_clause" => (child.inField "path").filter Node.isNamed
      | _ => []
  else []

/-- What the analysis knows about Rust. -/
def dialect : Dialect where
  language := .rust
  functionKinds := ["function_item"]
  decisionKinds :=
    ["if_expression", "for_expression", "while_expression", "loop_expression", "match_arm",
      "binary_expression"]
  builtins :=
    ["println", "print", "vec", "Some", "None", "Ok", "Err", "Box", "Rc", "Arc"]
  nameNode? := fun node => node.child? "name"
  parameters := parameters
  returnTypeNode? := fun node => node.child? "return_type"
  calleeNode? := calleeNode?
  importNodes := importNodes
  importText? := trimmed?

end CodeAtlas.Dialect.Rust
