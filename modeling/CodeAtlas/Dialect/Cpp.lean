/-
C++. The name of a definition is inside its declarator, perhaps behind pointers, references,
parentheses and attributes, and perhaps qualified; its rightmost part counts.
-/
import CodeAtlas.Dialect.Basic

namespace CodeAtlas.Dialect.Cpp

open CodeAtlas.Syntax

/-- The declarators that only wrap another. -/
def wrappers : List String :=
  ["pointer_declarator", "reference_declarator", "parenthesized_declarator",
    "attributed_declarator"]

/-- What a declarator wraps: the node in its field, or else its last named node. -/
def wrapped? (declarator : Node) : Option Node :=
  (declarator.child? "declarator").or declarator.namedChildren.getLast?

theorem mem_children_of_wrapped? {declarator inner : Node}
    (found : wrapped? declarator = some inner) : inner ∈ declarator.children := by
  unfold wrapped? at found
  rcases Option.or_eq_some_iff.mp found with field | ⟨_, last⟩
  · exact Node.mem_children_of_child? field
  · exact (List.mem_filter.mp (List.mem_of_getLast? last)).1

/-- The first declarator that wraps nothing. -/
def unwrap? (declarator : Node) : Option Node :=
  if wrappers.contains declarator.kind then
    match found : wrapped? declarator with
    | some inner =>
      have := Node.size_lt_of_mem_children (mem_children_of_wrapped? found)
      unwrap? inner
    | none => none
  else some declarator
termination_by declarator.tree.size

/-- The declarator of the function that a node defines. -/
def functionDeclarator? (node : Node) : Option Node :=
  ((node.child? "declarator").bind unwrap?).filter (·.kind == "function_declarator")

/-- The kinds of names that are not qualified. -/
def simpleNames : List String :=
  ["identifier", "field_identifier", "destructor_name", "operator_name"]

/-- The kinds of names that have a name at their right. -/
def qualifiedNames : List String :=
  ["qualified_identifier", "template_function", "template_method"]

/-- The rightmost part of a name. -/
def rightmostName? (node : Node) : Option Node :=
  if simpleNames.contains node.kind then some node
  else if qualifiedNames.contains node.kind then
    match found : node.child? "name" with
    | some name =>
      have := Node.size_lt_of_mem_children (Node.mem_children_of_child? found)
      rightmostName? name
    | none => none
  else none
termination_by node.tree.size

/-- The name of a definition. -/
def nameNode? (node : Node) : Option Node :=
  ((functionDeclarator? node).bind fun declarator => declarator.child? "declarator").bind
    rightmostName?

/-- The parameters of a definition. -/
def parameters (source : Source) (node : Node) : List String :=
  match (functionDeclarator? node).bind fun declarator => declarator.child? "parameters" with
  | some list => showParameters source.stringOf list
  | none => []

/-- A member is called by its name, anything else by the rightmost part of its name. -/
def calleeNode? (node : Node) : Option Node :=
  if node.kind != "call_expression" then none
  else
    match node.child? "function" with
    | none => none
    | some function =>
      if function.kind == "field_expression" then function.child? "field"
      else rightmostName? function

/-- The header that a directive includes. -/
def importNodes (_ : Source) (node : Node) : List Node :=
  if node.kind == "preproc_include" then
    (node.inField "path").filter fun child =>
      child.isNamed && (child.kind == "string_literal" || child.kind == "system_lib_string")
  else []

/-- A header without the quotes or brackets around it. -/
def importText? (text : List Char) : Option (List Char) :=
  nonempty? (Text.trimBy (fun char => char == '"' || char == '<' || char == '>') text)

/-- What the analysis knows about C++. -/
def dialect : Dialect where
  language := .cpp
  functionKinds := ["function_definition"]
  decisionKinds :=
    ["if_statement", "for_statement", "for_range_loop", "while_statement", "do_statement",
      "try_statement", "catch_clause", "case_statement", "conditional_expression",
      "binary_expression"]
  builtins := ["std", "cout", "cin", "printf", "scanf", "sizeof", "malloc", "free"]
  nameNode? := nameNode?
  parameters := parameters
  returnTypeNode? := fun node => node.child? "type"
  calleeNode? := calleeNode?
  importNodes := importNodes
  importText? := importText?

end CodeAtlas.Dialect.Cpp
