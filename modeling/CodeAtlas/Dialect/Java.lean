/-
Java. Parameters are shown as they stand.
-/
import CodeAtlas.Dialect.Basic

namespace CodeAtlas.Dialect.Java

open CodeAtlas.Syntax

/-- The parameters of a definition. -/
def parameters (source : Source) (node : Node) : List String :=
  match node.child? "parameters" with
  | some list => showParameters source.stringOf list
  | none => []

/-- A method is called by its name. -/
def calleeNode? (node : Node) : Option Node :=
  if node.kind == "method_invocation" then node.child? "name" else none

/-- The name of what is imported, without a star behind it. -/
def importNodes (_ : Source) (node : Node) : List Node :=
  if node.kind == "import_declaration" then
    node.namedChildren.filter fun child =>
      child.kind == "scoped_identifier" || child.kind == "identifier"
  else []

/-- What the analysis knows about Java. -/
def dialect : Dialect where
  language := .java
  functionKinds := ["method_declaration", "constructor_declaration"]
  decisionKinds :=
    ["if_statement", "for_statement", "enhanced_for_statement", "while_statement",
      "do_statement", "try_statement", "catch_clause", "switch_expression", "ternary_expression",
      "binary_expression"]
  builtins := ["System", "println", "print", "new", "toString", "equals", "hashCode"]
  nameNode? := fun node => node.child? "name"
  parameters := parameters
  returnTypeNode? := fun node => node.child? "type"
  calleeNode? := calleeNode?
  importNodes := importNodes
  importText? := trimmed?

end CodeAtlas.Dialect.Java
