/-
What the analysis has to know about a language: which nodes define functions and which are
decisions, which node gives a function its name and a call its callee, how parameters and
return types are shown, and where imports are. A name and a callee are nodes of the tree, and
their text is what the tree covers there.
-/
import CodeAtlas.Language
import CodeAtlas.Syntax.Source
import CodeAtlas.Text.Blank

namespace CodeAtlas

open CodeAtlas.Syntax

/-- What the analysis knows about a language. -/
structure Dialect where
  language : Language
  /-- The kinds of nodes that define functions. -/
  functionKinds : List String
  /-- The kinds of nodes that are decisions. -/
  decisionKinds : List String
  /-- The names that are never recorded as callees. -/
  builtins : List String
  /-- The node that gives a definition its name. -/
  nameNode? : Node → Option Node
  /-- The parameters of a definition as they are shown. -/
  parameters : Source → Node → List String
  /-- The node of the return type of a definition. -/
  returnTypeNode? : Node → Option Node
  /-- The node that names what a call calls. -/
  calleeNode? : Node → Option Node
  /-- The nodes of the imports that a node makes. -/
  importNodes : Source → Node → List Node
  /-- What an import is shown as. -/
  importText? : List Char → Option (List Char)

namespace Dialect

/-! ### Nodes -/

/-- The names that lead control and are never callees. -/
def controlWords : List String := ["if", "for", "while", "switch", "catch", "match"]

/-- The tokens that make an expression with two operands a decision. -/
def logicalOperators : List String := ["&&", "||", "and", "or"]

/-- Whether a node defines a function. -/
def isFunction (dialect : Dialect) (node : Node) : Bool :=
  dialect.functionKinds.contains node.kind

/-- Whether a token right below a node is a logical operator. -/
def hasLogicalOperator (node : Node) : Bool :=
  node.children.any fun child => !child.isNamed && logicalOperators.contains child.kind

/-- Whether a node is a decision. An expression with two operands is one only if its operator
is logical. -/
def isDecision (dialect : Dialect) (node : Node) : Bool :=
  dialect.decisionKinds.contains node.kind &&
    (node.kind != "binary_expression" || hasLogicalOperator node)

/-- Whether a name is never recorded as a callee. -/
def isExcluded (dialect : Dialect) (name : String) : Bool :=
  dialect.builtins.contains name || controlWords.contains name

/-! ### Texts -/

/-- The name of a definition. -/
def name? (dialect : Dialect) (source : Source) (node : Node) : Option String :=
  (dialect.nameNode? node).map source.stringOf

/-- The return type of a definition. -/
def returnType? (dialect : Dialect) (source : Source) (node : Node) : Option String :=
  (dialect.returnTypeNode? node).map source.stringOf

/-- What a call calls. -/
def callee? (dialect : Dialect) (source : Source) (node : Node) : Option String :=
  (dialect.calleeNode? node).map source.stringOf

/-- The text of the first node in a field. -/
def fieldText? (source : Source) (node : Node) (name : String) : Option String :=
  (node.child? name).map source.stringOf

/-- Whether a text holds another. -/
def contains (part : List Char) : List Char → Bool
  | [] => part.isEmpty
  | char :: rest => part.isPrefixOf (char :: rest) || contains part rest

/-- Whether a node is a comment. -/
def isComment (node : Node) : Bool := contains "comment".toList node.kind.toList

/-- The parameters in a list, as they are shown. Comments do not count, nor do parameters that
show nothing. -/
def showParameters (render : Node → String) (list : Node) : List String :=
  ((list.namedChildren.filter (!isComment ·)).map render).filter (!·.isEmpty)

/-- A text, unless it is empty. -/
def nonempty? (text : List Char) : Option (List Char) :=
  if text.isEmpty then none else some text

/-- Most imports are shown as they stand, without blanks around them. -/
def trimmed? (text : List Char) : Option (List Char) := nonempty? (Text.trim text)

/-- The named nodes of a kind in a field. -/
def inFieldOfKind (node : Node) (name kind : String) : List Node :=
  (node.inField name).filter fun child => child.isNamed && child.kind == kind

end Dialect

end CodeAtlas
