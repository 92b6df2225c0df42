/-
TypeScript. Names, calls and imports are those of JavaScript; parameters and return types may
carry annotations.
-/
import CodeAtlas.Dialect.JavaScript

namespace CodeAtlas.Dialect.TypeScript

open CodeAtlas.Syntax

/-- The type in an annotation. -/
def annotation? (node : Node) (name : String) : Option Node :=
  (node.child? name).bind fun annotation => annotation.namedChildren.head?

/-- A parameter as it is shown: with its type, or with an ellipsis in place of a default
value. -/
def showParameter (source : Source) (parameter : Node) : String :=
  let isOptional := parameter.kind == "optional_parameter"
  match fieldText? source parameter "pattern" with
  | some pattern =>
    if isOptional || parameter.kind == "required_parameter" then
      let name := if isOptional then pattern ++ "?" else pattern
      match annotation? parameter "type" with
      | some type => name ++ ": " ++ source.stringOf type
      | none => if (parameter.child? "value").isSome then name ++ "=..." else name
    else source.stringOf parameter
  | none => source.stringOf parameter

/-- What the analysis knows about TypeScript. -/
def dialect : Dialect where
  language := .typescript
  functionKinds := JavaScript.functionKinds
  decisionKinds := JavaScript.decisionKinds
  builtins := JavaScript.builtins
  nameNode? := JavaScript.nameNode?
  parameters := fun source => JavaScript.parametersBy (showParameter source) source
  returnTypeNode? := fun node => annotation? node "return_type"
  calleeNode? := JavaScript.calleeNode?
  importNodes := JavaScript.importNodes
  importText? := JavaScript.importText?

end CodeAtlas.Dialect.TypeScript
