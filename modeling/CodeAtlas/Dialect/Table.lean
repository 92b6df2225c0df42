/-
The dialect of each language.
-/
import CodeAtlas.Dialect.Python
import CodeAtlas.Dialect.TypeScript
import CodeAtlas.Dialect.Java
import CodeAtlas.Dialect.Cpp
import CodeAtlas.Dialect.Rust

namespace CodeAtlas

/-- What the analysis knows about a language. -/
def Language.dialect : Language → Dialect
  | .python => Dialect.Python.dialect
  | .javascript => Dialect.JavaScript.dialect
  | .typescript => Dialect.TypeScript.dialect
  | .java => Dialect.Java.dialect
  | .cpp => Dialect.Cpp.dialect
  | .rust => Dialect.Rust.dialect

end CodeAtlas
