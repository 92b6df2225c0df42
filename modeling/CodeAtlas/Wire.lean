/-
The written form of facts. Every record is written as an object whose keys are its fields in
their order, and is read back from any JSON text of its form.
-/
import CodeAtlas.Facts
import CodeAtlas.Json.Printer
import CodeAtlas.Json.Reader

namespace CodeAtlas

open CodeAtlas.Json

namespace Wire

/-! ### Reading -/

/-- Takes a number of lines, files or functions. -/
def readCount : Reader Nat := readNatural UInt64.size "usize"

/-- Takes a list of texts. -/
def readTexts : Reader (List String) := readList readText

/-- Takes a language by its name. -/
def readLanguage : Reader Language :=
  readChoice (Language.all.map (·.name)) Language.ofName?

/-- The form of a function. -/
def functionShape : Shape FunctionFacts where
  title := "struct FunctionRecord"
  blank := ⟨"", "", [], "", 0, 0, 0, 0, "", .empty⟩
  fields :=
    [.of "functionName" readText fun facts value => { facts with key := value },
      .of "name" readText fun facts value => { facts with name := value },
      .of "parameters" readTexts fun facts value => { facts with parameters := value },
      .of "returnType" readText fun facts value => { facts with returnType := value },
      .of "complexity" (readNatural UInt32.size "u32") fun facts value =>
        { facts with complexity := .ofNat value },
      .of "startLine" readCount fun facts value => { facts with startLine := value },
      .of "endLine" readCount fun facts value => { facts with endLine := value },
      .of "lines" readCount fun facts value => { facts with lines := value },
      .of "code" readText fun facts value => { facts with code := value },
      .of "calls" readTexts fun facts value => { facts with calls := .ofList value }]

/-- The form of a file. -/
def fileShape : Shape FileFacts where
  title := "struct FileRecord"
  blank := ⟨"", .python, [], [], 0, 0⟩
  fields :=
    [.of "filePath" readText fun facts value => { facts with path := value },
      .of "language" readLanguage fun facts value => { facts with language := value },
      .of "imports" readTexts fun facts value => { facts with imports := value },
      .of "listOfFunctions" (readList functionShape.read) fun facts value =>
        { facts with functions := value },
      .of "totalLines" readCount fun facts value => { facts with totalLines := value },
      .of "totalFunctions" readCount fun facts value => { facts with totalFunctions := value }]

/-- The form of an edge. -/
def edgeShape : Shape CallEdge where
  title := "struct CallEdge"
  blank := ⟨"", "", "", ""⟩
  fields :=
    [.of "source" readText fun edge value => { edge with source := value },
      .of "target" readText fun edge value => { edge with target := value },
      .of "sourceFile" readText fun edge value => { edge with sourceFile := value },
      .of "targetFile" readText fun edge value => { edge with targetFile := value }]

/-- The form of the facts about a repository. -/
def atlasShape : Shape Atlas where
  title := "struct ArchitectureMap"
  blank := {}
  fields :=
    [.of "listOfFiles" (readList fileShape.read) fun atlas value => { atlas with files := value },
      .of "edges" (readList edgeShape.read) fun atlas value => { atlas with edges := value },
      .of "totalFiles" readCount fun atlas value => { atlas with totalFiles := value },
      .of "totalFunctions" readCount fun atlas value =>
        { atlas with totalFunctions := value }]

/-! ### Writing -/

/-- A text as a value. -/
def text (value : String) : Value := .string value.toList

/-- A list of texts as a value. -/
def texts (values : List String) : Value := .list (values.map text)

/-- A function as a value. -/
def functionValue (facts : FunctionFacts) : Value :=
  .object
    [("functionName", text facts.key), ("name", text facts.name),
      ("parameters", texts facts.parameters), ("returnType", text facts.returnType),
      ("complexity", .natural facts.complexity.toNat), ("startLine", .natural facts.startLine),
      ("endLine", .natural facts.endLine), ("lines", .natural facts.lines),
      ("code", text facts.code), ("calls", texts facts.calls.names)]

/-- A file as a value. -/
def fileValue (facts : FileFacts) : Value :=
  .object
    [("filePath", text facts.path), ("language", text facts.language.name),
      ("imports", texts facts.imports),
      ("listOfFunctions", .list (facts.functions.map functionValue)),
      ("totalLines", .natural facts.totalLines),
      ("totalFunctions", .natural facts.totalFunctions)]

/-- An edge as a value. -/
def edgeValue (edge : CallEdge) : Value :=
  .object
    [("source", text edge.source), ("target", text edge.target),
      ("sourceFile", text edge.sourceFile), ("targetFile", text edge.targetFile)]

/-- The facts about a repository as a value. -/
def atlasValue (atlas : Atlas) : Value :=
  .object
    [("listOfFiles", .list (atlas.files.map fileValue)),
      ("edges", .list (atlas.edges.map edgeValue)), ("totalFiles", .natural atlas.totalFiles),
      ("totalFunctions", .natural atlas.totalFunctions)]

end Wire

namespace Atlas

/-- The facts in a JSON text. -/
def parse (text : String) : Except Json.Fault Atlas := Json.parse Wire.atlasShape.read text.toList

/-- The facts as a JSON text. -/
def toJson (atlas : Atlas) : String := String.ofList ((Wire.atlasValue atlas).write 0)

end Atlas

end CodeAtlas
