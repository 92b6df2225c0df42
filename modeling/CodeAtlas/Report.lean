/-
The facts about a repository for people to read. Parts of the text may be painted: a sequence
that switches a style on comes before them and one that switches all styles off behind them.
-/
import CodeAtlas.Facts

namespace CodeAtlas.Report

/-! ### Paint -/

/-- How a part of the text looks. -/
inductive Style where
  | bold
  | dimmed
  | red
  | green
  | yellow
  | boldYellow
  | blue
  | boldCyan
deriving DecidableEq, Repr

/-- The numbers that switch a style on. -/
def Style.codes : Style → List Char
  | .bold => ['1']
  | .dimmed => ['2']
  | .red => ['3', '1']
  | .green => ['3', '2']
  | .yellow => ['3', '3']
  | .boldYellow => ['1', ';', '3', '3']
  | .blue => ['3', '4']
  | .boldCyan => ['1', ';', '3', '6']

/-- The sequence that gives some numbers to the terminal. -/
def control (codes : List Char) : List Char := ['\x1b', '['] ++ codes ++ ['m']

/-- The sequence that switches all styles off. -/
def reset : List Char := control ['0']

/-- A text in which every sequence that switches styles off is followed by another one. -/
def resume (sequence : List Char) : List Char → List Char
  | '\x1b' :: '[' :: '0' :: 'm' :: rest => reset ++ sequence ++ resume sequence rest
  | char :: rest => char :: resume sequence rest
  | [] => []

/-- A text in a style, if paint is used. -/
def paint (painted : Bool) (style : Style) (text : List Char) : List Char :=
  if painted then control style.codes ++ resume (control style.codes) text ++ reset else text

/-! ### Columns -/

/-- A text with blanks behind it up to a width. -/
def padRight (width : Nat) (text : List Char) : List Char :=
  text ++ List.replicate (width - text.length) ' '

/-- A text with blanks before it up to a width. -/
def padLeft (width : Nat) (text : List Char) : List Char :=
  List.replicate (width - text.length) ' ' ++ text

/-- A number. -/
def number (value : Nat) : List Char := Nat.toDigits 10 value

/-! ### Lines -/

/-- The version that the report names. -/
def version : String := "0.1.0"

/-- The name of the program and what it looked at. -/
def header (painted : Bool) (path : String) : List Char :=
  "\n  ".toList ++ paint painted .boldCyan "archmap".toList ++ " v".toList ++ version.toList ++
    "\n\n  ".toList ++ paint painted .dimmed "Analyzing: ".toList ++ path.toList ++ "\n\n".toList

/-- How much was found. -/
def summary (painted : Bool) (atlas : Atlas) : List Char :=
  "  ".toList ++ paint painted .bold (number atlas.totalFiles) ++ " files  ".toList ++
    paint painted .bold (number atlas.totalFunctions) ++ " functions  ".toList ++
    paint painted .bold (number atlas.edges.length) ++ " cross-file calls\n\n".toList

/-- The style of a complexity: the higher it is, the louder. -/
def complexityStyle (complexity : Nat) : Style :=
  if complexity ≤ 5 then .green
  else if complexity ≤ 10 then .yellow
  else if complexity ≤ 20 then .boldYellow
  else .red

/-- The line of a function. -/
def functionLine (painted : Bool) (function : FunctionFacts) : List Char :=
  let complexity := function.complexity.toNat
  "    ".toList ++ padRight 32 function.name.toList ++
    paint painted (complexityStyle complexity) ("cc ".toList ++ padLeft 3 (number complexity)) ++
    "  ".toList ++
    paint painted .dimmed
      ("L".toList ++ number function.startLine ++ "-".toList ++ number function.endLine) ++
    "\n".toList

/-- The line of the imports, if there are any. -/
def importsLine (painted : Bool) (imports : List String) : List Char :=
  if imports.isEmpty then []
  else
    "    ".toList ++ paint painted .dimmed "imports:".toList ++ " ".toList ++
      (", ".intercalate imports).toList ++ "\n".toList

/-- The lines of a file. -/
def fileLines (painted : Bool) (file : FileFacts) : List Char :=
  "  ".toList ++ paint painted .blue file.path.toList ++ "  ".toList ++
    paint painted .dimmed
      (file.language.name.toList ++ " · ".toList ++ number file.totalLines ++ " lines".toList) ++
    "\n".toList ++ importsLine painted file.imports ++
    file.functions.flatMap (functionLine painted) ++ "\n".toList

/-- The line of an edge. -/
def edgeLine (painted : Bool) (edge : CallEdge) : List Char :=
  "    ".toList ++ edge.source.toList ++ " ".toList ++ paint painted .dimmed "→".toList ++
    " ".toList ++ edge.target.toList ++ "\n".toList

/-- The lines of the edges, if there are any. -/
def edgeLines (painted : Bool) (edges : List CallEdge) : List Char :=
  if edges.isEmpty then []
  else
    "  ".toList ++ paint painted .bold "Cross-file calls".toList ++ " (".toList ++
      number edges.length ++ "):\n".toList ++ edges.flatMap (edgeLine painted) ++ "\n".toList

/-- The report about what was found at a path. -/
def text (painted : Bool) (path : String) (atlas : Atlas) : List Char :=
  header painted path ++ summary painted atlas ++ atlas.files.flatMap (fileLines painted) ++
    edgeLines painted atlas.edges

end CodeAtlas.Report
