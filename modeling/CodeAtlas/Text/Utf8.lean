/-
Text from bytes. A byte sequence is read as UTF-8 from its front to its end, piece by piece. A
piece is the first byte with those behind it that an encoding may go on with, as far as the
first byte announces them. A piece that is a whole encoding is a character; any other piece is
the start of an encoding that breaks off, or a byte that starts none. Such a piece is dropped
where a source is read, and shown as one replacement character where a name is.
-/

namespace CodeAtlas.Text

/-- The bytes of a character. -/
def encodeChar (char : Char) : List UInt8 := String.utf8EncodeChar char

/-- The bytes of a text. -/
def encode (text : List Char) : List UInt8 := text.flatMap encodeChar

/-! ### Pieces -/

/-- Whether a byte goes on with an encoding and starts none. -/
def isContinuation (byte : UInt8) : Bool := 0x80 ≤ byte && byte < 0xC0

/-- How many bytes an encoding has that starts with a byte; none starts with a byte of width
zero. -/
def width (first : UInt8) : Nat :=
  if first < 0x80 then 1
  else if first < 0xC2 then 0
  else if first < 0xE0 then 2
  else if first < 0xF0 then 3
  else if first < 0xF5 then 4
  else 0

/-- Whether a byte may come second behind a first byte. Encodings that are longer than needed,
those of surrogates and those beyond the last character are refused here. -/
def fits (first second : UInt8) : Bool :=
  if first = 0xE0 then 0xA0 ≤ second && second < 0xC0
  else if first = 0xED then 0x80 ≤ second && second < 0xA0
  else if first = 0xF0 then 0x90 ≤ second && second < 0xC0
  else if first = 0xF4 then 0x80 ≤ second && second < 0x90
  else isContinuation second

/-- The bytes behind a first byte that belong to its piece. -/
def trail (first : UInt8) (rest : List UInt8) : List UInt8 :=
  match rest.take (width first - 1) with
  | [] => []
  | second :: others => if fits first second then second :: others.takeWhile isContinuation else []

/-- Whether a first byte and its trail are a whole encoding. -/
def isWhole (first : UInt8) (trail : List UInt8) : Bool := trail.length + 1 = width first

/-- The bits of a first byte that belong to the code of the character. -/
def leadBits (first : UInt8) : Nat :=
  if first < 0x80 then first.toNat
  else if first < 0xE0 then first.toNat % 32
  else if first < 0xF0 then first.toNat % 16
  else first.toNat % 8

/-- The six bits that a continuation byte adds to a code. -/
def continuation (code : Nat) (byte : UInt8) : Nat := code * 64 + byte.toNat % 64

/-- The character of a whole encoding. -/
def charOf (first : UInt8) (trail : List UInt8) : Char :=
  Char.ofNat (trail.foldl continuation (leadBits first))

/-! ### Reading -/

/-- The characters whose encodings stand in some bytes. -/
def decode (bytes : List UInt8) : List Char :=
  match bytes with
  | [] => []
  | first :: rest =>
    let trail := trail first rest
    if isWhole first trail then charOf first trail :: decode (rest.drop trail.length)
    else decode (rest.drop trail.length)
termination_by bytes.length
decreasing_by all_goals simp only [List.length_cons, List.length_drop]; omega

/-- The text of some bytes, if they hold nothing else. -/
def decode? (bytes : List UInt8) : Option (List Char) :=
  let text := decode bytes
  if encode text = bytes then some text else none

/-- What stands for a piece that is no character. -/
def replacement : Char := '\uFFFD'

/-- The characters that some bytes are shown as. -/
def lossy (bytes : List UInt8) : List Char :=
  match bytes with
  | [] => []
  | first :: rest =>
    let trail := trail first rest
    (if isWhole first trail then charOf first trail else replacement) ::
      lossy (rest.drop trail.length)
termination_by bytes.length
decreasing_by simp only [List.length_cons, List.length_drop]; omega

/-- The text that some bytes are shown as. -/
def shown (bytes : List UInt8) : String := String.ofList (lossy bytes)

end CodeAtlas.Text
