/-
Blank characters: those with the White_Space property. The zero width space and the byte order
mark are not blank; the no-break space and the next-line character are.
-/

namespace CodeAtlas.Text

/-- Whether a character is white space. -/
def isBlank (char : Char) : Bool :=
  let code := char.toNat
  (0x09 ≤ code && code ≤ 0x0D) || code == 0x20 || code == 0x85 || code == 0xA0 ||
    code == 0x1680 || (0x2000 ≤ code && code ≤ 0x200A) || code == 0x2028 || code == 0x2029 ||
    code == 0x202F || code == 0x205F || code == 0x3000

/-- A text without the characters of a class at its two ends. -/
def trimBy (member : Char → Bool) (text : List Char) : List Char :=
  ((text.dropWhile member).reverse.dropWhile member).reverse

/-- A text without the blanks at its two ends. -/
def trim (text : List Char) : List Char := trimBy isBlank text

/-- Whether a text holds nothing but blanks. -/
def isBlankText (text : List Char) : Bool := text.all isBlank

end CodeAtlas.Text
