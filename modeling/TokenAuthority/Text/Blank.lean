/-!
# White space

The characters with the Unicode property `White_Space`, and trimming of text by them. The class is
wider than `Char.isWhitespace`, which knows four ASCII characters.
-/

namespace TokenAuthority.Blank

/-- Whether a character has the property `White_Space`. -/
def isBlank (c : Char) : Bool :=
  let n := c.toNat
  (9 ≤ n && n ≤ 13) || n == 0x20 || n == 0x85 || n == 0xA0 || n == 0x1680
    || (0x2000 ≤ n && n ≤ 0x200A) || n == 0x2028 || n == 0x2029 || n == 0x202F
    || n == 0x205F || n == 0x3000

/-- Drops white space at the front of a list of characters. -/
def trimFront (cs : List Char) : List Char :=
  cs.dropWhile isBlank

/-- Drops white space at the end of a list of characters. -/
def trimBack (cs : List Char) : List Char :=
  (cs.reverse.dropWhile isBlank).reverse

def trim (text : String) : String :=
  String.ofList (trimBack (trimFront text.toList))

/-- A text of white space alone, the empty text included. -/
def isBlankText (text : String) : Bool :=
  text.toList.all isBlank

end TokenAuthority.Blank
