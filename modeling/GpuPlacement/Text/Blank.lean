/-!
White space in the sense of the Unicode property `White_Space`, and trimming it off both ends.
-/
namespace GpuPlacement

/-- The code points of the property, as inclusive ranges. -/
def blankRanges : List (Nat × Nat) :=
  [(0x09, 0x0D), (0x20, 0x20), (0x85, 0x85), (0xA0, 0xA0), (0x1680, 0x1680), (0x2000, 0x200A),
    (0x2028, 0x2029), (0x202F, 0x202F), (0x205F, 0x205F), (0x3000, 0x3000)]

def isBlank (c : Char) : Bool :=
  blankRanges.any fun range => range.1 ≤ c.toNat && c.toNat ≤ range.2

def dropTrailing (p : Char → Bool) (text : List Char) : List Char :=
  (text.reverse.dropWhile p).reverse

/-- The text between its first and its last character that is not blank. -/
def trimChars (text : List Char) : List Char :=
  dropTrailing isBlank (text.dropWhile isBlank)

def trimBlank (text : String) : String :=
  String.ofList (trimChars text.toList)

/-- ASCII letters in lower case; every other character stays. -/
def lowerChars (text : List Char) : List Char :=
  text.map Char.toLower

def lowerAscii (text : String) : String :=
  String.ofList (lowerChars text.toList)

def upperAscii (text : String) : String :=
  String.ofList (text.toList.map Char.toUpper)

end GpuPlacement
