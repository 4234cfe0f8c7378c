/-!
Quoted texts in messages: quotes and backslashes are escaped, and so are characters that would not
show on their own.
-/
namespace GpuPlacement

/-- Control and format characters, blanks other than the space, the blocks of combining marks, and
code points without a character of their own, as inclusive ranges. -/
def hiddenRanges : List (Nat × Nat) :=
  [(0x00, 0x1F), (0x7F, 0xA0), (0xAD, 0xAD), (0x300, 0x36F), (0x483, 0x489), (0x591, 0x5BD),
    (0x61C, 0x61C), (0x64B, 0x65F), (0x1680, 0x1680), (0x180B, 0x180F), (0x1AB0, 0x1ACE),
    (0x1DC0, 0x1DFF), (0x2000, 0x200F), (0x2028, 0x202F), (0x205F, 0x206F), (0x20D0, 0x20F0),
    (0x3000, 0x3000), (0x302A, 0x302D), (0x3099, 0x309A), (0xE000, 0xF8FF), (0xFE00, 0xFE0F),
    (0xFE20, 0xFE2F), (0xFEFF, 0xFEFF), (0xFFF0, 0xFFFB), (0xFFFE, 0xFFFF), (0xE0000, 0xE0FFF),
    (0xF0000, 0x10FFFF)]

def isHidden (c : Char) : Bool :=
  hiddenRanges.any fun range => range.1 ≤ c.toNat && c.toNat ≤ range.2

/-- A character between quotes; the code of a hidden one stands in braces, in hexadecimal
digits. -/
def quotedChar (c : Char) : List Char :=
  match c with
  | '"' => ['\\', '"']
  | '\\' => ['\\', '\\']
  | '\n' => ['\\', 'n']
  | '\r' => ['\\', 'r']
  | '\t' => ['\\', 't']
  | '\x00' => ['\\', '0']
  | c =>
    if isHidden c then ['\\', 'u', '\x7b'] ++ Nat.toDigits 16 c.toNat ++ ['\x7d'] else [c]

def quoteText (text : String) : String :=
  String.ofList ('"' :: text.toList.flatMap quotedChar ++ ['"'])

end GpuPlacement
