/-!
# Blank text

The characters with the Unicode property `White_Space`.
-/

namespace FlatLisp

/-- A character with the property `White_Space`. -/
def isBlankChar (c : Char) : Bool :=
  let n := c.toNat
  (0x09 ≤ n && n ≤ 0x0D) || n == 0x20 || n == 0x85 || n == 0xA0 || n == 0x1680 ||
    (0x2000 ≤ n && n ≤ 0x200A) || n == 0x2028 || n == 0x2029 || n == 0x202F || n == 0x205F ||
    n == 0x3000

/-- Nothing but blank characters. -/
def isBlank (s : String) : Bool := s.toList.all isBlankChar

end FlatLisp
