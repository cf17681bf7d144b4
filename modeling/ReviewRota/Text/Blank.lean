/-!
# Blank text

A code point is blank when it has the property White_Space.  Zero-width characters, the byte order
mark and the separators U+001C to U+001F do not have it.
-/

namespace ReviewRota.Text

def blankRanges : List (Nat × Nat) :=
  [(0x9, 0xD), (0x20, 0x20), (0x85, 0x85), (0xA0, 0xA0), (0x1680, 0x1680), (0x2000, 0x200A),
   (0x2028, 0x2029), (0x202F, 0x202F), (0x205F, 0x205F), (0x3000, 0x3000)]

def isBlankChar (c : Char) : Bool :=
  blankRanges.any fun (first, last) => first ≤ c.toNat && c.toNat ≤ last

def isBlank (s : String) : Bool :=
  s.toList.all isBlankChar

def trimEnd (cs : List Char) : List Char :=
  (cs.reverse.dropWhile isBlankChar).reverse

def trim (cs : List Char) : List Char :=
  trimEnd (cs.dropWhile isBlankChar)

example : isBlank "\u2003\t\u00a0" = true ∧ isBlank "\u200b" = false := by decide

end ReviewRota.Text
