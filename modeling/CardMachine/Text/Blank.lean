/-!
# White space

The characters with the Unicode property `White_Space`, and what is done with them: trimming and
splitting into words.
-/

namespace CardMachine.Text

/-- Is `c` white space? -/
def isBlank (c : Char) : Bool :=
  let n := c.toNat
  (9 ≤ n && n ≤ 13) || n = 0x20 || n = 0x85 || n = 0xA0 || n = 0x1680 ||
    (0x2000 ≤ n && n ≤ 0x200A) || n = 0x2028 || n = 0x2029 || n = 0x202F || n = 0x205F ||
    n = 0x3000

/-- The first word of a text: the first run of characters that are not white space. -/
def firstWord (cs : List Char) : List Char :=
  (cs.dropWhile isBlank).takeWhile (!isBlank ·)

/-- The number of UTF-8 bytes of a text. -/
def byteLength (cs : List Char) : Nat :=
  cs.foldr (fun c n => c.utf8Size + n) 0

/-- The text with the letters `a` to `z` in capitals. -/
def upper (text : String) : String :=
  String.ofList (text.toList.map Char.toUpper)

end CardMachine.Text
