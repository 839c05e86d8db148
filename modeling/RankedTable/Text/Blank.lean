/-!
# Blanks around a number

* `Char.isWhite` — white space and line ends of every script.
* `Char.isBlank` — these and the four separators of files, groups, records and units.
* `trim` — a text without such characters at its two ends.
-/

namespace RankedTable

/-- White space and line ends of every script. -/
def whiteRanges : List (Nat × Nat) := [
  (0x9, 0xd), (0x20, 0x20), (0x85, 0x85), (0xa0, 0xa0), (0x1680, 0x1680), (0x2000, 0x200a),
  (0x2028, 0x2029), (0x202f, 0x202f), (0x205f, 0x205f), (0x3000, 0x3000)]

/-- Whether a character is white space. -/
def Char.isWhite (c : Char) : Bool :=
  whiteRanges.any fun r => r.1 ≤ c.toNat && c.toNat ≤ r.2

/-- Whether a character is white space or a separator. -/
def Char.isBlank (c : Char) : Bool :=
  Char.isWhite c || (0x1c ≤ c.toNat && c.toNat ≤ 0x1f)

/-- The text without characters of a kind at its two ends. -/
def trim (p : Char → Bool) (text : List Char) : List Char :=
  ((text.dropWhile p).reverse.dropWhile p).reverse

end RankedTable
