/-!
# Letter case, as far as it reaches ASCII

Names of units, log levels and settings are compared without regard to case.  All of them are
ASCII, so only the characters whose other case is ASCII matter: the ASCII letters, the Kelvin sign
(a `k`), and the few letters and ligatures whose capitals are plain letters.

* `lowerAscii` — lower case; characters that stay outside ASCII are kept.
* `upperAscii` — upper case; likewise.
-/

namespace RankedTable

/-- The lower case of one character, where it is ASCII. -/
def lowerChar (c : Char) : Char :=
  if c.toNat = 0x212a then 'k' else c.toLower

/-- The upper case of one character, where it is ASCII.  A ligature becomes its letters. -/
def upperChar (c : Char) : List Char :=
  match c.toNat with
  | 0xdf => ['S', 'S']
  | 0x131 => ['I']
  | 0x17f => ['S']
  | 0xfb00 => ['F', 'F']
  | 0xfb01 => ['F', 'I']
  | 0xfb02 => ['F', 'L']
  | 0xfb03 => ['F', 'F', 'I']
  | 0xfb04 => ['F', 'F', 'L']
  | 0xfb05 => ['S', 'T']
  | 0xfb06 => ['S', 'T']
  | _ => [c.toUpper]

/-- Lower case, as far as it reaches ASCII. -/
def lowerAscii (text : String) : String :=
  String.ofList (text.toList.map lowerChar)

/-- Upper case, as far as it reaches ASCII. -/
def upperAscii (text : String) : String :=
  String.ofList (text.toList.flatMap upperChar)

end RankedTable
