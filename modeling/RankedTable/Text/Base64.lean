import RankedTable.Text.Quoted

/-!
# Bytes as text

Byte strings are written in base 64 with the URL-safe alphabet and padding.  A reader is kinder:
it also takes the standard alphabet, and a text whose padding is missing or stops short.  It never
mixes the two alphabets, and the bits a last character has to spare must be zero.

* `encodeBase64` — three bytes to four characters, padded with `=`.
* `decodeBase64?` — either alphabet, with no more padding than is right.
-/

namespace RankedTable

/-- The two alphabets differ in their last two characters. -/
inductive Base64Alphabet where
  | urlSafe
  | standard
  deriving DecidableEq, Repr

namespace Base64Alphabet

/-- The characters that stand for 62 and 63. -/
def lastTwo : Base64Alphabet → Char × Char
  | urlSafe => ('-', '_')
  | standard => ('+', '/')

/-- The character for a value below 64. -/
def char (alphabet : Base64Alphabet) (n : Nat) : Char :=
  if n < 26 then Char.ofNat (65 + n)
  else if n < 52 then Char.ofNat (71 + n)
  else if n < 62 then Char.ofNat (n - 4)
  else if n = 62 then alphabet.lastTwo.1
  else alphabet.lastTwo.2

/-- The value of a character. -/
def value? (alphabet : Base64Alphabet) (c : Char) : Option Nat :=
  let n := c.toNat
  if 65 ≤ n ∧ n ≤ 90 then some (n - 65)
  else if 97 ≤ n ∧ n ≤ 122 then some (n - 71)
  else if 48 ≤ n ∧ n ≤ 57 then some (n + 4)
  else if c = alphabet.lastTwo.1 then some 62
  else if c = alphabet.lastTwo.2 then some 63
  else none

end Base64Alphabet

/-- Three bytes become four characters; a shorter rest is padded. -/
def encodeBase64Chars : Bytes → List Char
  | a :: b :: c :: rest =>
    let n := a.toNat * 65536 + b.toNat * 256 + c.toNat
    let char := Base64Alphabet.urlSafe.char
    char (n / 262144) :: char (n / 4096 % 64) :: char (n / 64 % 64) :: char (n % 64) ::
      encodeBase64Chars rest
  | [a, b] =>
    let n := a.toNat * 1024 + b.toNat * 4
    let char := Base64Alphabet.urlSafe.char
    [char (n / 4096), char (n / 64 % 64), char (n % 64), '=']
  | [a] =>
    let n := a.toNat * 16
    let char := Base64Alphabet.urlSafe.char
    [char (n / 64), char (n % 64), '=', '=']
  | [] => []

/-- The text of a byte string: URL-safe, padded. -/
def encodeBase64 (bytes : Bytes) : String :=
  String.ofList (encodeBase64Chars bytes)

/-- Four values of six bits become three bytes; what a shorter group has to spare must be zero. -/
def joinSextets : List Nat → Option Bytes
  | a :: b :: c :: d :: rest =>
    let n := a * 262144 + b * 4096 + c * 64 + d
    (joinSextets rest).map fun bytes =>
      UInt8.ofNat (n / 65536) :: UInt8.ofNat (n / 256 % 256) :: UInt8.ofNat (n % 256) :: bytes
  | [a, b, c] =>
    let n := a * 4096 + b * 64 + c
    if n % 4 = 0 then some [UInt8.ofNat (n / 1024), UInt8.ofNat (n / 4 % 256)] else none
  | [a, b] =>
    let n := a * 64 + b
    if n % 16 = 0 then some [UInt8.ofNat (n / 16)] else none
  | [_] => none
  | [] => some []

/-- How many padding characters complete a body of this length. -/
def base64Padding (length : Nat) : Nat :=
  (4 - length % 4) % 4

/-- Reads a text in one alphabet. -/
def decodeBase64In? (alphabet : Base64Alphabet) (text : List Char) : Option Bytes :=
  let body := text.takeWhile (· != '=')
  let padding := text.dropWhile (· != '=')
  if padding.all (· == '=') ∧ padding.length ≤ base64Padding body.length then
    (body.mapM alphabet.value?).bind joinSextets
  else none

/-- Reads a text in the URL-safe alphabet or else in the standard one. -/
def decodeBase64? (text : String) : Option Bytes :=
  decodeBase64In? .urlSafe text.toList <|> decodeBase64In? .standard text.toList

end RankedTable
