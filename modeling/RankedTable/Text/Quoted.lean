import RankedTable.Text.Printable

/-!
# Quoted text

Messages quote the texts and bytes they complain about, so that blanks and controls stay visible.
The mark is the single quote, unless the text holds single quotes and no double quote.

* `quoteText` — a text between quotes, characters without a glyph escaped.
* `quoteBytes` — a byte string between quotes after a `b`, everything but plain ASCII escaped.
-/

namespace RankedTable

/-- A byte string. -/
abbrev Bytes := List UInt8

/-- The lower-case hexadecimal digit for a value below sixteen. -/
def hexDigit (n : Nat) : Char :=
  if n < 10 then Char.ofNat (48 + n) else Char.ofNat (87 + n)

/-- `n` in hexadecimal, padded with zeros to `width` digits. -/
def hexPadded (width n : Nat) : List Char :=
  (List.range width).reverse.map fun i => hexDigit (n / Nat.pow 16 i % 16)

/-- Two hexadecimal digits per byte. -/
def hexBytes (bytes : Bytes) : String :=
  String.ofList (bytes.flatMap fun b => hexPadded 2 b.toNat)

/-- The quotation mark for a text: the double one if the text holds only single ones. -/
def quotationMark (codes : List Nat) : Char :=
  if codes.contains 39 && !codes.contains 34 then '\x22' else '\x27'

/-- The escape of a backslash, the mark itself or a line-layout control, if `c` is one. -/
def shortEscape? (mark c : Char) : Option (List Char) :=
  if c = mark || c = '\\' then some ['\\', c]
  else if c = '\n' then some ['\\', 'n']
  else if c = '\r' then some ['\\', 'r']
  else if c = '\t' then some ['\\', 't']
  else none

/-- One character inside a quoted text. -/
def quoteChar (mark c : Char) : List Char :=
  match shortEscape? mark c with
  | some escape => escape
  | none =>
    if Char.isPrintable c then [c]
    else if c.toNat ≤ 0xff then '\\' :: 'x' :: hexPadded 2 c.toNat
    else if c.toNat ≤ 0xffff then '\\' :: 'u' :: hexPadded 4 c.toNat
    else '\\' :: 'U' :: hexPadded 8 c.toNat

/-- A text between quotes. -/
def quoteText (text : String) : String :=
  let chars := text.toList
  let mark := quotationMark (chars.map Char.toNat)
  String.ofList (mark :: chars.flatMap (quoteChar mark) ++ [mark])

/-- One byte inside a quoted byte string. -/
def quoteByte (mark : Char) (b : UInt8) : List Char :=
  let c := Char.ofNat b.toNat
  match shortEscape? mark c with
  | some escape => escape
  | none =>
    if 32 ≤ b.toNat ∧ b.toNat < 127 then [c] else '\\' :: 'x' :: hexPadded 2 b.toNat

/-- A byte string between quotes, after a `b`. -/
def quoteBytes (bytes : Bytes) : String :=
  let mark := quotationMark (bytes.map UInt8.toNat)
  String.ofList ('b' :: mark :: bytes.flatMap (quoteByte mark) ++ [mark])

end RankedTable
