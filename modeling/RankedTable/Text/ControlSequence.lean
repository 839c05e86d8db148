/-!
# Control sequences in a text

A terminal takes an escape character and a bracket for the start of a command: parameters follow,
then intermediate characters, then one final character.  A text that is not meant for a terminal
has such commands taken out; what merely starts like one stays.

* `sequenceLength?` — how long the rest of a command is.
* `dropControlSequences` — the text without commands.
-/

namespace RankedTable

/-- The characters of a command's parameters. -/
def isSequenceParameter (c : Char) : Bool :=
  0x30 ≤ c.toNat && c.toNat ≤ 0x3f

/-- The characters between a command's parameters and its end. -/
def isSequenceIntermediate (c : Char) : Bool :=
  0x20 ≤ c.toNat && c.toNat ≤ 0x2f

/-- The characters that end a command. -/
def isSequenceFinal (c : Char) : Bool :=
  0x40 ≤ c.toNat && c.toNat ≤ 0x7e

/-- How many characters after an escape character belong to its command; `none` if there is no
complete command. -/
def sequenceLength? : List Char → Option Nat
  | '[' :: body =>
    let parameters := body.takeWhile isSequenceParameter
    let rest := body.dropWhile isSequenceParameter
    let intermediates := rest.takeWhile isSequenceIntermediate
    match rest.dropWhile isSequenceIntermediate with
    | c :: _ =>
      if isSequenceFinal c then some (parameters.length + intermediates.length + 2) else none
    | [] => none
  | _ => none

/-- A text without commands, after as many characters as are to be skipped. -/
def dropSequencesAfter : Nat → List Char → List Char
  | _, [] => []
  | skipped + 1, _ :: rest => dropSequencesAfter skipped rest
  | 0, c :: rest =>
    match if c = '\x1b' then sequenceLength? rest else none with
    | some length => dropSequencesAfter length rest
    | none => c :: dropSequencesAfter 0 rest

/-- A text without commands for a terminal. -/
def dropControlSequences (text : String) : String :=
  String.ofList (dropSequencesAfter 0 text.toList)

end RankedTable
