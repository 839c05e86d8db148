import RankedTable.Error
import RankedTable.Text.Digit

/-!
# The way to a remote table

A service is reached in a region, at an address that follows from the region unless another one is
given.  Nothing is sent before both are known to be in order.

* `isRegionName` — a region is called like a label of a host, or has an empty name.
* `hostOf?` — the host of an address.
* `checkRegion`, `checkEndpoint` — what has to hold before a table is used.
-/

namespace RankedTable

/-! ## Regions -/

/-- A text without the line end that may close it. -/
def dropFinalLineEnd (text : List Char) : List Char :=
  if text.getLast? = some '\n' then text.dropLast else text

/-- The most characters of a label. -/
def maxLabelLength : Nat := 63

/-- Whether a text neither starts nor ends with a hyphen. -/
def hasNoOuterHyphen (text : List Char) : Bool :=
  text.head? != some '-' && text.getLast? != some '-'

/-- Whether a region can be called so: letters, digits and inner hyphens, but not digits alone. -/
def isRegionName (name : String) : Bool :=
  let label := dropFinalLineEnd name.toList
  label.length ≤ maxLabelLength &&
    label.all (fun c => c.isAlphanum || c = '-') &&
    hasNoOuterHyphen label &&
    (label.isEmpty || !label.all Char.isDigit)

/-! ## Hosts -/

/-- Whether a text is a label of a host's name. -/
def isHostLabel (label : List Char) : Bool :=
  !label.isEmpty && label.length ≤ maxLabelLength &&
    label.all (fun c => c.isAlpha || c = '-' || (Char.decimalValue? c).isSome) &&
    hasNoOuterHyphen label

/-- Whether a text is the name of a host: labels between points, perhaps with a point at the
end. -/
def isHostName (host : String) : Bool :=
  let labels := host.splitOn "."
  let labels := if labels.length > 1 ∧ labels.getLast? = some "" then labels.dropLast else labels
  host.length ≤ 255 && labels.all (isHostLabel ·.toList)

/-- Whether a text is the part of an address between two colons: up to four hexadecimal digits. -/
def isAddressGroup (group : String) : Bool :=
  let isHex (c : Char) := c.isDigit || ('a' ≤ c.toLower && c.toLower ≤ 'f')
  !group.isEmpty && group.length ≤ 4 && group.toList.all isHex

/-- Whether a text is a numeric address of eight groups, of which two colons may stand for some. -/
def isNumericAddress (host : String) : Bool :=
  let groups (part : String) := if part = "" then [] else part.splitOn ":"
  match host.splitOn "::" with
  | [whole] => (groups whole).length = 8 && (groups whole).all isAddressGroup
  | [before, after] =>
    (groups before).length + (groups after).length < 8 &&
      (groups before).all isAddressGroup && (groups after).all isAddressGroup
  | _ => false

/-! ## Addresses -/

/-- An address without its scheme. -/
def dropScheme (address : List Char) : List Char :=
  let scheme := address.takeWhile (· ≠ ':')
  let isSchemeChar (c : Char) := c.isAlphanum || c = '+' || c = '-' || c = '.'
  match scheme with
  | first :: _ =>
    if first.isAlpha ∧ scheme.all isSchemeChar ∧ scheme.length < address.length then
      address.drop (scheme.length + 1)
    else address
  | [] => address

/-- A host and whether it stands in brackets, as numeric addresses do. -/
structure AddressedHost where
  name : String
  bracketed : Bool

/-- The host of an address: what follows two slashes and the user, up to a port or a path. -/
def hostOf? (address : String) : Option AddressedHost :=
  match dropScheme (address.toList.dropWhile fun c => c.toNat ≤ 0x20) with
  | '/' :: '/' :: rest =>
    let place := rest.takeWhile fun c => c ≠ '/' && c ≠ '?' && c ≠ '#'
    if place.contains '[' != place.contains ']' then none
    else
      let host := (place.reverse.takeWhile (· ≠ '@')).reverse
      match host.dropWhile (· ≠ '[') with
      | _ :: inner => some ⟨String.ofList (inner.takeWhile (· ≠ ']')), true⟩
      | [] => some ⟨String.ofList (host.takeWhile (· ≠ ':')), false⟩
  | _ => none

/-- Whether an address has a proper host, and no line end or tab anywhere. -/
def isAddress (address : String) : Bool :=
  address.toList.all (fun c => c ≠ '\t' && c ≠ '\r' && c ≠ '\n') &&
    (hostOf? address).any fun host =>
      if host.bracketed then isNumericAddress host.name else isHostName host.name

/-! ## Checks -/

/-- The region, which has to be given and to be a name of one. -/
def checkRegion : Option String → Except Error String
  | none => .error .noRegion
  | some region => if isRegionName region then .ok region else .error .invalidRegion

/-- The address, if one is given, has to be in order; else the region is a label of the host. -/
def checkEndpoint (region : String) (endpoint : Option String) : Except Error Unit :=
  let inOrder := match endpoint with
    | some address => isAddress address
    | none => isHostLabel region.toList
  if inOrder then .ok () else .error .invalidEndpoint

end RankedTable
