import RemoteIndex.Text.Utf8
import RemoteIndex.Url.Address
import RemoteIndex.Url.Domain

/-!
# Hosts
-/

namespace RemoteIndex.Url

/-- The host of an absolute URL. -/
inductive Host where
  /-- A domain name, by its labels. -/
  | domain (labels : List (List Char))
  /-- An address of four bytes, as a number. -/
  | address (number : Nat)
  /-- An address of eight groups. -/
  | longAddress (groups : List Nat)
deriving DecidableEq, Repr

namespace Host

/-- The bytes of a text in which `%` and two hexadecimal digits stand for a byte. -/
def percentDecode : List Char → List UInt8
  | '%' :: a :: b :: cs =>
    if Address.isHex a && Address.isHex b then
      UInt8.ofNat (Text.hexNumber [a, b]) :: percentDecode cs
    else Text.Utf8.encode "%" ++ percentDecode (a :: b :: cs)
  | c :: cs => Text.Utf8.encode (String.singleton c) ++ percentDecode cs
  | [] => []

/-- The host that a text without user, port and path denotes. -/
def parse? : List Char → Option Host
  | [] => none
  | '[' :: rest =>
    if rest.getLast? = some ']' then (Address.bracketed? rest.dropLast).map longAddress else none
  | cs => do
    let name ← Text.Utf8.decode? (percentDecode cs)
    let labels ← Domain.labels? name.toList
    if labels = [[]] then none
    else if Address.endsInNumber labels then (Address.dotted? labels).map address
    else some (domain labels)

end Host

end RemoteIndex.Url
