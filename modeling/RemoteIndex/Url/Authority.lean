import RemoteIndex.Url.Host

/-!
# Authorities

The authority of a URL stands between `//` and the path. It names the host, and may name a user
before it and a port behind it.
-/

namespace RemoteIndex.Url

/-- A host with its port, where one is given. -/
structure Authority where
  host : Host
  port : Option Nat
deriving DecidableEq, Repr

namespace Authority

/-- The characters that end an authority. -/
def isEnd (c : Char) : Bool := c = '/' || c = '\\' || c = '?' || c = '#'

/-- A slash of either kind. -/
def isSlash (c : Char) : Bool := c = '/' || c = '\\'

/-- Characters that a URL may be broken by anywhere, without effect. -/
def isIgnored (c : Char) : Bool := c = '\t' || c = '\n' || c = '\r'

/-- Control characters and blanks, which do not count at the end of a URL. -/
def isTrailing (c : Char) : Bool := c.toNat ≤ 0x20

/-- The text without what does not count at its end. -/
def trimEnd (cs : List Char) : List Char := (cs.reverse.dropWhile isTrailing).reverse

/-- The authority's text in what follows the colon of a URL's scheme. Any number of slashes may
come before it. -/
def textOf (cs : List Char) : List Char :=
  (((trimEnd cs).filter (!isIgnored ·)).dropWhile isSlash).takeWhile (!isEnd ·)

/-- What stands behind the last `@`. -/
def behindUser (cs : List Char) : List Char := (cs.reverse.takeWhile (· ≠ '@')).reverse

/-- The host's text and what follows it: a colon ends the host unless it stands in brackets. -/
def splitPort (inBrackets : Bool) : List Char → List Char × List Char
  | [] => ([], [])
  | c :: cs =>
    if c = ':' && !inBrackets then ([], c :: cs)
    else
      let inBrackets := if c = '[' then true else if c = ']' then false else inBrackets
      let (host, port) := splitPort inBrackets cs
      (c :: host, port)

/-- The largest port. -/
def lastPort : Nat := 65535

/-- The port that the text behind a host gives: a colon and, it may be, a number. -/
def port? : List Char → Option (Option Nat)
  | [] => some none
  | ':' :: digits =>
    let n := Address.ofDigits 10 digits
    if !digits.all Char.isDigit || lastPort < n then none
    else if digits.isEmpty then some none
    else some (some n)
  | _ => none

/-- The authority in what follows the colon of a URL's scheme. -/
def parse? (cs : List Char) : Option Authority := do
  let (hostText, portText) := splitPort false (behindUser (textOf cs))
  let host ← Host.parse? hostText
  let port ← port? portText
  return ⟨host, port⟩

end Authority

end RemoteIndex.Url
