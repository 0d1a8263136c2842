/-!
# Values of documents

The value that a document writes down, with numbers as they are written and members in the order
of the text.
-/

namespace RemoteIndex

/-- A value in a document. -/
inductive Json where
  | null
  | bool (value : Bool)
  | number (numeral : String)
  | text (content : String)
  | list (items : List Json)
  | object (members : List (String × Json))
deriving Repr, Inhabited

namespace Json

/-- A natural number. -/
def ofNat (n : Nat) : Json := .number (toString n)

/-- The content of a text. -/
def text? : Json → Option String
  | .text content => some content
  | _ => none

end Json

end RemoteIndex
