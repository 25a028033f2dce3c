import WhereClause.Text.Blank
import WhereClause.Text.Identifier
import WhereClause.Malformed

/-!
# Plain qualified names

A plain qualified name such as `::std::fmt::Display` is written as identifiers with `::` between
them. A leading `::` makes it global, and blanks may stand around the whole and around every
identifier.
-/

namespace WhereClause

namespace Text

/-- The pieces of a text between its double colons, which are found from left to right. -/
def splitDoubleColon : List Char → List (List Char)
  | [] => [[]]
  | [c] => [[c]]
  | c :: d :: rest =>
    if c = ':' ∧ d = ':' then [] :: splitDoubleColon rest
    else
      match splitDoubleColon (d :: rest) with
      | [] => [[c]]
      | piece :: pieces => (c :: piece) :: pieces

/-- A text without the double colon that it may begin with, and whether it did. -/
def dropDoubleColon : List Char → Bool × List Char
  | ':' :: ':' :: rest => (true, rest)
  | cs => (false, cs)

end Text

namespace Path

/-- The path of the names given. The first that is no identifier is refused, with the text that all
of them were read from. -/
def ofNames (isGlobal : Bool) (text : List Char) (names : List (List Char)) :
    Except Malformed Path :=
  match names.find? (fun name => !Text.isIdentifier name) with
  | some name => .error (.badSegment (String.ofList text) (String.ofList name))
  | none => ofSegments isGlobal (names.map fun name => ⟨String.ofList name, .none⟩)

/-- Reads a plain qualified name. -/
def ofText (s : String) : Except Malformed Path :=
  let (isGlobal, text) := Text.dropDoubleColon (Text.trim s.toList)
  ofNames isGlobal text ((Text.splitDoubleColon text).map Text.trim)

end Path

/-- The bound by the trait of a plain qualified name, with arguments on its last segment if there
are any. -/
def Bound.ofText (s : String) (args : List Arg) : Except Malformed Bound := do
  let path ← Path.ofText s
  return .trait (if args.isEmpty then path else path.withArgs (.angle args)) []

end WhereClause
