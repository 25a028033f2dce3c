import WhereClause.Text.Identifier.Start
import WhereClause.Text.Identifier.Continue

/-!
# Identifiers

An identifier begins with a letter or a low line and goes on with letters, marks, digits and
connectors, in the sense of the Unicode properties `XID_Start` and `XID_Continue`. Words that a
language reserves count as identifiers.
-/

namespace WhereClause.Text

def startsIdentifier (c : Char) : Bool := c == '_' || identifierStarts.contains c

def continuesIdentifier (c : Char) : Bool := identifierContinues.contains c

def isIdentifier : List Char → Bool
  | [] => false
  | c :: cs => startsIdentifier c && cs.all continuesIdentifier

end WhereClause.Text
