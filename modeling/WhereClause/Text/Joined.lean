/-!
# Joined text

Lists of rendered items are written with a separator between them. A tuple of one item carries a
comma after it, so that it is not mistaken for an item in parentheses.
-/

namespace WhereClause.Text

/-- The items in order with a separator between each two. -/
def joined (separator : String) : List String → String
  | [] => ""
  | [item] => item
  | item :: rest => item ++ separator ++ joined separator rest

def commaJoined (items : List String) : String := joined ", " items

/-- Items in parentheses; a lone item is followed by a comma. -/
def tuple : List String → String
  | [item] => "(" ++ item ++ ",)"
  | items => "(" ++ commaJoined items ++ ")"

/-- Items in square brackets. -/
def bracketed (items : List String) : String := "[" ++ commaJoined items ++ "]"

/-- Items in curly braces. -/
def braced (items : List String) : String := "\x7b" ++ commaJoined items ++ "\x7d"

end WhereClause.Text
