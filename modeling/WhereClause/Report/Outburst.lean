/-!
# Outbursts

A report with issues opens with an exclamation, put together from three stock lists. Which items are
taken is decided from outside, by a cycle of numbers that are reduced to the length of each list.
-/

namespace WhereClause

/-- A cycle of numbers that decide choices, and how many choices were made. -/
structure Choices where
  cycle : List Int
  made : Nat

namespace Choices

/-- The number that decides the next choice. -/
def next (c : Choices) : Int := (c.cycle[c.made % c.cycle.length]?).getD 0

/-- Takes one item of a list. -/
def choose (c : Choices) (items : List String) : Choices × String :=
  ({ c with made := c.made + 1 }, (items[(c.next % items.length).toNat]?).getD "")

end Choices

namespace Outburst

def particles : List String := ["Oh, ", "Well, ", "Aw, ", "", ""]

def oaths : List String :=
  ["Ack", "ARGH", "Blargh", "Confound it", "Crud", "Curses", "Crikey", "Drat", "Fiddlesticks",
    "Good Grief", "Great Scott", "Heavens", "Nuts", "Rats"]

def resignations : List String :=
  ["I am undone.", "I cannot continue.", "I have no idea what the right answer is.",
    "I need to ask for help."]

/-- A particle, an oath and a resignation, chosen in this order. -/
def utter (c : Choices) : Choices × String :=
  let (c, particle) := c.choose particles
  let (c, oath) := c.choose oaths
  let (c, resignation) := c.choose resignations
  (c, particle ++ oath ++ "! " ++ resignation)

end Outburst

end WhereClause
