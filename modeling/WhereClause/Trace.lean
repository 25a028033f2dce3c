import WhereClause.Call
import WhereClause.ConstraintSet

/-!
# What an inference tells about its progress

Each step worth telling is an event, and an event has one line of text.
-/

namespace WhereClause

/-- Something an inference tells about its progress. -/
inductive Event where
  | constrained (constraint : Constraint)
  | folded (source target : Nat)
  | called (function callee : String) (args : List Ty)
  | relevant (params : List Param) (sets : List Nat)
  | kept (result : ConstraintSet) (candidates : Nat)

def Event.line : Event → String
  | .constrained c => "Constraint from trait object: " ++ c.render
  | .folded source target =>
    "Merging equality sets " ++ toString source ++ " into " ++ toString target
  | .called function callee args =>
    "In " ++ function ++ " call to " ++ callee ++ " with " ++ Text.bracketed (Ty.renderEach args)
  | .relevant params sets =>
    "Relevant parameters: " ++ Text.bracketed (params.map Param.render) ++ " in sets " ++
      Text.bracketed (sets.map toString)
  | .kept result candidates =>
    "Kept " ++ toString result.size ++ " of " ++ toString candidates ++
      " candidate constraints: " ++ result.render

/-- The lines of events, each ended. -/
def Event.lines : List Event → String
  | [] => ""
  | e :: es => e.line ++ "\n" ++ Event.lines es

end WhereClause
