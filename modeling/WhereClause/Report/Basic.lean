import WhereClause.Inference
import WhereClause.Report.Issue
import WhereClause.Report.Outburst

/-!
# Reports

A report collects issues on behalf of whoever runs inferences, so that one implementation can be
skipped and the next looked at, until there are too many issues. When it is verbose, it also tells
about the progress of each inference. What it writes is given back as text.
-/

namespace WhereClause

/-- Issues collected so far, and how to go on. -/
structure Report where
  verbose : Bool
  /-- The number of issues that is too many, if there is one. -/
  maxIssues : Option Int
  issues : List Issue
  choices : Choices

/-- Why a report does not let its user go on. -/
inductive ReportError where
  | tooManyIssues
  /-- There are issues where there must be none. -/
  | sick (message : String)
  /-- An inference was stopped by something that is no failure of the implementation. -/
  | fault (fault : Fault)

namespace Report

/-- Whether there is any issue. -/
def isSick (r : Report) : Bool := !r.issues.isEmpty

/-- Records an issue. The one that makes them too many is recorded as well. -/
def add (r : Report) (i : Issue) : Report × Except ReportError Unit :=
  let issues := r.issues ++ [i]
  ({ r with issues },
    if r.maxIssues = some (issues.length : Int) then .error .tooManyIssues else .ok ())

/-- Records a failure, and the implementation that it came up in. -/
def addFailure (r : Report) (f : Failure) (implementation : Option Ty) :
    Report × Except ReportError Unit :=
  r.add (f.issue implementation)

/-- Words on one line, if the report is verbose. -/
def info (r : Report) (words : List String) : String :=
  if r.verbose then Text.joined " " words ++ "\n" else ""

/-- What is told about events, if the report is verbose. -/
def tell (r : Report) (events : List Event) : String :=
  if r.verbose then Event.lines events else ""

/-- A text repeated. -/
def times (text : String) : Nat → String
  | 0 => ""
  | n + 1 => text ++ times text n

/-- The line above the first issue. -/
def banner : String := times "*" 60

/-- The line above each issue. -/
def rule : String := times "  -" 20

/-- All issues with an outburst above, or nothing if there are none. -/
def complain (r : Report) : Report × String :=
  if r.isSick then
    let (choices, outburst) := Outburst.utter r.choices
    ({ r with choices },
      banner ++ "\n" ++ outburst ++ "\n" ++
        String.join (r.issues.map fun i => rule ++ "\n" ++ i.text ++ "\n"))
  else (r, "")

/-- Insists that there are no issues. If there are, they are written, and the complaint goes with
another outburst. -/
def insist (r : Report) (message : String) : Report × String × Except ReportError Unit :=
  if r.isSick then
    let (r, text) := r.complain
    let (choices, outburst) := Outburst.utter r.choices
    ({ r with choices }, text, .error (.sick (outburst ++ " " ++ message)))
  else (r, "", .ok ())

/-- Infers the constraints of an implementation. A failure becomes an issue, and then there is no
answer. -/
def infer (r : Report) (i : Implementation) (mode : MergeMode) :
    Report × String × Except ReportError (Option ConstraintSet) :=
  let (events, result) := i.infer mode
  let text := r.tell events
  match result with
  | .ok constraints => (r, text, .ok (some constraints))
  | .error (.failure f) =>
    let (r, outcome) := r.addFailure f (some i.ty)
    (r, text, outcome.map fun _ => none)
  | .error fault => (r, text, .error (.fault fault))

end Report

end WhereClause
