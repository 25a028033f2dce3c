import WhereClause.Ty.Render
import WhereClause.Text.Quoted

/-!
# Terms that cannot be built

Some parts of a term have to be types: the elements of a tuple and what a reference points to. A
path needs a segment. Where the parts come from outside, from a substitution or from text, the
constructions here check them, and say what was wrong.
-/

namespace WhereClause

/-- Why a term could not be built from its parts. -/
inductive Malformed where
  | emptyPath
  /-- A segment of a plain qualified name that is no identifier. -/
  | badSegment (text segment : String)
  /-- The parts of a tuple, with a lifetime among them. -/
  | lifetimeInTuple (elements : List Arg)
  /-- A lifetime where the type behind a reference belongs. -/
  | lifetimeBehindReference (lifetime : Lifetime)

namespace Malformed

def message : Malformed → String
  | .emptyPath => "A path needs at least one segment."
  | .badSegment text segment =>
    Text.quoted text ++ " is not a simple path: bad segment " ++ Text.quoted segment
  | .lifetimeInTuple elements => Text.tuple (Arg.renderEach elements)
  | .lifetimeBehindReference lifetime => lifetime.render

end Malformed

/-! ## Checked constructions -/

/-- The type that an argument is, if it is one. -/
def Arg.type? : Arg → Option Ty
  | .type t => some t
  | .lifetime _ => none

/-- The arguments as types, if no lifetime is among them. -/
def Arg.types? : List Arg → Option (List Ty)
  | [] => some []
  | .type t :: rest => (Arg.types? rest).map (t :: ·)
  | .lifetime _ :: _ => none

/-- A tuple, all of whose elements have to be types. -/
def Ty.ofElements (elements : List Arg) : Except Malformed Ty :=
  match Arg.types? elements with
  | some ts => .ok (.tuple ts)
  | none => .error (.lifetimeInTuple elements)

/-- A reference, which has to point to a type. -/
def Ty.ofPointee (access : Access) (lifetime : Option Lifetime) : Arg → Except Malformed Ty
  | .type t => .ok (.ref access t lifetime)
  | .lifetime l => .error (.lifetimeBehindReference l)

/-- A path, which needs at least one segment. -/
def Path.ofSegments (isGlobal : Bool) (segments : List Segment) : Except Malformed Path :=
  match segments.getLast? with
  | some last => .ok ⟨isGlobal, segments.dropLast, last⟩
  | none => .error .emptyPath

/-- Types alone make a tuple. -/
theorem Ty.ofElements_map_type (ts : List Ty) : Ty.ofElements (ts.map .type) = .ok (.tuple ts) := by
  have h : Arg.types? (ts.map .type) = some ts := by
    induction ts with
    | nil => rfl
    | cons t ts ih => simp [Arg.types?, ih]
  simp [Ty.ofElements, h]

end WhereClause
