import WhereClause.Call
import WhereClause.Failure.Cause

/-!
# Failures and where they happened

A failure is a cause together with the call to blame for it, once that is known. The nearest place
wins: a failure that has a place keeps it.

## Main declarations

* `Site`: a place to blame, which is a call itself where nothing else is known of it.
* `Failure`, `Failure.pin`: a cause, and how it gets its place.
* `Fault`: a failure, or a question about a set that cannot be answered.
-/

namespace WhereClause

/-- A place to blame. -/
inductive Site where
  | place (place : Place)
  /-- A call of which no place is known stands for itself. -/
  | call (call : Call)

def Site.render : Site → String
  | .place p => p.render
  | .call c => c.record

/-- The place to blame for what a call brings in. -/
def Call.site (c : Call) : Site :=
  match c.place with
  | some p => .place p
  | none => .call c

/-- Why an inference failed, and in which function and at which call. -/
structure Failure where
  cause : Cause
  function : Option String
  site : Option Site

namespace Failure

/-- A failure of which it is not known where it happened. -/
def ofCause (c : Cause) : Failure := ⟨c, none, none⟩

/-- Remembers where a failure happened, unless a place is known already. -/
def pin (f : Failure) (function : Option String) (site : Option Site) : Failure :=
  if f.site.isNone then { f with function, site } else f

end Failure

/-- What can stop a resolution. All but the first are questions about sets that an inference never
asks: it resolves only sets that exist, have members and are not being resolved. Nor does it ever
meet the bounds that keep a resolution finite. -/
inductive Fault where
  | failure (failure : Failure)
  /-- There is no set at this position. -/
  | noSuchSet (position : Int)
  /-- The set at this position has lost its members to another. -/
  | emptySet (position : Int)
  /-- The set has no representative yet, or a bound on how far to go for it was met. -/
  | unresolved (set : Nat)

def Fault.ofCause (c : Cause) : Fault := .failure (.ofCause c)

end WhereClause
