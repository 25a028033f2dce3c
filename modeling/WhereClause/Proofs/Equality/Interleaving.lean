import Mathlib.Tactic.Common
import WhereClause.Equality.Evidence

/-!
# Learning on the way

Two types can also be unified in one go (`Ty.unify`).  What a pair of parts teaches is then learned
as soon as the walk comes by, and later parts are laid side by side while the store is changing.
That makes no difference: shapes decide where a walk goes and where it stops, not what is known, so
all of its steps may as well be taken when it is over.

## Main statements

* `Ty.unify_eq_learned`: unifying comes to taking the steps of the alignment.
* `Evidence.equate_eq_learnBy`, `Evidence.equateArgs_eq_learnBy`, `Evidence.learn_alignEach`: types,
  paths and the arguments of calls are found equal as they would be by unifying them.
* `Ty.outcome_unify`: whether two types can be unified does not depend on what is known.
-/

namespace WhereClause

/-- A computation that adds to the evidence, and may come to a clash. -/
abbrev Learning := ExceptT Cause (StateM Evidence)

namespace Learning

/-- Two types are one. -/
def merge (a b : Ty) : Learning Unit := modify (·.take (.merge a b))

/-- A type satisfies the bounds of a trait object. -/
def constrain (t : Ty) (bounds : List Bound) : Learning Unit :=
  modify (·.take (.constrain t bounds))

end Learning

open Learning

mutual

/-- Unifies what is inside two types, and then the two.  Nothing is merged with a trait object, nor
a mutable reference with a shared one. -/
def Ty.unify : Ty → Ty → Learning Unit
  | .dyn xs, .dyn ys =>
    if xs.length = ys.length then Bound.unifyEach xs ys
    else throw (.boundCount (.dyn xs) (.dyn ys))
  | .dyn xs, t => constrain t xs
  | s, .dyn ys => constrain s ys
  | .ref access x l, .ref access' y k => do
    Ty.unify x y
    if access = access' then merge (.ref access x l) (.ref access' y k)
  | .tuple xs, .tuple ys => do
    if xs.length = ys.length then Ty.unifyEach xs ys
    else throw (.tupleArity (.tuple xs) (.tuple ys))
    merge (.tuple xs) (.tuple ys)
  | .path p, .path q => do
    Path.unify p q
    merge (.path p) (.path q)
  | s, t => merge s t

def Ty.unifyEach : List Ty → List Ty → Learning Unit
  | s :: ss, t :: ts => do
    Ty.unify s t
    Ty.unifyEach ss ts
  | _, _ => return

def Path.unify : Path → Path → Learning Unit
  | ⟨isGlobal, init, ⟨name, args⟩⟩, q =>
    if args.isParen || q.last.args.isParen then
      throw (.parenthesized [.path ⟨isGlobal, init, ⟨name, args⟩⟩, .path q])
    else Args.unify args q.last.args

def Args.unify : Args → Args → Learning Unit
  | .angle as, .angle bs => if as.length = bs.length then Arg.unifyEach as bs else return
  | _, _ => return

def Arg.unify : Arg → Arg → Learning Unit
  | .type s, .type t => Ty.unify s t
  | .lifetime _, .lifetime _ => return
  | a, b => throw (.typeAgainstLifetime a b)

def Arg.unifyEach : List Arg → List Arg → Learning Unit
  | a :: as, b :: bs => do
    Arg.unify a b
    Arg.unifyEach as bs
  | _, _ => return

def Bound.unify : Bound → Bound → Learning Unit
  | .trait p _, .trait q _ => Path.unify p q
  | _, _ => return

def Bound.unifyEach : List Bound → List Bound → Learning Unit
  | a :: as, b :: bs => do
    Bound.unify a b
    Bound.unifyEach as bs
  | _, _ => return

end

namespace Alignment

/-- Takes the steps of an alignment, and then meets its clash. -/
def learned (x : Alignment) : Learning Unit :=
  fun e => (x.clash.elim (.ok ()) .error, e.takeAll x.steps)

lemma learned_nothing : nothing.learned = return := rfl

lemma learned_fail (c : Cause) : (fail c).learned = throw c := rfl

lemma learned_merge (a b : Ty) : (step (.merge a b)).learned = merge a b := rfl

lemma learned_constrain (t : Ty) (bounds : List Bound) :
    (step (.constrain t bounds)).learned = constrain t bounds := rfl

/-- A clash keeps the steps of what comes after it from being taken. -/
lemma learned_andThen (x y : Alignment) :
    (x.andThen y).learned = x.learned >>= fun _ => y.learned := by
  funext e
  obtain ⟨xs, _ | c⟩ := x
  · have htaken : e.takeAll (xs ++ y.steps) = (e.takeAll xs).takeAll y.steps :=
      List.foldl_append
    exact congrArg (Prod.mk _) htaken
  · rfl

end Alignment

open WhereClause.Alignment

mutual

/-- Unifying two types comes to taking the steps of their alignment when the walk is over. -/
theorem Ty.unify_eq_learned (a b : Ty) : a.unify b = (a.align b).learned := by
  cases a with
  | dyn xs =>
    cases b with
    | dyn ys =>
      rw [Ty.unify, Ty.align]
      split_ifs
      · exact Bound.unifyEach_eq_learned xs ys
      · rw [learned_fail]
    | _ => simp only [Ty.unify, Ty.align, learned_constrain]
  | ref access x l =>
    cases b with
    | ref access' y k =>
      rw [Ty.unify, Ty.align, Ty.unify_eq_learned x y]
      split_ifs
      · rw [learned_andThen, learned_merge]
      · exact bind_pure_unit
    | _ => simp only [Ty.unify, Ty.align, learned_constrain, learned_merge]
  | tuple xs =>
    cases b with
    | tuple ys =>
      rw [Ty.unify, Ty.align]
      split_ifs
      · rw [Ty.unifyEach_eq_learned xs ys, learned_andThen, learned_merge]
      · rw [learned_fail]
        rfl
    | _ => simp only [Ty.unify, Ty.align, learned_constrain, learned_merge]
  | path p =>
    cases b with
    | path q => rw [Ty.unify, Ty.align, Path.unify_eq_learned p q, learned_andThen, learned_merge]
    | _ => simp only [Ty.unify, Ty.align, learned_constrain, learned_merge]
  | infer | str | deref _ | data _ _ _ | param _ =>
    cases b <;> simp only [Ty.unify, Ty.align, learned_constrain, learned_merge]
termination_by structural a

lemma Ty.unifyEach_eq_learned (as bs : List Ty) :
    Ty.unifyEach as bs = (Ty.alignEach as bs).learned := by
  cases as with
  | nil => rw [Ty.unifyEach.eq_def, Ty.alignEach.eq_def, learned_nothing]
  | cons a as =>
    cases bs with
    | nil => rw [Ty.unifyEach.eq_def, Ty.alignEach.eq_def, learned_nothing]
    | cons b bs =>
      rw [Ty.unifyEach, Ty.alignEach, Ty.unify_eq_learned a b, Ty.unifyEach_eq_learned as bs,
        learned_andThen]
termination_by structural as

theorem Path.unify_eq_learned (p q : Path) : p.unify q = (p.align q).learned := by
  obtain ⟨isGlobal, init, ⟨name, args⟩⟩ := p
  rw [Path.unify, Path.align]
  split_ifs
  · rw [learned_fail]
  · exact Args.unify_eq_learned args q.last.args
termination_by structural p

lemma Args.unify_eq_learned (as bs : Args) : as.unify bs = (as.align bs).learned := by
  cases as with
  | angle as =>
    cases bs with
    | angle bs =>
      rw [Args.unify, Args.align]
      split_ifs
      · exact Arg.unifyEach_eq_learned as bs
      · rw [learned_nothing]
    | _ => rw [Args.unify.eq_def, Args.align.eq_def, learned_nothing]
  | _ => rw [Args.unify.eq_def, Args.align.eq_def, learned_nothing]
termination_by structural as

lemma Arg.unify_eq_learned (a b : Arg) : a.unify b = (a.align b).learned := by
  cases a with
  | type s =>
    cases b with
    | type t => rw [Arg.unify, Arg.align, Ty.unify_eq_learned s t]
    | lifetime _ => simp only [Arg.unify, Arg.align, learned_fail]
  | lifetime _ => cases b <;> simp only [Arg.unify, Arg.align, learned_fail, learned_nothing]
termination_by structural a

lemma Arg.unifyEach_eq_learned (as bs : List Arg) :
    Arg.unifyEach as bs = (Arg.alignEach as bs).learned := by
  cases as with
  | nil => rw [Arg.unifyEach.eq_def, Arg.alignEach.eq_def, learned_nothing]
  | cons a as =>
    cases bs with
    | nil => rw [Arg.unifyEach.eq_def, Arg.alignEach.eq_def, learned_nothing]
    | cons b bs =>
      rw [Arg.unifyEach, Arg.alignEach, Arg.unify_eq_learned a b, Arg.unifyEach_eq_learned as bs,
        learned_andThen]
termination_by structural as

lemma Bound.unify_eq_learned (b c : Bound) : b.unify c = (b.align c).learned := by
  cases b with
  | trait p _ =>
    cases c with
    | trait q _ => rw [Bound.unify, Bound.align, Path.unify_eq_learned p q]
    | outlives _ => rw [Bound.unify.eq_def, Bound.align.eq_def, learned_nothing]
  | outlives _ => rw [Bound.unify.eq_def, Bound.align.eq_def, learned_nothing]
termination_by structural b

lemma Bound.unifyEach_eq_learned (bs cs : List Bound) :
    Bound.unifyEach bs cs = (Bound.alignEach bs cs).learned := by
  cases bs with
  | nil => rw [Bound.unifyEach.eq_def, Bound.alignEach.eq_def, learned_nothing]
  | cons b bs =>
    cases cs with
    | nil => rw [Bound.unifyEach.eq_def, Bound.alignEach.eq_def, learned_nothing]
    | cons c cs =>
      rw [Bound.unifyEach, Bound.alignEach, Bound.unify_eq_learned b c,
        Bound.unifyEach_eq_learned bs cs, learned_andThen]
termination_by structural bs

end

/-- Whether two types can be unified, and what they clash over, does not depend on what is known. -/
theorem Ty.outcome_unify (a b : Ty) (e e' : Evidence) : (a.unify b e).1 = (a.unify b e').1 := by
  rw [Ty.unify_eq_learned]
  rfl

namespace Evidence

/-- What is known after learning on the way, and the clash if there was one. -/
def learnBy (e : Evidence) (x : Learning Unit) : Evidence × Option Cause :=
  match x e with
  | (.ok _, e') => (e', none)
  | (.error c, e') => (e', some c)

lemma learn_eq_learnBy (e : Evidence) (x : Alignment) : e.learn x = e.learnBy x.learned := by
  obtain ⟨steps, _ | c⟩ := x <;> rfl

/-- Two types are found equal as they would be by learning on the way. -/
theorem equate_eq_learnBy (e : Evidence) (a b : Ty) : e.equate a b = e.learnBy (a.unify b) := by
  rw [Ty.unify_eq_learned]
  exact e.learn_eq_learnBy (a.align b)

theorem equateArgs_eq_learnBy (e : Evidence) (p q : Path) :
    e.equateArgs p q = e.learnBy (p.unify q) := by
  rw [Path.unify_eq_learned]
  exact e.learn_eq_learnBy (p.align q)

/-- The same goes for the arguments of a call, which are taken one after the other. -/
theorem learn_alignEach (e : Evidence) (inputs args : List Ty) :
    e.learn (Ty.alignEach inputs args) = e.learnBy (Ty.unifyEach inputs args) := by
  rw [Ty.unifyEach_eq_learned]
  exact e.learn_eq_learnBy (Ty.alignEach inputs args)

end Evidence

end WhereClause
