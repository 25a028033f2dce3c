import WhereClause.Ty.Same

/-!
# Renaming parameters

A renaming replaces type parameters by type parameters and lifetimes by lifetimes, everywhere in a
term, in declarations as well. The renaming that erases all names leaves of a term exactly what
equality looks at: two terms are equal if and only if they agree once their names are erased. So
equality is an equivalence.

## Main statements

* `Ty.same_iff`, and the like for every sort of term: equality is agreement up to names.
-/

namespace WhereClause

/-- What to call which parameter. -/
structure Renaming where
  onParam : Param → Param
  onLifetime : Lifetime → Lifetime

mutual

def Ty.rename (ρ : Renaming) : Ty → Ty
  | .infer => .infer
  | .str => .str
  | .tuple ts => .tuple (Ty.renameEach ρ ts)
  | .ref access t l => .ref access (Ty.rename ρ t) (l.map ρ.onLifetime)
  | .deref t => .deref (Ty.rename ρ t)
  | .dyn bs => .dyn (Bound.renameEach ρ bs)
  | .data name g fs => .data name (Generics.rename ρ g) (Field.renameEach ρ fs)
  | .path p => .path (Path.rename ρ p)
  | .param p => .param (ρ.onParam p)

def Ty.renameEach (ρ : Renaming) : List Ty → List Ty
  | [] => []
  | t :: ts => Ty.rename ρ t :: Ty.renameEach ρ ts

def Ty.renameOption (ρ : Renaming) : Option Ty → Option Ty
  | none => none
  | some t => some (Ty.rename ρ t)

def Field.rename (ρ : Renaming) : Field → Field
  | ⟨name, t⟩ => ⟨name, Ty.rename ρ t⟩

def Field.renameEach (ρ : Renaming) : List Field → List Field
  | [] => []
  | f :: fs => Field.rename ρ f :: Field.renameEach ρ fs

def Path.rename (ρ : Renaming) : Path → Path
  | ⟨isGlobal, init, last⟩ => ⟨isGlobal, Segment.renameEach ρ init, Segment.rename ρ last⟩

def Segment.rename (ρ : Renaming) : Segment → Segment
  | ⟨name, args⟩ => ⟨name, Args.rename ρ args⟩

def Segment.renameEach (ρ : Renaming) : List Segment → List Segment
  | [] => []
  | s :: ss => Segment.rename ρ s :: Segment.renameEach ρ ss

def Args.rename (ρ : Renaming) : Args → Args
  | .none => .none
  | .angle as => .angle (Arg.renameEach ρ as)
  | .paren inputs output => .paren (Ty.renameEach ρ inputs) (Ty.renameOption ρ output)

def Arg.rename (ρ : Renaming) : Arg → Arg
  | .type t => .type (Ty.rename ρ t)
  | .lifetime l => .lifetime (ρ.onLifetime l)

def Arg.renameEach (ρ : Renaming) : List Arg → List Arg
  | [] => []
  | a :: as => Arg.rename ρ a :: Arg.renameEach ρ as

def Bound.rename (ρ : Renaming) : Bound → Bound
  | .trait p binder => .trait (Path.rename ρ p) (binder.map ρ.onLifetime)
  | .outlives l => .outlives (ρ.onLifetime l)

def Bound.renameEach (ρ : Renaming) : List Bound → List Bound
  | [] => []
  | b :: bs => Bound.rename ρ b :: Bound.renameEach ρ bs

def Constraint.rename (ρ : Renaming) : Constraint → Constraint
  | .type t bs binder =>
    .type (Ty.rename ρ t) (Bound.renameEach ρ bs) (binder.map ρ.onLifetime)
  | .lifetime l ls => .lifetime (ρ.onLifetime l) (ls.map ρ.onLifetime)

def Constraint.renameEach (ρ : Renaming) : List Constraint → List Constraint
  | [] => []
  | c :: cs => Constraint.rename ρ c :: Constraint.renameEach ρ cs

def Generics.rename (ρ : Renaming) : Generics → Generics
  | ⟨params, constraints⟩ => ⟨Arg.renameEach ρ params, Constraint.renameEach ρ constraints⟩

end

/-! ### Lists are renamed item by item -/

section

variable (ρ : Renaming)

theorem Ty.renameEach_eq_map (ts : List Ty) : Ty.renameEach ρ ts = ts.map (Ty.rename ρ) := by
  induction ts with
  | nil => simp only [Ty.renameEach, List.map_nil]
  | cons t ts ih => simp only [Ty.renameEach, List.map_cons, ih]

theorem Segment.renameEach_eq_map (ss : List Segment) :
    Segment.renameEach ρ ss = ss.map (Segment.rename ρ) := by
  induction ss with
  | nil => simp only [Segment.renameEach, List.map_nil]
  | cons s ss ih => simp only [Segment.renameEach, List.map_cons, ih]

theorem Arg.renameEach_eq_map (as : List Arg) : Arg.renameEach ρ as = as.map (Arg.rename ρ) := by
  induction as with
  | nil => simp only [Arg.renameEach, List.map_nil]
  | cons a as ih => simp only [Arg.renameEach, List.map_cons, ih]

theorem Bound.renameEach_eq_map (bs : List Bound) :
    Bound.renameEach ρ bs = bs.map (Bound.rename ρ) := by
  induction bs with
  | nil => simp only [Bound.renameEach, List.map_nil]
  | cons b bs ih => simp only [Bound.renameEach, List.map_cons, ih]

theorem Constraint.renameEach_eq_map (cs : List Constraint) :
    Constraint.renameEach ρ cs = cs.map (Constraint.rename ρ) := by
  induction cs with
  | nil => simp only [Constraint.renameEach, List.map_nil]
  | cons c cs ih => simp only [Constraint.renameEach, List.map_cons, ih]

theorem Path.segments_rename (p : Path) :
    (p.rename ρ).segments = p.segments.map (Segment.rename ρ) := by
  obtain ⟨isGlobal, init, last⟩ := p
  simp only [Path.rename, Path.segments, Segment.renameEach_eq_map, List.map_append, List.map_cons,
    List.map_nil]

end

/-! ## Equality is agreement up to names -/

/-- The renaming that keeps numbers and erases names. -/
def Renaming.anonymous : Renaming where
  onParam p := ⟨p.number, ""⟩
  onLifetime l := ⟨l.number, ""⟩

open Renaming

theorem Param.beq_iff (p q : Param) :
    (p == q) = true ↔ anonymous.onParam p = anonymous.onParam q := by
  show (p.number == q.number) = true ↔ _
  simp [anonymous]

theorem Lifetime.beq_iff (l k : Lifetime) :
    (l == k) = true ↔ anonymous.onLifetime l = anonymous.onLifetime k := by
  show (l.number == k.number) = true ↔ _
  simp [anonymous]

theorem Lifetime.list_beq_iff (ls ks : List Lifetime) :
    (ls == ks) = true ↔ ls.map anonymous.onLifetime = ks.map anonymous.onLifetime := by
  induction ls generalizing ks with
  | nil => cases ks <;> simp
  | cons l ls ih => cases ks <;> simp [Lifetime.beq_iff, ih]

theorem Lifetime.option_beq_iff (l k : Option Lifetime) :
    (l == k) = true ↔ l.map anonymous.onLifetime = k.map anonymous.onLifetime := by
  cases l <;> cases k <;> simp [Lifetime.beq_iff]

mutual

theorem Ty.same_iff (a b : Ty) : Ty.same a b = true ↔ a.rename anonymous = b.rename anonymous := by
  cases a with
  | infer => cases b <;> simp [Ty.same, Ty.rename]
  | str => cases b <;> simp [Ty.same, Ty.rename]
  | tuple xs => cases b <;> simp [Ty.same, Ty.rename, Ty.sameEach_iff xs]
  | ref access x l =>
    cases b <;> simp [Ty.same, Ty.rename, Ty.same_iff x, Lifetime.option_beq_iff, and_assoc]
  | deref x => cases b <;> simp [Ty.same, Ty.rename, Ty.same_iff x]
  | dyn xs => cases b <;> simp [Ty.same, Ty.rename, Bound.sameEach_iff xs]
  | data name g fs =>
    cases b <;> simp [Ty.same, Ty.rename, Generics.same_iff g, Field.sameEach_iff fs, and_assoc]
  | path p => cases b <;> simp [Ty.same, Ty.rename, Path.same_iff p]
  | param p => cases b <;> simp [Ty.same, Ty.rename, Param.beq_iff]
termination_by structural a

theorem Ty.sameEach_iff (as bs : List Ty) :
    Ty.sameEach as bs = true ↔ Ty.renameEach anonymous as = Ty.renameEach anonymous bs := by
  cases as with
  | nil => cases bs <;> simp [Ty.sameEach, Ty.renameEach]
  | cons a as =>
    cases bs <;> simp [Ty.sameEach, Ty.renameEach, Ty.same_iff a, Ty.sameEach_iff as]
termination_by structural as

theorem Ty.sameOption_iff (a b : Option Ty) :
    Ty.sameOption a b = true ↔ Ty.renameOption anonymous a = Ty.renameOption anonymous b := by
  cases a with
  | none => cases b <;> simp [Ty.sameOption, Ty.renameOption]
  | some a => cases b <;> simp [Ty.sameOption, Ty.renameOption, Ty.same_iff a]
termination_by structural a

theorem Field.same_iff (a b : Field) :
    Field.same a b = true ↔ a.rename anonymous = b.rename anonymous := by
  obtain ⟨name, x⟩ := a
  cases b
  simp [Field.same, Field.rename, Ty.same_iff x]
termination_by structural a

theorem Field.sameEach_iff (as bs : List Field) :
    Field.sameEach as bs = true ↔
      Field.renameEach anonymous as = Field.renameEach anonymous bs := by
  cases as with
  | nil => cases bs <;> simp [Field.sameEach, Field.renameEach]
  | cons a as =>
    cases bs <;> simp [Field.sameEach, Field.renameEach, Field.same_iff a, Field.sameEach_iff as]
termination_by structural as

theorem Path.same_iff (a b : Path) :
    Path.same a b = true ↔ a.rename anonymous = b.rename anonymous := by
  obtain ⟨isGlobal, init, last⟩ := a
  cases b
  simp [Path.same, Path.rename, Segment.sameEach_iff init, Segment.same_iff last, and_assoc]
termination_by structural a

theorem Segment.same_iff (a b : Segment) :
    Segment.same a b = true ↔ a.rename anonymous = b.rename anonymous := by
  obtain ⟨name, args⟩ := a
  cases b
  simp [Segment.same, Segment.rename, Args.same_iff args]
termination_by structural a

theorem Segment.sameEach_iff (as bs : List Segment) :
    Segment.sameEach as bs = true ↔
      Segment.renameEach anonymous as = Segment.renameEach anonymous bs := by
  cases as with
  | nil => cases bs <;> simp [Segment.sameEach, Segment.renameEach]
  | cons a as =>
    cases bs <;>
      simp [Segment.sameEach, Segment.renameEach, Segment.same_iff a, Segment.sameEach_iff as]
termination_by structural as

theorem Args.same_iff (a b : Args) :
    Args.same a b = true ↔ a.rename anonymous = b.rename anonymous := by
  cases a with
  | none => cases b <;> simp [Args.same, Args.rename]
  | angle as => cases b <;> simp [Args.same, Args.rename, Arg.sameEach_iff as]
  | paren inputs output =>
    cases b <;> simp [Args.same, Args.rename, Ty.sameEach_iff inputs, Ty.sameOption_iff output]
termination_by structural a

theorem Arg.same_iff (a b : Arg) :
    Arg.same a b = true ↔ a.rename anonymous = b.rename anonymous := by
  cases a with
  | type x => cases b <;> simp [Arg.same, Arg.rename, Ty.same_iff x]
  | lifetime l => cases b <;> simp [Arg.same, Arg.rename, Lifetime.beq_iff]
termination_by structural a

theorem Arg.sameEach_iff (as bs : List Arg) :
    Arg.sameEach as bs = true ↔ Arg.renameEach anonymous as = Arg.renameEach anonymous bs := by
  cases as with
  | nil => cases bs <;> simp [Arg.sameEach, Arg.renameEach]
  | cons a as =>
    cases bs <;> simp [Arg.sameEach, Arg.renameEach, Arg.same_iff a, Arg.sameEach_iff as]
termination_by structural as

theorem Bound.same_iff (a b : Bound) :
    Bound.same a b = true ↔ a.rename anonymous = b.rename anonymous := by
  cases a with
  | trait p binder =>
    cases b <;> simp [Bound.same, Bound.rename, Path.same_iff p, Lifetime.list_beq_iff]
  | outlives l => cases b <;> simp [Bound.same, Bound.rename, Lifetime.beq_iff]
termination_by structural a

theorem Bound.sameEach_iff (as bs : List Bound) :
    Bound.sameEach as bs = true ↔
      Bound.renameEach anonymous as = Bound.renameEach anonymous bs := by
  cases as with
  | nil => cases bs <;> simp [Bound.sameEach, Bound.renameEach]
  | cons a as =>
    cases bs <;> simp [Bound.sameEach, Bound.renameEach, Bound.same_iff a, Bound.sameEach_iff as]
termination_by structural as

theorem Constraint.same_iff (a b : Constraint) :
    Constraint.same a b = true ↔ a.rename anonymous = b.rename anonymous := by
  cases a with
  | type x bs binder =>
    cases b <;>
      simp [Constraint.same, Constraint.rename, Ty.same_iff x, Bound.sameEach_iff bs,
        Lifetime.list_beq_iff, and_assoc]
  | lifetime l ls =>
    cases b <;>
      simp [Constraint.same, Constraint.rename, Lifetime.beq_iff, Lifetime.list_beq_iff]
termination_by structural a

theorem Constraint.sameEach_iff (as bs : List Constraint) :
    Constraint.sameEach as bs = true ↔
      Constraint.renameEach anonymous as = Constraint.renameEach anonymous bs := by
  cases as with
  | nil => cases bs <;> simp [Constraint.sameEach, Constraint.renameEach]
  | cons a as =>
    cases bs <;>
      simp [Constraint.sameEach, Constraint.renameEach, Constraint.same_iff a,
        Constraint.sameEach_iff as]
termination_by structural as

theorem Generics.same_iff (a b : Generics) :
    Generics.same a b = true ↔ a.rename anonymous = b.rename anonymous := by
  obtain ⟨params, constraints⟩ := a
  cases b
  simp [Generics.same, Generics.rename, Arg.sameEach_iff params,
    Constraint.sameEach_iff constraints]
termination_by structural a

end

/-! ## Equality is an equivalence -/

/-- A test that compares what a function makes of its arguments is an equivalence. -/
theorem equivBEq_of_view {α β : Type} [BEq α] (view : α → β)
    (h : ∀ a b : α, (a == b) = true ↔ view a = view b) : EquivBEq α where
  rfl {a} := (h a a).2 rfl
  symm {a b} hab := (h b a).2 ((h a b).1 hab).symm
  trans {a b c} hab hbc := (h a c).2 (((h a b).1 hab).trans ((h b c).1 hbc))

instance : EquivBEq Param := equivBEq_of_view _ Param.beq_iff
instance : EquivBEq Lifetime := equivBEq_of_view _ Lifetime.beq_iff
instance : EquivBEq Ty := equivBEq_of_view _ Ty.same_iff
instance : EquivBEq Path := equivBEq_of_view _ Path.same_iff
instance : EquivBEq Segment := equivBEq_of_view _ Segment.same_iff
instance : EquivBEq Args := equivBEq_of_view _ Args.same_iff
instance : EquivBEq Arg := equivBEq_of_view _ Arg.same_iff
instance : EquivBEq Bound := equivBEq_of_view _ Bound.same_iff
instance : EquivBEq Constraint := equivBEq_of_view _ Constraint.same_iff
instance : EquivBEq Generics := equivBEq_of_view _ Generics.same_iff

/-- The renaming of a generic parameter. -/
def GenericParam.rename (ρ : Renaming) : GenericParam → GenericParam
  | .type p => .type (ρ.onParam p)
  | .lifetime l => .lifetime (ρ.onLifetime l)

theorem GenericParam.beq_iff (a b : GenericParam) :
    (a == b) = true ↔ a.rename anonymous = b.rename anonymous := by
  cases a with
  | type p =>
    cases b with
    | type q =>
      show (p == q) = true ↔ _
      simp [GenericParam.rename, Param.beq_iff]
    | lifetime k =>
      show false = true ↔ _
      simp [GenericParam.rename]
  | lifetime l =>
    cases b with
    | type q =>
      show false = true ↔ _
      simp [GenericParam.rename]
    | lifetime k =>
      show (l == k) = true ↔ _
      simp [GenericParam.rename, Lifetime.beq_iff]

instance : EquivBEq GenericParam := equivBEq_of_view _ GenericParam.beq_iff

end WhereClause
