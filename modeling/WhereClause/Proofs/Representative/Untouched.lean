import WhereClause.Proofs.Representative.Runs

/-!
# Types that settling leaves alone

Settling asks of certain parts of a type whether they are of a set, and changes nothing else.  Of a
type none of whose parts is of a set it makes the type itself, whatever expanding would do.
-/

namespace WhereClause

mutual

/-- The parts of a type that settling its parts asks about, if none of them is of a set. -/
def Ty.asked : Ty → List Ty
  | .infer => []
  | .str => []
  | .tuple ts => Ty.askedEach ts
  | .ref _ t _ => t :: Ty.asked t
  | .deref _ => []
  | .dyn bs => Bound.askedEach bs
  | .data _ _ _ => []
  | .path p => Path.asked p
  | .param _ => []

def Ty.askedEach : List Ty → List Ty
  | [] => []
  | t :: ts => t :: Ty.asked t ++ Ty.askedEach ts

def Path.asked : Path → List Ty
  | ⟨_, init, last⟩ => Segment.askedEach init ++ Segment.asked last

def Segment.asked : Segment → List Ty
  | ⟨_, args⟩ => Args.asked args

def Segment.askedEach : List Segment → List Ty
  | [] => []
  | s :: ss => Segment.asked s ++ Segment.askedEach ss

def Args.asked : Args → List Ty
  | .none => []
  | .angle as => Arg.askedEach as
  | .paren _ _ => []

def Arg.askedEach : List Arg → List Ty
  | [] => []
  | .type t :: as => t :: Ty.asked t ++ Arg.askedEach as
  | .lifetime _ :: as => Arg.askedEach as

def Bound.asked : Bound → List Ty
  | .trait p _ => Path.asked p
  | .outlives _ => []

def Bound.askedEach : List Bound → List Ty
  | [] => []
  | b :: bs => Bound.asked b ++ Bound.askedEach bs

end

section

variable {m : Type → Type} [Monad m] [LawfulMonad m] {setOf : Ty → Option ℕ}
  {expand : ℕ → Ty → m Ty}

mutual

lemma Ty.settleParts_eq_pure (t : Ty) (h : ∀ u ∈ t.asked, setOf u = none) :
    t.settleParts setOf expand = pure t := by
  cases t with
  | tuple ts =>
    rw [Ty.asked] at h
    rw [Ty.settleParts, Ty.settleEach_eq_pure ts h, pure_bind]
  | ref access t l =>
    rw [Ty.asked] at h
    obtain ⟨ht, hparts⟩ := List.forall_mem_cons.1 h
    rw [Ty.settleParts_ref, Ty.settlePart, ht]
    dsimp only
    rw [Ty.settleParts_eq_pure t hparts, pure_bind]
  | dyn bs =>
    rw [Ty.asked] at h
    rw [Ty.settleParts, Bound.settleEach_eq_pure bs h, pure_bind]
  | path p =>
    rw [Ty.asked] at h
    rw [Ty.settleParts, Path.settle_eq_pure p h, pure_bind]
  | infer | str | deref _ | data _ _ _ | param _ => rw [Ty.settleParts]
termination_by structural t

lemma Ty.settleEach_eq_pure (ts : List Ty) (h : ∀ u ∈ Ty.askedEach ts, setOf u = none) :
    Ty.settleEach setOf expand ts = pure ts := by
  cases ts with
  | nil => rw [Ty.settleEach]
  | cons t ts =>
    rw [Ty.askedEach, List.forall_mem_append, List.forall_mem_cons] at h
    rw [Ty.settleEach_cons, Ty.settlePart, h.1.1]
    dsimp only
    rw [Ty.settleParts_eq_pure t h.1.2, pure_bind, Ty.settleEach_eq_pure ts h.2, pure_bind]
termination_by structural ts

lemma Path.settle_eq_pure (p : Path) (h : ∀ u ∈ p.asked, setOf u = none) :
    p.settle setOf expand = pure p := by
  obtain ⟨isGlobal, init, last⟩ := p
  rw [Path.asked, List.forall_mem_append] at h
  rw [Path.settle, Segment.settleEach_eq_pure init h.1, pure_bind,
    Segment.settle_eq_pure last h.2, pure_bind]
termination_by structural p

lemma Segment.settle_eq_pure (s : Segment) (h : ∀ u ∈ s.asked, setOf u = none) :
    s.settle setOf expand = pure s := by
  obtain ⟨name, args⟩ := s
  rw [Segment.asked] at h
  rw [Segment.settle, Args.settle_eq_pure args h, pure_bind]
termination_by structural s

lemma Segment.settleEach_eq_pure (ss : List Segment)
    (h : ∀ u ∈ Segment.askedEach ss, setOf u = none) :
    Segment.settleEach setOf expand ss = pure ss := by
  cases ss with
  | nil => rw [Segment.settleEach]
  | cons s ss =>
    rw [Segment.askedEach, List.forall_mem_append] at h
    rw [Segment.settleEach, Segment.settle_eq_pure s h.1, pure_bind,
      Segment.settleEach_eq_pure ss h.2, pure_bind]
termination_by structural ss

lemma Args.settle_eq_pure (as : Args) (h : ∀ u ∈ as.asked, setOf u = none) :
    as.settle setOf expand = pure as := by
  cases as with
  | angle as =>
    rw [Args.asked] at h
    rw [Args.settle, Arg.settleEach_eq_pure as h, pure_bind]
  | none | paren _ _ => rw [Args.settle]
termination_by structural as

lemma Arg.settleEach_eq_pure (as : List Arg) (h : ∀ u ∈ Arg.askedEach as, setOf u = none) :
    Arg.settleEach setOf expand as = pure as := by
  cases as with
  | nil => rw [Arg.settleEach]
  | cons a as =>
    cases a with
    | type t =>
      rw [Arg.askedEach, List.forall_mem_append, List.forall_mem_cons] at h
      rw [Arg.settleEach_cons_type, Ty.settlePart, h.1.1]
      dsimp only
      rw [Ty.settleParts_eq_pure t h.1.2, pure_bind, Arg.settleEach_eq_pure as h.2, pure_bind]
    | lifetime l =>
      rw [Arg.askedEach] at h
      rw [Arg.settleEach, Arg.settleEach_eq_pure as h, pure_bind]
termination_by structural as

lemma Bound.settle_eq_pure (b : Bound) (h : ∀ u ∈ b.asked, setOf u = none) :
    b.settle setOf expand = pure b := by
  cases b with
  | trait p binder =>
    rw [Bound.asked] at h
    rw [Bound.settle, Path.settle_eq_pure p h, pure_bind]
  | outlives l => rw [Bound.settle]
termination_by structural b

lemma Bound.settleEach_eq_pure (bs : List Bound) (h : ∀ u ∈ Bound.askedEach bs, setOf u = none) :
    Bound.settleEach setOf expand bs = pure bs := by
  cases bs with
  | nil => rw [Bound.settleEach]
  | cons b bs =>
    rw [Bound.askedEach, List.forall_mem_append] at h
    rw [Bound.settleEach, Bound.settle_eq_pure b h.1, pure_bind,
      Bound.settleEach_eq_pure bs h.2, pure_bind]
termination_by structural bs

end

end

end WhereClause
