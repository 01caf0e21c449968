import Mathlib.Data.List.Forall2
import Mathlib.Logic.Equiv.Defs
import Tess.Effects.Costs

/-!
# Interfaces within interfaces

A program whose operations are some of those of a larger interface is a program of that interface.
It makes the same calls and gets the same answers there. Where the answers of the larger interface may
fail to arrive, the program is given up at the first call that is left pending.
-/

namespace Effects

universe u

variable {Ω Ω' : Type u} {Res : Ω → Type u} {Res' : Ω' → Type u} {ε α : Type u}

/-- The operations of one interface as operations of another. -/
structure Part (Res : Ω → Type u) (Res' : Ω' → Type u) where
  op : Ω → Ω'
  res (o : Ω) : Res o ≃ Res' (op o)

namespace Part

variable (i : Part Res Res')

def answer (e : Answer Res) : Answer Res' := ⟨i.op e.1, i.res e.1 e.2⟩

/-- The program in the larger interface. -/
def lift : Prog Res α → Prog Res' α
  | .pure a => .pure a
  | .op o k => .op (i.op o) fun y => lift (k ((i.res o).symm y))

def liftT (x : ExceptT ε (Prog Res) α) : ExceptT ε (Prog Res') α := ExceptT.mk (i.lift x.run)

variable {i}

theorem traces_lift_iff {p : Prog Res α} {a : α} {l : List (Answer Res')} :
    Traces (i.lift p) a l ↔ ∃ l₀, Traces p a l₀ ∧ l = l₀.map i.answer := by
  constructor
  · intro h
    induction p generalizing l with
    | pure b =>
      obtain ⟨rfl, rfl⟩ := traces_pure_iff.1 h
      exact ⟨[], .pure a, rfl⟩
    | op o k ih =>
      cases h with
      | op y h =>
        obtain ⟨l₀, h₀, rfl⟩ := ih _ h
        refine ⟨⟨o, (i.res o).symm y⟩ :: l₀, .op _ h₀, ?_⟩
        rw [List.map_cons, answer, Equiv.apply_symm_apply]
  · rintro ⟨l₀, h, rfl⟩
    induction h with
    | pure a => exact .pure a
    | op x _ ih =>
      refine .op _ ?_
      rwa [Equiv.symm_apply_apply]

/-- In the larger interface a program costs what it costs in its own. -/
theorem affords_liftT {ε : Type u} {cost : Answer Res → ℕ} {cost' : Answer Res' → ℕ}
    {trust : List (Answer Res) → Prop} {trust' : List (Answer Res') → Prop} {b : ℕ}
    {x : ExceptT (Stop ε) (Prog Res) α} (hx : Affords cost trust b x)
    (hcost : ∀ l, total cost' (l.map i.answer) = total cost l)
    (htrust : ∀ l, trust' (l.map i.answer) → trust l) : Affords cost' trust' b (i.liftT x) := by
  intro r l h ht
  obtain ⟨l₀, h₀, rfl⟩ := traces_lift_iff.1 h
  rw [hcost]
  exact hx r l₀ h₀ (htrust l₀ ht)

theorem ends_liftT_iff {x : ExceptT ε (Prog Res) α} {r : Except ε α} {l : List (Answer Res')} :
    Ends (i.liftT x) r l ↔ ∃ l₀, Ends x r l₀ ∧ l = l₀.map i.answer := traces_lift_iff

theorem AllOps.liftT {P : Ω → Prop} {S : Ω' → Prop} {x : ExceptT ε (Prog Res) α}
    (hx : AllOps P x) (h : ∀ o, P o → S (i.op o)) : AllOps S (i.liftT x) := by
  have hall : ∀ {β : Type u} (p : Prog Res β), p.All P → (i.lift p).All S := by
    intro β p
    induction p with
    | pure b => exact id
    | op o k ih => exact fun hp => ⟨h o hp.1, fun y => ih _ (hp.2 _)⟩
  exact hall x.run hx

theorem allOps_true (x : ExceptT ε (Prog Res) α) : AllOps (fun _ => True) x := by
  have hall : ∀ {β : Type u} (p : Prog Res β), p.All fun _ => True := by
    intro β p
    induction p with
    | pure b => trivial
    | op o k ih => exact ⟨trivial, ih⟩
  exact hall x.run

theorem allOps_liftT {S : Ω' → Prop} (h : ∀ o, S (i.op o)) (x : ExceptT ε (Prog Res) α) :
    AllOps S (i.liftT x) := AllOps.liftT (allOps_true x) fun o _ => h o

end Part

/-! ## Programs that are given up -/

/-- The operations of one interface as operations of another, where an answer may not arrive. -/
structure Pending (Res : Ω → Type u) (Res' : Ω' → Type u) where
  op : Ω → Ω'
  arrived (o : Ω) : Res' (op o) → Option (Res o)

namespace Pending

variable (i : Pending Res Res')

/-- The program in the larger interface. It fails with `e` where it is given up. -/
def race (e : ε) : Prog Res (Except ε α) → Prog Res' (Except ε α)
  | .pure r => .pure r
  | .op o k => .op (i.op o) fun y =>
    match i.arrived o y with
    | some x => race e (k x)
    | none => .pure (.error e)

def raceT (e : ε) (x : ExceptT ε (Prog Res) α) : ExceptT ε (Prog Res') α :=
  ExceptT.mk (i.race e x.run)

/-- The call was answered, and the answer has arrived. -/
inductive Arrives : Answer Res → Answer Res' → Prop
  | answer {o : Ω} {x : Res o} {y : Res' (i.op o)} (h : i.arrived o y = some x) :
      Arrives ⟨o, x⟩ ⟨i.op o, y⟩

/-- The calls up to the one that is left pending. -/
inductive GivenUp : Prog Res α → List (Answer Res') → Prop
  | pending {o : Ω} {k : Res o → Prog Res α} {y : Res' (i.op o)} (hy : i.arrived o y = none) :
      GivenUp (.op o k) [⟨i.op o, y⟩]
  | later {o : Ω} {k : Res o → Prog Res α} {x : Res o} {y : Res' (i.op o)} {l : List (Answer Res')}
      (hy : i.arrived o y = some x) (h : GivenUp (k x) l) : GivenUp (.op o k) (⟨i.op o, y⟩ :: l)

variable {i} {e : ε} {r : Except ε α} {l : List (Answer Res')}

theorem traces_race_op_iff {o : Ω} {k : Res o → Prog Res (Except ε α)} :
    Traces (i.race e (.op o k)) r l ↔ ∃ y l', l = ⟨i.op o, y⟩ :: l' ∧
      ((∃ x, i.arrived o y = some x ∧ Traces (i.race e (k x)) r l') ∨
        i.arrived o y = none ∧ r = .error e ∧ l' = []) := by
  constructor
  · intro h
    rw [race] at h
    cases h with
    | op y h =>
      refine ⟨y, _, rfl, ?_⟩
      cases hy : i.arrived o y with
      | some x =>
        simp only [hy] at h
        exact .inl ⟨x, rfl, h⟩
      | none =>
        simp only [hy] at h
        exact .inr ⟨rfl, traces_pure_iff.1 h⟩
  · rintro ⟨y, l', rfl, ⟨x, hy, h⟩ | ⟨hy, rfl, rfl⟩⟩
    · rw [race]
      refine .op y ?_
      simpa only [hy] using h
    · rw [race]
      refine .op y ?_
      simpa only [hy] using .pure _

theorem traces_race_iff {p : Prog Res (Except ε α)} : Traces (i.race e p) r l ↔
    (∃ l₀, Traces p r l₀ ∧ List.Forall₂ i.Arrives l₀ l) ∨ r = .error e ∧ i.GivenUp p l := by
  induction p generalizing l with
  | pure r' =>
    constructor
    · intro h
      obtain ⟨rfl, rfl⟩ := traces_pure_iff.1 h
      exact .inl ⟨[], .pure _, .nil⟩
    · rintro (⟨l₀, h, hl⟩ | ⟨-, ⟨⟩⟩)
      obtain ⟨rfl, rfl⟩ := traces_pure_iff.1 h
      cases hl
      exact .pure _
  | op o k ih =>
    rw [traces_race_op_iff]
    constructor
    · rintro ⟨y, l', rfl, ⟨x, hy, h⟩ | ⟨hy, rfl, rfl⟩⟩
      · obtain ⟨l₀, h₀, hl⟩ | ⟨rfl, hup⟩ := (ih x).1 h
        · exact .inl ⟨⟨o, x⟩ :: l₀, .op x h₀, .cons (.answer hy) hl⟩
        · exact .inr ⟨rfl, .later hy hup⟩
      · exact .inr ⟨rfl, .pending hy⟩
    · rintro (⟨l₀, h, hl⟩ | ⟨rfl, hup⟩)
      · cases h with
        | op x h =>
          cases hl with
          | cons hx hl =>
            cases hx with
            | answer hy => exact ⟨_, _, rfl, .inl ⟨x, hy, (ih x).2 (.inl ⟨_, h, hl⟩)⟩⟩
      · cases hup with
        | pending hy => exact ⟨_, [], rfl, .inr ⟨hy, rfl, rfl⟩⟩
        | later hy hup => exact ⟨_, _, rfl, .inl ⟨_, hy, (ih _).2 (.inr ⟨rfl, hup⟩)⟩⟩

/-- **A race** is won by the program, when all its answers arrive, or the program is given up. -/
theorem ends_raceT_iff {x : ExceptT ε (Prog Res) α} : Ends (i.raceT e x) r l ↔
    (∃ l₀, Ends x r l₀ ∧ List.Forall₂ i.Arrives l₀ l) ∨ r = .error e ∧ i.GivenUp x.run l :=
  traces_race_iff

end Pending

end Effects
