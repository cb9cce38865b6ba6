import Mathlib.Data.List.Forall2
import ReactiveModel.Proofs.Places
import ReactiveModel.Run.Generator

/-! Tasks whose actions interleave, in every order that there is. -/

namespace ReactiveModel

open List

namespace Run

variable {α : Type} {ts : List (Text × Work α)} {os : List (Text × α)} {f g : Files}

/-- One action of one of some named tasks. -/
inductive Advance : List (Text × Work α) → Files → List (Text × Work α) → Files → Prop
  | first {name : Text} {t u : Work α} {ts : List (Text × Work α)} {f g : Files}
      (h : t.step? f = some (u, g)) : Advance ((name, t) :: ts) f ((name, u) :: ts) g
  | later {t : Text × Work α} {ts us : List (Text × Work α)} {f g : Files}
      (h : Advance ts f us g) : Advance (t :: ts) f (t :: us) g

/-- Named tasks are done, whatever the order of their actions, with what they give and leave. -/
inductive Interleaved : List (Text × Work α) → Files → List (Text × α) → Files → Prop
  | done (os : List (Text × α)) (f : Files) :
      Interleaved (os.map fun o => (o.1, .done o.2)) f os f
  | step {ts us : List (Text × Work α)} {os : List (Text × α)} {f g h : Files}
      (ha : Advance ts f us g) (hr : Interleaved us g os h) : Interleaved ts f os h

/-! One task after the other is one of the orders. -/

lemma Interleaved.cons_done (h : Interleaved ts f os g) (name : Text) (a : α) :
    Interleaved ((name, .done a) :: ts) f ((name, a) :: os) g := by
  induction h with
  | done os f => exact .done ((name, a) :: os) f
  | step ha _ ih => exact .step (.later ha) ih

lemma Interleaved.cons_run {name : Text}
    {t : Work α} (h : Interleaved ((name, .done (t.run f).1) :: ts) (t.run f).2 os g) :
    Interleaved ((name, t) :: ts) f os g := by
  induction t generalizing f with
  | done a => exact h
  | read p next ih | list p next ih | act a next ih => exact .step (.first rfl) (ih _ h)

lemma interleaved_inTurn (ts : List (Text × Work α)) (f : Files) :
    Interleaved ts f ((inTurn ts).run f).1 ((inTurn ts).run f).2 := by
  induction ts generalizing f with
  | nil => exact .done [] f
  | cons t ts ih =>
    obtain ⟨name, t⟩ := t
    have hrun : (inTurn ((name, t) :: ts)).run f =
        ((name, (t.run f).1) :: ((inTurn ts).run (t.run f).2).1,
          ((inTurn ts).run (t.run f).2).2) := by
      simp only [inTurn, bind, pure, Work.run_bind, Work.run_done]
    rw [hrun]
    exact ((ih (t.run f).2).cons_done name _).cons_run

end Run

end ReactiveModel
