import Embedai.Handlers

namespace Embedai.LoggedHandlers

open Handlers

variable {σ ε α β κ : Type}

def logged (entry : Bool → κ) (x : Handler σ ε α) : Handler (σ × List κ) ε α :=
  ExceptT.mk fun s => match answer x s.1 with
    | (.ok a, t) => (.ok a, (t, s.2 ++ [entry true]))
    | (.error e, t) => (.error e, (t, s.2 ++ [entry false]))

theorem answer_logged (entry : Bool → κ) (x : Handler σ ε α) (s : σ) (log : List κ) :
    answer (logged entry x) (s, log) = match answer x s with
      | (.ok a, t) => (.ok a, (t, log ++ [entry true]))
      | (.error e, t) => (.error e, (t, log ++ [entry false])) := rfl

def Unlogged (x : Handler σ ε α) (y : Handler (σ × List κ) ε α) : Prop :=
  ∀ s log, answer x s = ((answer y (s, log)).1, (answer y (s, log)).2.1)

theorem unlogged_pure (a : α) : Unlogged (pure a : Handler σ ε α) (pure a : Handler (σ × List κ) ε α) :=
  fun _ _ => rfl

theorem unlogged_logged (entry : Bool → κ) (x : Handler σ ε α) : Unlogged x (logged entry x) := by
  intro s log
  rw [answer_logged]
  rcases answer x s with ⟨r, t⟩
  cases r <;> rfl

theorem Unlogged.bind {x : Handler σ ε α} {y : Handler (σ × List κ) ε α} {f : α → Handler σ ε β}
    {g : α → Handler (σ × List κ) ε β} (hx : Unlogged x y) (hf : ∀ a, Unlogged (f a) (g a)) :
    Unlogged (x >>= f) (y >>= g) := by
  intro s log
  have hfirst := hx s log
  rw [answer_bind, answer_bind, hfirst]
  rcases answer y (s, log) with ⟨r, t, log'⟩
  cases r with
  | error e => rfl
  | ok a => exact hf a t log'

end Embedai.LoggedHandlers
