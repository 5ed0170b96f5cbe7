import Mathlib.Data.List.Forall2
import Mathlib.Tactic.Common

/-!
Request handlers: computations that may stop with an error and keep the changes made before it.
-/

namespace Embedai.Handlers

abbrev Handler (σ ε α : Type) := ExceptT ε (StateM σ) α

variable {σ ε α β : Type}

def answer (x : Handler σ ε α) (s : σ) : Except ε α × σ := x.run s

/-- A call of another component: it fails, or takes effect when it can. -/
def attempt (fails : Bool) (e : ε) (call : σ → Option (α × σ)) : Handler σ ε α :=
  ExceptT.mk fun s =>
    if fails then (.error e, s)
    else match call s with
      | some (a, t) => (.ok a, t)
      | none => (.error e, s)

def orRaise (e : ε) : Option α → Except ε α
  | some a => .ok a
  | none => .error e

def require (x : Except ε α) : Handler σ ε α := ExceptT.mk fun s => (x, s)

theorem answer_pure (a : α) (s : σ) : answer (pure a : Handler σ ε α) s = (.ok a, s) := rfl

theorem answer_require (x : Except ε α) (s : σ) : answer (require x : Handler σ ε α) s = (x, s) := rfl

theorem answer_get (s : σ) : answer (get : Handler σ ε σ) s = (.ok s, s) := rfl

theorem answer_attempt (fails : Bool) (e : ε) (call : σ → Option (α × σ)) (s : σ) :
    answer (attempt fails e call) s =
      if fails then (.error e, s) else match call s with
        | some (a, t) => (.ok a, t)
        | none => (.error e, s) := rfl

theorem answer_modify (f : σ → σ) (s : σ) : answer (modify f : Handler σ ε PUnit) s = (.ok (), f s) := rfl

theorem answer_bind (x : Handler σ ε α) (f : α → Handler σ ε β) (s : σ) :
    answer (x >>= f) s = match answer x s with
      | (.ok a, t) => answer (f a) t
      | (.error e, t) => (.error e, t) := by
  change (match x.run s with | (r, t) => (ExceptT.bindCont f r : StateM σ (Except ε β)) t) = _
  unfold answer
  rcases x.run s with ⟨r, t⟩
  cases r <;> rfl

theorem answer_bind_of_ok {x : Handler σ ε α} {f : α → Handler σ ε β} {s t : σ} {a : α}
    (h : answer x s = (.ok a, t)) : answer (x >>= f) s = answer (f a) t := by
  rw [answer_bind, h]

theorem answer_bind_eq_ok {x : Handler σ ε α} {f : α → Handler σ ε β} {s u : σ} {b : β} :
    answer (x >>= f) s = (.ok b, u) ↔ ∃ a t, answer x s = (.ok a, t) ∧ answer (f a) t = (.ok b, u) := by
  rw [answer_bind]
  rcases answer x s with ⟨r, t⟩
  cases r with
  | error e => simp
  | ok a => simp

theorem answer_attempt_eq_ok {fails : Bool} {e : ε} {call : σ → Option (α × σ)} {s t : σ} {a : α} :
    answer (attempt fails e call) s = (.ok a, t) ↔ fails = false ∧ call s = some (a, t) := by
  change (if fails then (Except.error e, s) else _) = _ ↔ _
  cases fails with
  | true => simp
  | false =>
    cases hc : call s with
    | none => simp
    | some p => simp [Prod.ext_iff]

theorem answer_bind_eq_error {x : Handler σ ε α} {f : α → Handler σ ε β} {s u : σ} {e : ε} :
    answer (x >>= f) s = (.error e, u) ↔
      answer x s = (.error e, u) ∨ ∃ a t, answer x s = (.ok a, t) ∧ answer (f a) t = (.error e, u) := by
  rw [answer_bind]
  rcases answer x s with ⟨r, t⟩
  cases r with
  | error e' => simp
  | ok a => simp

theorem answer_attempt_eq_error {fails : Bool} {e e' : ε} {call : σ → Option (α × σ)} {s t : σ} :
    answer (attempt fails e call) s = (.error e', t) ↔ (fails = true ∨ call s = none) ∧ e = e' ∧ s = t := by
  rw [answer_attempt]
  cases fails with
  | true => simp
  | false =>
    cases hc : call s with
    | none => simp
    | some p => simp

theorem answer_require_eq_ok {x : Except ε α} {s t : σ} {a : α} :
    answer (require x : Handler σ ε α) s = (.ok a, t) ↔ x = .ok a ∧ s = t := by
  simp [answer_require]

theorem except_bind_eq_ok {x : Except ε α} {f : α → Except ε β} {b : β} :
    x >>= f = .ok b ↔ ∃ a, x = .ok a ∧ f a = .ok b := by
  cases x with
  | error e => simp [bind, Except.bind]
  | ok a => simp [bind, Except.bind]

theorem except_map_eq_ok {x : Except ε α} {f : α → β} {b : β} :
    x.map f = .ok b ↔ ∃ a, x = .ok a ∧ f a = b := by
  cases x with
  | error e => simp [Except.map]
  | ok a => simp [Except.map]

theorem mapM_eq_ok {f : α → Except ε β} {l : List α} {bs : List β} :
    l.mapM f = .ok bs ↔ List.Forall₂ (fun a b => f a = .ok b) l bs := by
  induction l generalizing bs with
  | nil =>
    rw [List.forall₂_nil_left_iff]
    constructor
    · intro h
      cases h
      rfl
    · rintro rfl
      rfl
  | cons a l ih =>
    rw [List.mapM_cons, List.forall₂_cons_left_iff]
    simp only [except_bind_eq_ok]
    constructor
    · rintro ⟨b, hb, cs, hcs, h⟩
      cases h
      exact ⟨b, cs, hb, ih.mp hcs, rfl⟩
    · rintro ⟨b, cs, hb, hcs, rfl⟩
      exact ⟨b, hb, cs, ih.mpr hcs, rfl⟩

theorem length_of_mapM {f : α → Except ε β} {l : List α} {bs : List β} (h : l.mapM f = .ok bs) :
    l.length = bs.length := (mapM_eq_ok.mp h).length_eq

theorem orRaise_eq_ok {e : ε} {x : Option α} {a : α} : orRaise e x = .ok a ↔ x = some a := by
  cases x <;> simp [orRaise]

def Reads (x : Handler σ ε α) : Prop := ∀ s, (answer x s).2 = s

def FailsClean (x : Handler σ ε α) : Prop := ∀ s t e, answer x s = (.error e, t) → t = s

theorem reads_require (x : Except ε α) : Reads (require x : Handler σ ε α) := fun _ => rfl

theorem reads_get : Reads (get : Handler σ ε σ) := fun _ => rfl

theorem reads_pure (a : α) : Reads (pure a : Handler σ ε α) := fun _ => rfl

theorem Reads.bind {x : Handler σ ε α} {f : α → Handler σ ε β} (hx : Reads x) (hf : ∀ a, Reads (f a)) :
    Reads (x >>= f) := by
  intro s
  have hs := hx s
  rw [answer_bind]
  generalize answer x s = first at hs
  obtain ⟨r, t⟩ := first
  cases r with
  | error e => exact hs
  | ok a => exact (hf a t).trans hs

theorem Reads.failsClean {x : Handler σ ε α} (hx : Reads x) : FailsClean x := by
  intro s t e h
  have hs := hx s
  rw [h] at hs
  exact hs

theorem failsClean_attempt (fails : Bool) (e : ε) (call : σ → Option (α × σ)) : FailsClean (attempt fails e call) :=
  fun _ _ _ h => (answer_attempt_eq_error.mp h).2.2.symm

theorem FailsClean.bind {x : Handler σ ε α} {f : α → Handler σ ε β} (hx : Reads x) (hf : ∀ a, FailsClean (f a)) :
    FailsClean (x >>= f) := by
  intro s t e h
  rcases answer_bind_eq_error.mp h with hfirst | ⟨a, u, hfirst, hrest⟩
  · exact hx.failsClean s t e hfirst
  · have hs := hx s
    rw [hfirst] at hs
    exact (hf a u t e hrest).trans hs

theorem FailsClean.bind_pure {x : Handler σ ε α} (hx : FailsClean x) (f : α → β) :
    FailsClean (x >>= fun a => pure (f a)) := by
  intro s t e h
  rcases answer_bind_eq_error.mp h with hfirst | ⟨a, u, -, hrest⟩
  · exact hx s t e hfirst
  · rw [answer_pure] at hrest
    cases hrest

end Embedai.Handlers
