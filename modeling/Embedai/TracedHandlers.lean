import Embedai.Handlers

/-!
Handlers that record the state after each call: a crash leaves one of the recorded states. The triples say what such a
handler does when it returns and when it raises, and how each recorded state follows from the one before.
-/

namespace Embedai.TracedHandlers

open Handlers

structure Trace (σ : Type) where
  current : σ
  past : List σ

inductive Outcome (ε : Type)
  | ok
  | raises (e : ε)
  | raisesLate (e : ε)

variable {σ ε α β : Type}

def Outcome.succeeds : Outcome ε → Bool
  | ok => true
  | _ => false

def Outcome.takesEffect : Outcome ε → Bool
  | raises _ => false
  | _ => true

namespace Trace

def visited (t : Trace σ) : List σ := t.current :: t.past

def push (t : Trace σ) (s : σ) : Trace σ := ⟨s, t.current :: t.past⟩

inductive Extends (R : σ → σ → Prop) (t : Trace σ) : Trace σ → Prop
  | refl : Extends R t t
  | push {u s} (h : Extends R t u) (hs : R u.current s) : Extends R t (u.push s)

variable {R R' : σ → σ → Prop} {t u v : Trace σ}

theorem Extends.trans (h : Extends R t u) (h' : Extends R u v) : Extends R t v := by
  induction h' with
  | refl => exact h
  | push _ hs ih => exact ih.push hs

theorem Extends.mono (hR : ∀ r s, R r s → R' r s) (h : Extends R t u) : Extends R' t u := by
  induction h with
  | refl => exact .refl
  | push _ hs ih => exact ih.push (hR _ _ hs)

theorem Extends.forall_visited {I : σ → Prop} (h : Extends (fun _ s => I s) t u) (ht : ∀ s ∈ t.visited, I s) :
    ∀ s ∈ u.visited, I s := by
  induction h with
  | refl => exact ht
  | push _ hs ih => exact List.forall_mem_cons.mpr ⟨hs, ih⟩

theorem Extends.chain (h : Extends R t u) (ht : t.visited.IsChain (fun s r => R r s)) :
    u.visited.IsChain (fun s r => R r s) := by
  induction h with
  | refl => exact ht
  | push _ hs ih => exact List.isChain_cons_cons.mpr ⟨hs, ih⟩

end Trace

/-- A call that raises late has taken effect before its caller sees the exception. -/
def call (outcome : Outcome ε) (effect : σ → σ) : Handler (Trace σ) ε Unit :=
  ExceptT.mk fun t => match outcome with
    | .ok => (.ok (), t.push (effect t.current))
    | .raises e => (.error e, t)
    | .raisesLate e => (.error e, t.push (effect t.current))

def observe : Handler (Trace σ) ε σ := ExceptT.mk fun t => (.ok t.current, t)

def query (outcome : Outcome ε) (f : σ → α) : Handler (Trace σ) ε α := do
  call outcome id
  let s ← observe
  return f s

def recover (x : Handler σ ε α) (h : ε → Handler σ ε α) : Handler σ ε α := tryCatch x h

/-- `finally`: the clean-up runs on both ways out, and its own exception wins. -/
def ensure (x : Handler σ ε α) (cleanUp : Handler σ ε Unit) : Handler σ ε α := do
  let a ← recover x (fun e => do
    cleanUp
    throw e)
  cleanUp
  return a

theorem answer_recover (x : Handler σ ε α) (h : ε → Handler σ ε α) (s : σ) :
    answer (recover x h) s = match answer x s with
      | (.ok a, t) => (.ok a, t)
      | (.error e, t) => answer (h e) t := by
  change (match x.run s with
    | (r, t) => (match r with
      | .ok a => pure (Except.ok a)
      | .error e => (h e).run : StateM σ (Except ε α)) t) = _
  unfold answer
  rcases x.run s with ⟨r, t⟩
  cases r <;> rfl

structure Answered (R : σ → σ → Prop) (t : Trace σ) (Q : α → σ → Prop) (E : ε → σ → Prop)
    (p : Except ε α × Trace σ) : Prop where
  visits : t.Extends R p.2
  returned : ∀ a, p.1 = .ok a → Q a p.2.current
  raised : ∀ e, p.1 = .error e → E e p.2.current

def Triple (R : σ → σ → Prop) (P : σ → Prop) (x : Handler (Trace σ) ε α) (Q : α → σ → Prop) (E : ε → σ → Prop) : Prop :=
  ∀ t : Trace σ, P t.current → Answered R t Q E (answer x t)

section Rules

variable {R R' : σ → σ → Prop} {P P' : σ → Prop} {E E' : ε → σ → Prop}

theorem triple_pure {Q : α → σ → Prop} (a : α) (h : ∀ s, P s → Q a s) : Triple R P (pure a) Q E := by
  intro t hP
  rw [answer_pure]
  refine ⟨.refl, ?_, nofun⟩
  intro b hb
  cases hb
  exact h _ hP

theorem triple_bind {Q : α → σ → Prop} {S : β → σ → Prop} {x : Handler (Trace σ) ε α}
    {f : α → Handler (Trace σ) ε β} (hx : Triple R P x Q E) (hf : ∀ a, Triple R (Q a) (f a) S E) :
    Triple R P (x >>= f) S E := by
  intro t hP
  have h := hx t hP
  rw [answer_bind]
  rcases hans : answer x t with ⟨r, u⟩
  rw [hans] at h
  cases r with
  | ok a =>
    obtain ⟨hvisits, hreturned, hraised⟩ := hf a u (h.returned a rfl)
    exact ⟨h.visits.trans hvisits, hreturned, hraised⟩
  | error e =>
    refine ⟨h.visits, nofun, ?_⟩
    intro e' he
    cases he
    exact h.raised e rfl

theorem Triple.of_ok {Q : α → σ → Prop} {x : Handler (Trace σ) ε α} {t u : Trace σ} {a : α} (hx : Triple R P x Q E)
    (hP : P t.current) (h : answer x t = (.ok a, u)) : Q a u.current := by
  have hreturned := (hx t hP).returned a
  rw [h] at hreturned
  exact hreturned rfl

theorem triple_weaken {Q Q' : α → σ → Prop} {x : Handler (Trace σ) ε α} (h : Triple R P x Q E)
    (hR : ∀ r s, R r s → R' r s) (hP : ∀ s, P' s → P s) (hQ : ∀ a s, Q a s → Q' a s) (hE : ∀ e s, E e s → E' e s) :
    Triple R' P' x Q' E' := by
  intro t hs
  obtain ⟨hvisits, hreturned, hraised⟩ := h t (hP _ hs)
  exact ⟨hvisits.mono hR, fun a ha => hQ a _ (hreturned a ha), fun e he => hE e _ (hraised e he)⟩

theorem triple_assume {φ : Prop} {Q : α → σ → Prop} {x : Handler (Trace σ) ε α} (h : φ → Triple R P x Q E) :
    Triple R (fun s => φ ∧ P s) x Q E := fun t hP => h hP.1 t hP.2

theorem triple_exists {ι : Type} {I : ι → σ → Prop} {Q : α → σ → Prop} {x : Handler (Trace σ) ε α}
    (h : ∀ i, Triple R (I i) x Q E) : Triple R (fun s => ∃ i, I i s) x Q E := fun t hP => h hP.choose t hP.choose_spec

theorem triple_given {A : Prop} {Q : α → σ → Prop} {x : Handler (Trace σ) ε α} (hA : ∀ s, P s → A)
    (h : A → Triple R P x Q E) : Triple R P x Q E := fun t hP => h (hA _ hP) t hP

theorem triple_call {Q : Unit → σ → Prop} {outcome : Outcome ε} {effect : σ → σ}
    (hstep : ∀ s, P s → (∀ e, outcome ≠ .raises e) → R s (effect s)) (hok : ∀ s, P s → outcome = .ok → Q () (effect s))
    (hraises : ∀ s e, P s → outcome = .raises e → E e s)
    (hlate : ∀ s e, P s → outcome = .raisesLate e → E e (effect s)) : Triple R P (call outcome effect) Q E := by
  intro t hP
  cases outcome with
  | ok => exact ⟨.push .refl (hstep _ hP nofun), fun _ _ => hok _ hP rfl, nofun⟩
  | raises e =>
    refine ⟨.refl, nofun, ?_⟩
    intro e' he
    cases he
    exact hraises _ e hP rfl
  | raisesLate e =>
    refine ⟨.push .refl (hstep _ hP nofun), nofun, ?_⟩
    intro e' he
    cases he
    exact hlate _ e hP rfl

theorem triple_call_raises {Q : Unit → σ → Prop} {outcome : Outcome ε} {effect : σ → σ} {e : ε}
    (hraises : outcome = .raises e) (hE : ∀ s, P s → E e s) : Triple R P (call outcome effect) Q E := by
  subst hraises
  apply triple_call
  · exact fun _ _ hne => absurd rfl (hne e)
  · exact fun _ _ hok => nomatch hok
  · rintro s _ hs ⟨⟩
    exact hE s hs
  · exact fun _ _ _ hlate => nomatch hlate

theorem triple_observe : Triple R P (observe : Handler (Trace σ) ε σ) (fun a s => a = s ∧ P s) E := by
  intro t hP
  refine ⟨.refl, ?_, nofun⟩
  intro a ha
  cases ha
  exact ⟨rfl, hP⟩

theorem triple_query {outcome : Outcome ε} {f : σ → α} (hrefl : ∀ s, P s → R s s)
    (hE : ∀ s e, P s → outcome ≠ .ok → E e s) :
    Triple R P (query outcome f) (fun a s => outcome = .ok ∧ a = f s ∧ P s) E := by
  have hcall : Triple R P (call outcome id) (fun _ s => outcome = .ok ∧ P s) E :=
    triple_call (fun s hs _ => hrefl s hs) (fun s hs h => ⟨h, hs⟩) (fun s e hs h => hE s e hs (h ▸ nofun))
      (fun s e hs h => hE s e hs (h ▸ nofun))
  refine triple_bind hcall fun _ => triple_bind triple_observe fun a => ?_
  apply triple_pure
  rintro s ⟨rfl, hok, hP⟩
  exact ⟨hok, rfl, hP⟩

theorem triple_require {Q : α → σ → Prop} {r : Except ε α} (hok : ∀ s a, P s → r = .ok a → Q a s)
    (hE : ∀ s e, P s → r = .error e → E e s) : Triple R P (require r) Q E := by
  intro t hP
  rw [answer_require]
  exact ⟨.refl, fun a ha => hok _ a hP ha, fun e he => hE _ e hP he⟩

theorem triple_recover {Q : α → σ → Prop} {F : ε → σ → Prop} {x : Handler (Trace σ) ε α}
    {h : ε → Handler (Trace σ) ε α} (hx : Triple R P x Q F) (hh : ∀ e, Triple R (F e) (h e) Q E) :
    Triple R P (recover x h) Q E := by
  intro t hP
  have hans := hx t hP
  rw [answer_recover]
  rcases hr : answer x t with ⟨r, u⟩
  rw [hr] at hans
  cases r with
  | ok a =>
    refine ⟨hans.visits, ?_, nofun⟩
    intro b hb
    cases hb
    exact hans.returned a rfl
  | error e =>
    obtain ⟨hvisits, hreturned, hraised⟩ := hh e u (hans.raised e rfl)
    exact ⟨hans.visits.trans hvisits, hreturned, hraised⟩

theorem triple_throw {Q : α → σ → Prop} (e : ε) (h : ∀ s, P s → E e s) :
    Triple R P (throw e : Handler (Trace σ) ε α) Q E := by
  apply triple_require (r := .error e)
  · intro s a _ ha
    cases ha
  · intro s e' hs he
    cases he
    exact h s hs

theorem triple_ensure {Q S : α → σ → Prop} {x : Handler (Trace σ) ε α} {cleanUp : Handler (Trace σ) ε Unit}
    (hx : Triple R P x Q E') (hok : ∀ a, Triple R (Q a) cleanUp (fun _ => S a) E)
    (herror : ∀ e, Triple R (E' e) cleanUp (fun _ => E e) E) : Triple R P (ensure x cleanUp) S E := by
  have hrecover : Triple R P (recover x fun e => do
      cleanUp
      throw e) Q E :=
    triple_recover hx fun e => triple_bind (herror e) fun _ => triple_throw e fun _ hs => hs
  exact triple_bind hrecover fun a => triple_bind (hok a) fun _ => triple_pure a fun _ hs => hs

theorem triple_foldlM {I : List α → β → σ → Prop} {l : List α} {body : β → α → Handler (Trace σ) ε β}
    (h : ∀ done a rest b, l = done ++ a :: rest → Triple R (I done b) (body b a) (I (done ++ [a])) E) (b : β) :
    Triple R (I [] b) (l.foldlM body b) (I l) E := by
  suffices hrest : ∀ rest done b, l = done ++ rest → Triple R (I done b) (rest.foldlM body b) (I l) E from
    hrest l [] b rfl
  intro rest
  induction rest with
  | nil =>
    intro done b hl
    rw [List.append_nil] at hl
    subst hl
    exact triple_pure b (fun _ hs => hs)
  | cons a rest ih =>
    intro done b hl
    rw [List.foldlM_cons]
    refine triple_bind (h done a rest b hl) fun b' => ih (done ++ [a]) b' ?_
    rw [hl, List.append_assoc, List.singleton_append]

theorem triple_forM {I : List α → σ → Prop} {l : List α} {body : α → Handler (Trace σ) ε PUnit}
    (h : ∀ done a rest, l = done ++ a :: rest → Triple R (I done) (body a) (fun _ => I (done ++ [a])) E) :
    Triple R (I []) (l.forM body) (fun _ => I l) E := by
  suffices hrest : ∀ rest done, l = done ++ rest → Triple R (I done) (rest.forM body) (fun _ => I l) E from
    hrest l [] rfl
  intro rest
  induction rest with
  | nil =>
    intro done hl
    rw [List.append_nil] at hl
    subst hl
    exact triple_pure _ (fun _ hs => hs)
  | cons a rest ih =>
    intro done hl
    refine triple_bind (h done a rest hl) fun _ => ih (done ++ [a]) ?_
    rw [hl, List.append_assoc, List.singleton_append]

end Rules

end Embedai.TracedHandlers
