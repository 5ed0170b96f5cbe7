import Mathlib.Tactic.Common

namespace Embedai.PolledQueries

/-- The fetch under way has what the service has read for it, from when it has read it. -/
structure Query (α : Type) where
  data : Option α
  fetch : Option (Option α)

inductive Event
  | send
  | read
  | arrives
  | fails
  deriving DecidableEq

variable {α : Type}

def idle : Query α := ⟨none, none⟩

/-- A fetch that is sent while another is under way takes its place. -/
def step (value : Option α) (q : Query α) : Event → Option (Query α)
  | .send => some { q with fetch := some none }
  | .read => match q.fetch with
    | some none => value.map fun a => { q with fetch := some (some a) }
    | _ => none
  | .arrives => match q.fetch with
    | some (some a) => some ⟨some a, none⟩
    | _ => none
  | .fails => q.fetch.map fun _ => { q with fetch := none }

structure Behind (r : α → α → Prop) (value : Option α) (q : Query α) : Prop where
  data : ∀ a, q.data = some a → ∃ b, value = some b ∧ r a b
  fetch : ∀ a, q.fetch = some (some a) → (∃ b, value = some b ∧ r a b) ∧ ∀ d, q.data = some d → r d a

variable {r : α → α → Prop} {value value' : Option α} {q q' : Query α} {e : Event}

theorem behind_idle : Behind r value idle := ⟨nofun, nofun⟩

theorem Behind.moves (h : Behind r value q) (htrans : ∀ a b c, r a b → r b c → r a c)
    (hvalue : ∀ b, value = some b → ∃ b', value' = some b' ∧ r b b') : Behind r value' q := by
  have hmoves {a : α} (h : ∃ b, value = some b ∧ r a b) : ∃ b, value' = some b ∧ r a b := by
    obtain ⟨b, hb, hab⟩ := h
    obtain ⟨b', hb', hbb'⟩ := hvalue b hb
    exact ⟨b', hb', htrans a b b' hab hbb'⟩
  refine ⟨fun a ha => hmoves (h.data a ha), fun a ha => ?_⟩
  obtain ⟨hvalue, hdata⟩ := h.fetch a ha
  exact ⟨hmoves hvalue, hdata⟩

theorem Behind.step (h : Behind r value q) (hrefl : ∀ a, r a a) (hstep : step value q e = some q') :
    Behind r value q' := by
  cases e with
  | send =>
    cases hstep
    exact ⟨h.data, nofun⟩
  | read =>
    rw [PolledQueries.step] at hstep
    split at hstep
    · obtain ⟨b, hb, rfl⟩ := Option.map_eq_some_iff.mp hstep
      refine ⟨h.data, fun a ha => ?_⟩
      cases ha
      refine ⟨⟨b, hb, hrefl b⟩, fun d hd => ?_⟩
      obtain ⟨b', hb', hdb⟩ := h.data d hd
      rw [hb, Option.some.injEq] at hb'
      exact hb' ▸ hdb
    · cases hstep
  | arrives =>
    rw [PolledQueries.step] at hstep
    split at hstep
    · rename_i a ha
      cases hstep
      refine ⟨fun d hd => ?_, nofun⟩
      cases hd
      exact (h.fetch a ha).1
    · cases hstep
  | fails =>
    obtain ⟨_, -, rfl⟩ := Option.map_eq_some_iff.mp hstep
    exact ⟨h.data, nofun⟩

theorem origin {p : α → Prop} (hdata : ∀ a, q.data = some a → p a) (hfetch : ∀ a, q.fetch = some (some a) → p a)
    (hvalue : ∀ a, value = some a → p a) (hstep : PolledQueries.step value q e = some q') :
    (∀ a, q'.data = some a → p a) ∧ ∀ a, q'.fetch = some (some a) → p a := by
  cases e with
  | send =>
    cases hstep
    exact ⟨hdata, nofun⟩
  | read =>
    rw [PolledQueries.step] at hstep
    split at hstep
    · obtain ⟨b, hb, rfl⟩ := Option.map_eq_some_iff.mp hstep
      refine ⟨hdata, fun a ha => ?_⟩
      cases ha
      exact hvalue b hb
    · cases hstep
  | arrives =>
    rw [PolledQueries.step] at hstep
    split at hstep
    · rename_i a ha
      cases hstep
      refine ⟨fun d hd => ?_, nofun⟩
      cases hd
      exact hfetch a ha
    · cases hstep
  | fails =>
    obtain ⟨_, -, rfl⟩ := Option.map_eq_some_iff.mp hstep
    exact ⟨hdata, nofun⟩

end Embedai.PolledQueries
