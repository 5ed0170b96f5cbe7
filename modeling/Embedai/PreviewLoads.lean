import Mathlib.Data.List.Chain
import Embedai.PreviewTargets

namespace Embedai.PreviewPage

open McapFrames (Hook Governed)
open TransitionSystems

def Action.isEpisode : Action → Bool
  | .episode .. => true
  | _ => false

def lastFire (start : ℚ) (s : Page) : ℚ := (s.fired.head?.map Prod.fst).getD start

structure Spaced (start : ℚ) (s : Page) : Prop where
  fired : (s.fired.map Prod.fst ++ [start]).IsChain fun later earlier => earlier + debounceDelay ≤ later
  timeout : ∀ τ, s.timeout = some τ → lastFire start s + debounceDelay ≤ τ.due
  clock : lastFire start s ≤ s.clock

def versions (ran : Option Render) : ℕ := ran.elim 0 fun r => r.version + 1

variable {s t : Page} {a : Action} {as : List Action} {start : ℚ} {episodeId : String} {episode : Option EpisodeDetail}
  {clock : ℚ} {h k : Hook} {action : McapFrames.Action}

theorem Spaced.congr (hs : Spaced start s) (hfired : t.fired = s.fired) (hclock : s.clock ≤ t.clock)
    (htimeout : ∀ τ, t.timeout = some τ → lastFire start s + debounceDelay ≤ τ.due) : Spaced start t := by
  have hlast : lastFire start t = lastFire start s := by rw [lastFire, hfired, lastFire]
  refine ⟨?_, ?_, ?_⟩
  · rw [hfired]
    exact hs.fired
  · rw [hlast]
    exact htimeout
  · rw [hlast]
    exact hs.clock.trans hclock

theorem Spaced.debounced (hs : Spaced start s) (timestamp : ℚ) : Spaced start (s.debouncedLoadFrames timestamp) := by
  refine hs.congr rfl (le_refl _) fun τ hτ => ?_
  cases hτ
  have hclock := hs.clock
  exact add_le_add_left hclock debounceDelay

theorem Spaced.seek (hs : Spaced start s) (timeNs : ℚ) : Spaced start (s.handleSeek timeNs) := by
  have hqueued : Spaced start ({ s with lastLoadedTime := -1 }.enqueue [.currentTime timeNs, .isPlaying false]) :=
    hs.congr rfl (le_refl _) hs.timeout
  exact hqueued.debounced timeNs

theorem spaced_step (hs : Spaced start s) (hstep : step s a = some t) : Spaced start t := by
  cases step_sound hstep with
  | wait hpos => exact hs.congr rfl (le_add_of_nonneg_right hpos) hs.timeout
  | slide => exact hs.seek _
  | skip => exact hs.seek _
  | @fire τ hτ hdue =>
    have hlate := hs.timeout τ hτ
    refine ⟨?_, fun _ h => (nomatch h), le_refl _⟩
    rw [List.map_cons, List.cons_append, List.isChain_cons]
    refine ⟨fun y hy => ?_, hs.fired⟩
    have hy' : y = lastFire start s := by
      rw [lastFire]
      cases hfired : s.fired with
      | nil =>
        rw [hfired] at hy
        cases hy
        rfl
      | cons p rest =>
        rw [hfired] at hy
        cases hy
        rfl
    rw [hy']
    exact hlate.trans hdue
  | effects =>
    have hrestart : Spaced start s.loadFirst.restart := by
      unfold Page.restart Page.loadFirst
      split_ifs <;> exact hs.congr rfl (le_refl _) hs.timeout
    have hfollow : Spaced start s.loadFirst.restart.follow := by
      unfold Page.follow
      split_ifs
      · have hloaded :
            Spaced start { s.loadFirst.restart with lastLoadedTime := s.loadFirst.restart.shown.currentTime } :=
          hrestart.congr rfl (le_refl _) hrestart.timeout
        exact hloaded.debounced _
      · exact hrestart
      · exact hrestart
    exact hfollow.congr rfl (le_refl _) hfollow.timeout
  | _ => exact hs.congr rfl (le_refl _) hs.timeout

theorem spaced_mount : Spaced clock (.mount episodeId episode clock) :=
  ⟨List.isChain_singleton _, fun _ hτ => (nomatch hτ), le_refl _⟩

theorem length_mul_le {times : List ℚ}
    (h : (times ++ [start]).IsChain fun later earlier => earlier + debounceDelay ≤ later) :
    times.length * debounceDelay ≤ times.head?.getD start - start := by
  induction times with
  | nil => simp
  | cons time times ih =>
    rw [List.cons_append, List.isChain_cons] at h
    obtain ⟨hfirst, hrest⟩ := h
    have hnext : times.head?.getD start + debounceDelay ≤ time := by
      cases times with
      | nil => exact hfirst start rfl
      | cons next times => exact hfirst next rfl
    have hbound := ih hrest
    rw [List.length_cons, List.head?_cons, Option.getD_some]
    push_cast
    linarith

def Counted (s : Page) : Prop := s.hook.calls.length ≤ s.fired.length + versions s.ran

theorem counted_effects (hs : Aiming s) (hcounted : Counted s) : Counted s.effects := by
  have hfired : s.effects.fired = s.fired := by
    unfold Page.effects Page.follow Page.restart Page.loadFirst
    split_ifs <;> rfl
  have hran : versions s.effects.ran = s.shown.version + 1 := rfl
  rw [Counted, hfired, effects_hook, hran, Page.loadFirst]
  unfold Counted at hcounted
  split_ifs with hfirst
  · have hload := length_loadFrames s.shown.options 0 s.hook
    cases hran : s.ran with
    | none =>
      rw [hran] at hcounted
      change s.hook.calls.length ≤ s.fired.length + 0 at hcounted
      dsimp only
      omega
    | some r =>
      -- the version has changed, so it has grown
      have hle := (hs.ran r hran).version
      have hne : r.version ≠ s.shown.version := by
        intro heq
        have hchanged := hfirst.1
        rw [Page.changed, hran, Option.map_some, heq] at hchanged
        simp at hchanged
      rw [hran] at hcounted
      change s.hook.calls.length ≤ s.fired.length + (r.version + 1) at hcounted
      dsimp only
      omega
  · cases hran : s.ran with
    | none =>
      rw [hran] at hcounted
      change s.hook.calls.length ≤ s.fired.length + 0 at hcounted
      omega
    | some r =>
      have hle := (hs.ran r hran).version
      rw [hran] at hcounted
      change s.hook.calls.length ≤ s.fired.length + (r.version + 1) at hcounted
      omega

theorem counted_step (hs : Aiming s) (hcounted : Counted s) (hstep : step s a = some t) : Counted t := by
  cases step_sound hstep with
  | @fire τ =>
    have hload := length_loadFrames τ.options τ.timestamp s.hook
    unfold Counted at hcounted ⊢
    dsimp only [List.length_cons]
    omega
  | effects => exact counted_effects hs hcounted
  | hook hrequests hhook =>
    rw [Counted, length_requests hrequests hhook]
    exact hcounted
  | _ => exact hcounted

theorem version_step (hstep : step s a = some t) :
    t.upcoming.version = s.upcoming.version + if a.isEpisode then 1 else 0 := by
  cases step_sound hstep with
  | episode => rw [upcoming_enqueue]; rfl
  | slide => rw [upcoming_seek]; rfl
  | skip => rw [upcoming_seek]; rfl
  | toggle => rw [upcoming_enqueue]; rfl
  | rate => rw [upcoming_enqueue]; rfl
  | animate => rw [upcoming_enqueue]; rfl
  | effects => rw [upcoming_effects]; rfl
  | _ => rfl

theorem version_run (h : run step (.mount episodeId episode clock) as = some s) :
    s.upcoming.version = as.countP Action.isEpisode := by
  refine history_run (fun as s => s.upcoming.version = as.countP Action.isEpisode) (fun as s a t hs hstep => ?_) rfl h
  rw [version_step hstep, hs, List.countP_append, List.countP_singleton]

theorem loads_debounced (h : run step (.mount episodeId episode clock) as = some s) :
    (s.fired.map Prod.fst).IsChain (fun later earlier => earlier + 150 ≤ later) ∧
      150 * (s.hook.calls.length : ℚ) ≤ s.clock - clock + 150 * (as.countP Action.isEpisode + 1) := by
  have hspaced : Spaced clock s := invariant_run _ (fun _ _ _ => spaced_step) spaced_mount h
  have hcounted : Aiming s ∧ Counted s := by
    have hboth : ((Linked s ∧ Governed s.hook) ∧ Aiming s) ∧ Counted s := by
      refine invariant_run (fun s => ((Linked s ∧ Governed s.hook) ∧ Aiming s) ∧ Counted s)
        (fun s a t hs hstep => ?_) ⟨⟨⟨linked_mount, McapFrames.governed_mount _⟩, aiming_mount⟩, Nat.zero_le _⟩ h
      have ht := linked_governed_step hs.1.1 hstep
      exact ⟨⟨ht, aiming_step hs.1.2 ht.2 hstep⟩, counted_step hs.1.2 hs.2 hstep⟩
    exact ⟨hboth.1.2, hboth.2⟩
  refine ⟨hspaced.fired.left_of_append, ?_⟩
  have hversions : versions s.ran ≤ as.countP Action.isEpisode + 1 := by
    have hupcoming := version_run h
    have hshown := (precedes_upcoming s).version
    cases hran : s.ran with
    | none => exact Nat.zero_le _
    | some r =>
      have hr := (hcounted.1.ran r hran).version
      change r.version + 1 ≤ _
      omega
  have hcalls : (s.hook.calls.length : ℚ) ≤ s.fired.length + (as.countP Action.isEpisode + 1) := by
    exact_mod_cast hcounted.2.trans (Nat.add_le_add_left hversions _)
  have htimes : (s.fired.length : ℚ) * 150 ≤ s.clock - clock := by
    have hlength := length_mul_le hspaced.fired
    have hlast : (s.fired.map Prod.fst).head?.getD clock = lastFire clock s := by rw [List.head?_map, lastFire]
    have hclock := hspaced.clock
    rw [hlast, List.length_map, debounceDelay] at hlength
    linarith
  linarith

def twoSkips : List Action := skipForward ++ [.skip 5, .render, .effects, .wait 150, .fire]

theorem loads_debounced_twoSkips : ∃ s first second, run step (.mount "ep-1" (some cameraEpisode) 1) twoSkips = some s ∧
    s.fired.map Prod.fst = [second, first] ∧ first + 150 ≤ second ∧ s.hook.calls.length = 3 ∧
    150 * (s.hook.calls.length : ℚ) ≤ s.clock - 1 + 150 * (0 + 1) := by
  have hrun : (run step (.mount "ep-1" (some cameraEpisode) 1) twoSkips).any (fun s =>
      s.hook.calls.length = 3 && s.fired.map Prod.fst = [361, 211]) := by
    decide +kernel
  obtain ⟨s, hs, hfacts⟩ := (Option.any_eq_true _ _).mp hrun
  rw [Bool.and_eq_true, decide_eq_true_eq, decide_eq_true_eq] at hfacts
  obtain ⟨hlength, hfired⟩ := hfacts
  obtain ⟨hspaced, hcount⟩ := loads_debounced hs
  rw [hfired, List.isChain_cons] at hspaced
  exact ⟨s, 211, 361, hs, hfired, hspaced.1 211 rfl, hlength, by
    simpa [twoSkips, skipForward, Action.isEpisode] using hcount⟩

end Embedai.PreviewPage
