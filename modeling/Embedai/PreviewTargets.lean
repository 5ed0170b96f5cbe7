import Mathlib.Tactic.Linarith
import Embedai.PreviewSteps

namespace Embedai.PreviewPage

open McapFrames (Hook Governed)
open TransitionSystems

structure Render.Precedes (r q : Render) : Prop where
  version : r.version ≤ q.version
  options : q.version = r.version → q.options = r.options

def Page.upcoming (s : Page) : Render := (s.updates.foldl update (s.shown, false)).1

def Page.Aims (s : Page) (r : Render) : Prop :=
  match s.timeout with
  | some τ => τ.options = r.options ∧ τ.timestamp = r.currentTime
  | none => LoadedLast s.hook r.options r.currentTime

structure Aiming (s : Page) : Prop where
  ran : ∀ r, s.ran = some r → r.Precedes s.shown
  animation : s.animation.isSome → ∃ r, s.ran = some r ∧ r.isPlaying = true
  target : ∀ r, s.ran = some r → r.isPlaying = false → s.upcoming.currentTime = r.currentTime →
    s.upcoming.version = r.version → s.Aims r

variable {s t : Page} {a : Action} {as : List Action} {r q p : Render} {episodeId : String}
  {episode : Option EpisodeDetail} {clock : ℚ}

theorem Render.Precedes.refl (r : Render) : r.Precedes r := ⟨Nat.le_refl _, fun _ => rfl⟩

theorem Render.Precedes.trans (h : r.Precedes q) (h' : q.Precedes p) : r.Precedes p := by
  have hle := h.version
  have hle' := h'.version
  refine ⟨Nat.le_trans hle hle', fun heq => ?_⟩
  rw [h'.options (by omega), h.options (by omega)]

theorem precedes_update (p : Render × Bool) (u : Update) : p.1.Precedes (update p u).1 := by
  cases u with
  | episode episodeId episode => exact ⟨Nat.le_succ _, fun heq => absurd heq (Nat.succ_ne_self _)⟩
  | _ => exact ⟨Nat.le_refl _, fun _ => rfl⟩

theorem precedes_foldl (updates : List Update) (p : Render × Bool) : p.1.Precedes (updates.foldl update p).1 := by
  induction updates generalizing p with
  | nil => exact .refl p.1
  | cons u updates ih => exact (precedes_update p u).trans (ih (update p u))

theorem precedes_upcoming (s : Page) : s.shown.Precedes s.upcoming := precedes_foldl s.updates (s.shown, false)

theorem upcoming_enqueue (updates : List Update) (s : Page) :
    (s.enqueue updates).upcoming = (updates.foldl update (s.updates.foldl update (s.shown, false))).1 := by
  rw [Page.upcoming, Page.enqueue, List.foldl_append]

theorem upcoming_seek (timeNs : ℚ) (s : Page) :
    (s.handleSeek timeNs).upcoming = { s.upcoming with currentTime := timeNs, isPlaying := false } :=
  upcoming_enqueue [.currentTime timeNs, .isPlaying false] s

theorem aiming_mount : Aiming (.mount episodeId episode clock) where
  ran := fun _ hr => nomatch hr
  animation := fun h => nomatch h
  target := fun _ hr => nomatch hr

theorem Aiming.queued (hs : Aiming s) (hshown : t.shown = s.shown) (hran : t.ran = s.ran)
    (hanimation : t.animation = s.animation)
    (htarget : ∀ r, s.ran = some r → r.isPlaying = false → t.upcoming.currentTime = r.currentTime →
      t.upcoming.version = r.version → t.Aims r) : Aiming t := by
  refine ⟨?_, ?_, ?_⟩
  · rw [hran, hshown]
    exact hs.ran
  · rw [hran, hanimation]
    exact hs.animation
  · rw [hran]
    exact htarget

theorem aiming_seek (hs : Aiming s) (timeNs : ℚ) : Aiming (s.handleSeek timeNs) := by
  refine hs.queued rfl rfl rfl fun r hr _ htime hversion => ?_
  rw [upcoming_seek] at htime hversion
  -- no other episode is in the queue, so the callback of the render shown is that of the effects
  have hshown := hs.ran r hr
  have hle := hshown.version
  have hle' := (precedes_upcoming s).version
  exact ⟨hshown.options (Nat.le_antisymm (hversion ▸ hle') hle), htime⟩

theorem aims_fire {τ : Timeout} (hτ : s.timeout = some τ) (h : s.Aims r) :
    LoadedLast (s.hook.loadFrames τ.options τ.timestamp) r.options r.currentTime := by
  rw [Page.Aims, hτ] at h
  rw [h.1, h.2]
  exact loadedLast_loadFrames r.options r.currentTime s.hook

theorem precedes_render (s : Page) : s.shown.Precedes s.render.shown :=
  ⟨(precedes_upcoming s).version, (precedes_upcoming s).options⟩

theorem restart_loadFirst (s : Page) : s.loadFirst.restart.shown = s.shown ∧ s.loadFirst.restart.ran = s.ran ∧
    s.loadFirst.restart.updates = s.updates ∧ s.loadFirst.restart.timeout = s.timeout ∧
    s.loadFirst.restart.lastLoadedTime = s.lastLoadedTime := by
  unfold Page.restart Page.loadFirst
  split_ifs <;> exact ⟨rfl, rfl, rfl, rfl, rfl⟩

theorem isPlaying_of_animation (hs : Aiming s) (h : s.effects.animation.isSome) : s.shown.isPlaying = true := by
  have hfollow : s.effects.animation = s.loadFirst.restart.animation := by
    unfold Page.effects Page.follow
    split_ifs <;> rfl
  have hfirst : s.loadFirst.animation = s.animation ∧ s.loadFirst.shown = s.shown ∧ s.loadFirst.ran = s.ran := by
    unfold Page.loadFirst
    split_ifs <;> exact ⟨rfl, rfl, rfl⟩
  rw [hfollow, Page.restart] at h
  split_ifs at h with hchanged hplaying
  · exact hfirst.2.1 ▸ hplaying
  · cases h
  · obtain ⟨r, hr, hsame⟩ := changed_eq_false.mp (Bool.not_eq_true _ ▸ hchanged)
    rw [hfirst.1] at h
    rw [hfirst.2.2] at hr
    obtain ⟨q, hq, hplaying⟩ := hs.animation h
    obtain rfl : r = q := Option.some.inj (hr.symm.trans hq)
    rw [hfirst.2.1] at hsame
    exact (Prod.ext_iff.mp hsame).1.symm.trans hplaying

theorem aims_effects (hs : Aiming s) (hpaused : s.shown.isPlaying = false)
    (htime : s.upcoming.currentTime = s.shown.currentTime) (hversion : s.upcoming.version = s.shown.version) :
    s.effects.Aims s.shown := by
  obtain ⟨hshown, hran, -, htimeout, -⟩ := restart_loadFirst s
  by_cases hchanged : s.changed fun r => (r.currentTime, r.isPlaying, r.version)
  · have hagain : s.loadFirst.restart.changed (fun r => (r.currentTime, r.isPlaying, r.version)) = true := by
      rw [Page.changed, hran, hshown]
      exact hchanged
    have hpaused' : s.loadFirst.restart.shown.isPlaying = false := by
      rw [hshown]
      exact hpaused
    have hfollow : s.effects.timeout = s.loadFirst.restart.follow.timeout := rfl
    rw [Page.Aims, hfollow, Page.follow, if_pos hagain, if_pos (.inl hpaused')]
    dsimp only [Page.debouncedLoadFrames]
    rw [hshown]
    exact ⟨rfl, rfl⟩
  · obtain ⟨r, hr, hsame⟩ := changed_eq_false.mp (Bool.not_eq_true _ ▸ hchanged)
    obtain ⟨hcurrent, hrest⟩ := Prod.ext_iff.mp hsame
    obtain ⟨hplaying, hrversion⟩ := Prod.ext_iff.mp hrest
    dsimp only at hcurrent hplaying hrversion
    have haims := hs.target r hr (hplaying.trans hpaused) (htime.trans hcurrent.symm) (hversion.trans hrversion.symm)
    -- the episode is that of the effects, so that none of them does anything but for the animation
    have hfirst : s.loadFirst = s := by
      rw [Page.loadFirst, if_neg]
      rintro ⟨hnew, -⟩
      rw [Page.changed, hr, Option.map_some, hrversion] at hnew
      simp at hnew
    have hrestart : s.restart.timeout = s.timeout ∧ s.restart.hook = s.hook := by
      unfold Page.restart
      split_ifs <;> exact ⟨rfl, rfl⟩
    rw [hfirst] at hran hshown
    have hagain : ¬ s.restart.changed (fun r => (r.currentTime, r.isPlaying, r.version)) = true := by
      rw [Page.changed, hran, hshown]
      exact hchanged
    have hoptions : s.shown.options = r.options := (hs.ran r hr).options hrversion.symm
    unfold Page.Aims Page.effects
    rw [hfirst, Page.follow, if_neg hagain]
    dsimp only
    rw [hrestart.1, hrestart.2, hoptions, ← hcurrent]
    exact haims

theorem upcoming_effects (s : Page) : s.effects.upcoming = s.upcoming := by
  obtain ⟨hshown, hupdates⟩ := effects_queue s
  rw [Page.upcoming, Page.upcoming, hupdates, hshown]

theorem aiming_effects (hs : Aiming s) : Aiming s.effects := by
  refine ⟨fun r hr => ?_, fun h => ⟨s.shown, rfl, isPlaying_of_animation hs h⟩, fun r hr hpaused htime hversion => ?_⟩
  · cases hr
    rw [(effects_queue s).1]
    exact .refl _
  · cases hr
    rw [upcoming_effects] at htime hversion
    exact aims_effects hs hpaused htime hversion

theorem aiming_step (hs : Aiming s) (ht : Governed t.hook) (hstep : step s a = some t) : Aiming t := by
  cases step_sound hstep with
  | wait => exact hs.queued rfl rfl rfl hs.target
  | episode episodeId episode =>
    refine hs.queued rfl rfl rfl fun r hr _ _ hversion => ?_
    rw [upcoming_enqueue] at hversion
    have hle := (hs.ran r hr).version
    have hle' := (precedes_upcoming s).version
    have hlt : s.upcoming.version + 1 = r.version := hversion
    omega
  | slide => exact aiming_seek hs _
  | skip => exact aiming_seek hs _
  | toggle =>
    refine hs.queued rfl rfl rfl fun r hr hpaused htime hversion => ?_
    rw [upcoming_enqueue] at htime hversion
    exact hs.target r hr hpaused htime hversion
  | rate =>
    refine hs.queued rfl rfl rfl fun r hr hpaused htime hversion => ?_
    rw [upcoming_enqueue] at htime hversion
    exact hs.target r hr hpaused htime hversion
  | animate hanimation =>
    refine hs.queued rfl rfl rfl fun r hr hpaused _ _ => ?_
    -- frames are only asked for while the effects of a playing render stand
    obtain ⟨q, hq, hplaying⟩ := hs.animation (Option.isSome_iff_exists.mpr ⟨_, hanimation⟩)
    obtain rfl : r = q := Option.some.inj (hr.symm.trans hq)
    rw [hpaused] at hplaying
    cases hplaying
  | fire hτ =>
    refine hs.queued rfl rfl rfl fun r hr hpaused htime hversion => ?_
    exact aims_fire hτ (hs.target r hr hpaused htime hversion)
  | render =>
    refine ⟨fun r hr => (hs.ran r hr).trans (precedes_render s), hs.animation, fun r hr hpaused htime hversion => ?_⟩
    exact hs.target r hr hpaused htime hversion
  | effects => exact aiming_effects hs
  | hook hrequests hhook =>
    refine hs.queued rfl rfl rfl fun r hr hpaused htime hversion => ?_
    have haims := hs.target r hr hpaused htime hversion
    unfold Page.Aims at haims ⊢
    dsimp only
    cases hτ : s.timeout with
    | some τ =>
      rw [hτ] at haims
      exact haims
    | none =>
      rw [hτ] at haims
      exact loadedLast_requests ht hrequests hhook haims

theorem aiming_run (h : run step (.mount episodeId episode clock) as = some s) :
    (Linked s ∧ Governed s.hook) ∧ Aiming s := by
  refine invariant_run (fun s => (Linked s ∧ Governed s.hook) ∧ Aiming s) (fun s a t hs hstep => ?_)
    ⟨⟨linked_mount, McapFrames.governed_mount _⟩, aiming_mount⟩ h
  have ht := linked_governed_step hs.1 hstep
  exact ⟨ht, aiming_step hs.2 ht.2 hstep⟩

theorem paused_loads_position (h : run step (.mount episodeId episode clock) as = some s) (hsettled : Settled s)
    (hpaused : s.shown.isPlaying = false) :
    (∃ τ, s.timeout = some τ ∧ τ.options = s.shown.options ∧ τ.timestamp = s.shown.currentTime) ∨
      s.timeout = none ∧ (s.shown.imageTopics = [] ∨ ∃ c, s.hook.latestLoad = some c ∧ c.props = s.shown.options ∧
        c.timestamp = s.shown.currentTime ∧ (s.hook.isLoading = true ↔ c.finished = false)) := by
  obtain ⟨⟨hlinked, hgoverned⟩, haiming⟩ := aiming_run h
  obtain ⟨hupdates, hran⟩ := hsettled
  have hupcoming : s.upcoming = s.shown := by
    rw [Page.upcoming, hupdates]
    rfl
  have haims := haiming.target s.shown hran hpaused (by rw [hupcoming]) (by rw [hupcoming])
  unfold Page.Aims at haims
  cases hτ : s.timeout with
  | some τ =>
    rw [hτ] at haims
    exact .inl ⟨τ, rfl, haims⟩
  | none =>
    rw [hτ] at haims
    refine .inr ⟨rfl, haims.imp_right ?_⟩
    rintro ⟨j, c, hcontroller, hc, hprops, htimestamp⟩
    have hgoverns := hgoverned.governs hcontroller hc
    exact ⟨c, hgoverns.latestLoad, hprops, htimestamp, hgoverns.flag hlinked.mounted⟩

def skipForward : List Action :=
  [.effects, .wait 10, .skip 5, .toggle, .render, .effects, .animate, .toggle, .render, .effects, .wait 200, .fire]

theorem paused_loads_position_skipForward : ∃ s, run step (.mount "ep-1" (some cameraEpisode) 1) skipForward = some s ∧
    s.shown.currentTime = 5000000000 ∧ ∃ c, s.hook.latestLoad = some c ∧ c.timestamp = s.shown.currentTime := by
  have hrun : (run step (.mount "ep-1" (some cameraEpisode) 1) skipForward).any (fun s =>
      s.updates.isEmpty && s.ran = some s.shown && !s.shown.isPlaying && s.timeout.isNone &&
        s.shown.imageTopics ≠ [] && s.shown.currentTime = 5000000000) := by
    decide +kernel
  obtain ⟨s, hs, hfacts⟩ := (Option.any_eq_true _ _).mp hrun
  simp only [Bool.and_eq_true, List.isEmpty_iff, decide_eq_true_eq, Bool.not_eq_true', Option.isNone_iff_eq_none]
    at hfacts
  obtain ⟨⟨⟨⟨⟨hupdates, hran⟩, hpaused⟩, htimeout⟩, htopics⟩, htime⟩ := hfacts
  refine ⟨s, hs, htime, ?_⟩
  rcases paused_loads_position hs ⟨hupdates, hran⟩ hpaused with ⟨τ, hτ, -⟩ | ⟨-, hnone | ⟨c, hc, -, hat, -⟩⟩
  · rw [htimeout] at hτ
    cases hτ
  · exact absurd hnone htopics
  · exact ⟨c, hc, hat⟩

end Embedai.PreviewPage
