import Embedai.LoadingFlag
import Embedai.PreviewPage

namespace Embedai.PreviewPage

open McapFrames (Hook UseMcapFramesOptions Governed Governs governed_step governed_load governed_mount follows_step)
open TransitionSystems

section Hook

variable {h k : Hook} {action : McapFrames.Action} {options : UseMcapFramesOptions} {timestamp : ℚ}

theorem loadFrames_frame (options : UseMcapFramesOptions) (timestamp : ℚ) (h : Hook) :
    (h.loadFrames options timestamp).mounted = h.mounted ∧ (h.loadFrames options timestamp).renders = h.renders := by
  rw [Hook.loadFrames]
  split_ifs
  · exact ⟨rfl, rfl⟩
  · obtain ⟨calls, isLoading, he, -, -⟩ := h.supersede_eq
    rw [he]
    exact ⟨rfl, rfl⟩

theorem requests_frame (hrequests : ofRequests action) (hstep : McapFrames.step h action = some k) :
    k.mounted = h.mounted ∧ k.renders = h.renders ∧ k.abortController = h.abortController := by
  cases McapFrames.step_sound hstep with
  | fetched => exact ⟨rfl, rfl, rfl⟩
  | failed => exact ⟨rfl, rfl, rfl⟩
  | remove => exact ⟨rfl, rfl, rfl⟩
  | race => exact ⟨rfl, rfl, rfl⟩
  | all => exact ⟨rfl, rfl, rfl⟩
  | publish =>
    obtain ⟨frames, isLoading, he⟩ := Hook.publish_eq _ _
    rw [he]
    exact ⟨rfl, rfl, rfl⟩
  | finish => exact ⟨rfl, rfl, rfl⟩
  | _ => exact absurd hrequests Bool.false_ne_true

def LoadedLast (h : Hook) (options : UseMcapFramesOptions) (timestamp : ℚ) : Prop :=
  options.topics = [] ∨ ∃ j c, h.abortController = some j ∧ h.calls[j]? = some c ∧ c.props = options ∧
    c.timestamp = timestamp

theorem loadedLast_loadFrames (options : UseMcapFramesOptions) (timestamp : ℚ) (h : Hook) :
    LoadedLast (h.loadFrames options timestamp) options timestamp := by
  by_cases hnone : options.topics = []
  · exact .inl hnone
  · rw [Hook.loadFrames, if_neg hnone]
    obtain ⟨calls, isLoading, he, hlength, -⟩ := h.supersede_eq
    have hsame : h.supersede.calls.length = h.calls.length := by
      rw [he]
      exact hlength
    refine .inr ⟨h.calls.length, h.supersede.started .loadFrames options timestamp, ?_, ?_, rfl, rfl⟩
    · rw [he]
      rfl
    · rw [Hook.getElem?_begin, if_pos hsame.symm]

theorem loadedLast_requests (hk : Governed k) (hrequests : ofRequests action)
    (hstep : McapFrames.step h action = some k) (h : LoadedLast h options timestamp) :
    LoadedLast k options timestamp := by
  refine h.imp_right ?_
  rintro ⟨j, c, hcontroller, hc, rfl, rfl⟩
  have hcontroller' := (requests_frame hrequests hstep).2.2.trans hcontroller
  obtain ⟨d, hd⟩ := hk.owner j hcontroller'
  refine ⟨j, d, hcontroller', hd.call, ?_⟩
  rcases follows_step hstep j d hd.call with ⟨c', hc', hfollows⟩ | hstarts
  · rw [hc, Option.some.injEq] at hc'
    subst hc'
    exact ⟨hfollows.props, hfollows.timestamp⟩
  · cases hstarts <;> exact absurd hrequests Bool.false_ne_true

theorem length_loadFrames (options : UseMcapFramesOptions) (timestamp : ℚ) (h : Hook) :
    (h.loadFrames options timestamp).calls.length ≤ h.calls.length + 1 := by
  rw [Hook.loadFrames]
  split_ifs
  · exact Nat.le_succ _
  · obtain ⟨calls, isLoading, he, hlength, -⟩ := h.supersede_eq
    rw [Hook.length_begin, he]
    exact Nat.le_of_eq (congrArg (· + 1) hlength)

theorem length_requests (hrequests : ofRequests action) (hstep : McapFrames.step h action = some k) :
    k.calls.length = h.calls.length := by
  cases McapFrames.step_sound hstep with
  | fetched => exact Hook.length_setCall ..
  | failed => exact Hook.length_setCall ..
  | remove => exact Hook.length_setCall ..
  | race => exact Hook.length_setCall ..
  | all => exact Hook.length_setCall ..
  | publish =>
    obtain ⟨frames, isLoading, he⟩ := Hook.publish_eq _ _
    rw [he]
    exact Hook.length_setCall ..
  | finish => exact Hook.length_setCall ..
  | _ => exact absurd hrequests Bool.false_ne_true

theorem timestamps_loadFrames {P : ℚ → Prop}
    (hcalls : ∀ (j : ℕ) (c : McapFrames.Call), h.calls[j]? = some c → P c.timestamp) (htimestamp : P timestamp) :
    ∀ (j : ℕ) (c : McapFrames.Call), (h.loadFrames options timestamp).calls[j]? = some c → P c.timestamp := by
  rw [Hook.loadFrames]
  split_ifs
  · exact hcalls
  · obtain ⟨calls, isLoading, he, -, hsame⟩ := h.supersede_eq
    refine Hook.forall_begin (fun j d hd => ?_) htimestamp
    rw [he] at hd
    obtain ⟨c, hc, rfl | rfl⟩ := hsame j d hd
    · exact hcalls j d hc
    · exact hcalls j c hc

theorem timestamps_requests {P : ℚ → Prop} (hrequests : ofRequests action) (hstep : McapFrames.step h action = some k)
    (hcalls : ∀ (j : ℕ) (c : McapFrames.Call), h.calls[j]? = some c → P c.timestamp) :
    ∀ (j : ℕ) (c : McapFrames.Call), k.calls[j]? = some c → P c.timestamp := by
  intro j d hd
  rcases follows_step hstep j d hd with ⟨c, hc, hfollows⟩ | hstarts
  · rw [hfollows.timestamp]
    exact hcalls j c hc
  · cases hstarts <;> exact absurd hrequests Bool.false_ne_true

end Hook

variable {s t : Page} {a : Action} {as : List Action} {episodeId : String} {episode : Option EpisodeDetail} {clock : ℚ}

inductive Step (s : Page) : Action → Page → Prop
  | wait {milliseconds : ℚ} (hpos : 0 ≤ milliseconds) :
      Step s (.wait milliseconds) { s with clock := s.clock + milliseconds }
  | episode (episodeId : String) (episode : Option EpisodeDetail) :
      Step s (.episode episodeId episode) (s.enqueue [.episode episodeId episode])
  | slide {newProgress : ℚ} (hlower : 0 ≤ newProgress) (hupper : newProgress ≤ 100) :
      Step s (.slide newProgress) (s.handleSeek (newProgress / 100 * s.shown.duration * 1000000000))
  | skip (seconds : ℚ) : Step s (.skip seconds) (s.handleSeek
      (max 0 (min (s.shown.currentTime + seconds * 1000000000) (s.shown.duration * 1000000000))))
  | toggle : Step s .toggle (s.enqueue [.isPlaying (!s.shown.isPlaying)])
  | rate {rate : ℚ} (hrate : rate ∈ playbackRates) : Step s (.rate rate) (s.enqueue [.playbackRate rate])
  | animate {playbackRate duration : ℚ} (hanimation : s.animation = some (playbackRate, duration)) :
      Step s .animate ({ s with lastFrameTime := s.clock }.enqueue
        [.advance ((s.clock - if s.lastFrameTime = 0 then s.clock else s.lastFrameTime) / 1000) playbackRate duration])
  | fire {τ : Timeout} (hτ : s.timeout = some τ) (hdue : τ.due ≤ s.clock) :
      Step s .fire { s with
        timeout := none
        fired := (s.clock, τ) :: s.fired
        hook := s.hook.loadFrames τ.options τ.timestamp }
  | render : Step s .render s.render
  | effects : Step s .effects s.effects
  | hook {action : McapFrames.Action} {hook : Hook} (hrequests : ofRequests action)
      (hhook : McapFrames.step s.hook action = some hook) :
      Step s (.hook action) { s with hook := hook }

theorem step_sound (hstep : step s a = some t) : Step s a t := by
  cases a with
  | wait milliseconds =>
    simp only [step, Option.ite_none_right_eq_some, Option.some.injEq] at hstep
    obtain ⟨hpos, rfl⟩ := hstep
    exact .wait hpos
  | episode episodeId episode =>
    cases hstep
    exact .episode episodeId episode
  | slide newProgress =>
    simp only [step, Option.ite_none_right_eq_some, Option.some.injEq] at hstep
    obtain ⟨⟨-, hlower, hupper⟩, rfl⟩ := hstep
    exact .slide hlower hupper
  | skip seconds =>
    simp only [step, Option.ite_none_right_eq_some, Option.some.injEq] at hstep
    obtain ⟨-, rfl⟩ := hstep
    exact .skip seconds
  | toggle =>
    simp only [step, Option.ite_none_right_eq_some, Option.some.injEq] at hstep
    obtain ⟨-, rfl⟩ := hstep
    exact .toggle
  | rate rate =>
    simp only [step, Option.ite_none_right_eq_some, Option.some.injEq] at hstep
    obtain ⟨⟨-, hrate⟩, rfl⟩ := hstep
    exact .rate hrate
  | animate =>
    simp only [step, Page.animate, bind, Option.bind_eq_some_iff, Option.pure_def, Option.some.injEq] at hstep
    obtain ⟨⟨playbackRate, duration⟩, hanimation, rfl⟩ := hstep
    exact .animate hanimation
  | fire =>
    simp only [step, Page.fire, bind, Option.bind_eq_some_iff, Option.ite_none_right_eq_some,
      Option.some.injEq] at hstep
    obtain ⟨τ, hτ, hdue, rfl⟩ := hstep
    exact .fire hτ hdue
  | render =>
    cases hstep
    exact .render
  | effects =>
    cases hstep
    exact .effects
  | hook action =>
    simp only [step, Option.ite_none_right_eq_some, Option.map_eq_some_iff] at hstep
    obtain ⟨hrequests, hook, hstep, rfl⟩ := hstep
    exact .hook hrequests hstep

structure Linked (s : Page) : Prop where
  mounted : s.hook.mounted = true
  shown : s.shown.options ∈ s.hook.renders
  timeout : ∀ τ, s.timeout = some τ → τ.options ∈ s.hook.renders

theorem linked_debounced (hs : Linked s) (timestamp : ℚ) : Linked (s.debouncedLoadFrames timestamp) := by
  refine ⟨hs.mounted, hs.shown, fun τ hτ => ?_⟩
  cases hτ
  exact hs.shown

theorem handleSeek_eq (timeNs : ℚ) (s : Page) : s.handleSeek timeNs =
    ({ s with lastLoadedTime := -1 }.enqueue [.currentTime timeNs, .isPlaying false]).debouncedLoadFrames timeNs := rfl

theorem linked_seek (hs : Linked s) (timeNs : ℚ) : Linked (s.handleSeek timeNs) := by
  have hqueued : Linked ({ s with lastLoadedTime := -1 }.enqueue [.currentTime timeNs, .isPlaying false]) :=
    ⟨hs.mounted, hs.shown, hs.timeout⟩
  exact linked_debounced hqueued timeNs

theorem linked_loadFirst (hs : Linked s) : Linked s.loadFirst := by
  unfold Page.loadFirst
  split_ifs
  · obtain ⟨hmounted, hrenders⟩ := loadFrames_frame s.shown.options 0 s.hook
    refine ⟨hmounted.trans hs.mounted, ?_, ?_⟩
    · rw [hrenders]
      exact hs.shown
    · rw [hrenders]
      exact hs.timeout
  · exact hs

theorem linked_restart (hs : Linked s) : Linked s.restart := by
  unfold Page.restart
  split_ifs <;> exact ⟨hs.mounted, hs.shown, hs.timeout⟩

theorem linked_follow (hs : Linked s) : Linked s.follow := by
  unfold Page.follow
  split_ifs
  · have hloaded : Linked { s with lastLoadedTime := s.shown.currentTime } := ⟨hs.mounted, hs.shown, hs.timeout⟩
    exact linked_debounced hloaded _
  · exact hs
  · exact hs

theorem linked_step (hs : Linked s) (hstep : step s a = some t) : Linked t := by
  cases step_sound hstep with
  | slide => exact linked_seek hs _
  | skip => exact linked_seek hs _
  | fire =>
    obtain ⟨hmounted, hrenders⟩ := loadFrames_frame _ _ s.hook
    refine ⟨hmounted.trans hs.mounted, ?_, fun τ hτ => ?_⟩
    · rw [hrenders]
      exact hs.shown
    · cases hτ
  | render => exact ⟨hs.mounted, List.mem_cons_self .., fun τ hτ => List.mem_cons_of_mem _ (hs.timeout τ hτ)⟩
  | effects =>
    have hlinked := linked_follow (linked_restart (linked_loadFirst hs))
    exact ⟨hlinked.mounted, hlinked.shown, hlinked.timeout⟩
  | hook hrequests hhook =>
    obtain ⟨hmounted, hrenders, -⟩ := requests_frame hrequests hhook
    refine ⟨hmounted.trans hs.mounted, ?_, ?_⟩
    · rw [hrenders]
      exact hs.shown
    · rw [hrenders]
      exact hs.timeout
  | _ => exact ⟨hs.mounted, hs.shown, hs.timeout⟩

theorem changed_eq_false {δ : Type} [DecidableEq δ] {dependencies : Render → δ} :
    s.changed dependencies = false ↔ ∃ r, s.ran = some r ∧ dependencies r = dependencies s.shown := by
  simp [Page.changed]

theorem effects_queue (s : Page) : s.effects.shown = s.shown ∧ s.effects.updates = s.updates := by
  unfold Page.effects Page.follow Page.restart Page.loadFirst
  split_ifs <;> exact ⟨rfl, rfl⟩

theorem effects_hook (s : Page) : s.effects.hook = s.loadFirst.hook := by
  unfold Page.effects Page.follow Page.restart
  split_ifs <;> rfl

theorem hook_step (hs : Linked s) (hstep : step s a = some t) :
    ∃ actions, run McapFrames.step s.hook actions = some t.hook := by
  cases step_sound hstep with
  | @fire τ hτ => exact ⟨[.loadFrames τ.options τ.timestamp], run_singleton (if_pos (hs.timeout τ hτ))⟩
  | render => exact ⟨[.render _], run_singleton (if_pos hs.mounted)⟩
  | effects =>
    rw [effects_hook, Page.loadFirst]
    split_ifs
    · exact ⟨[.loadFrames s.shown.options 0], run_singleton (if_pos hs.shown)⟩
    · exact ⟨[], rfl⟩
  | hook _ hhook => exact ⟨_, run_singleton hhook⟩
  | _ => exact ⟨[], rfl⟩

theorem linked_mount : Linked (.mount episodeId episode clock) :=
  ⟨rfl, List.mem_cons_self .., fun _ hτ => nomatch hτ⟩

theorem linked_governed_step (hs : Linked s ∧ Governed s.hook) (hstep : step s a = some t) :
    Linked t ∧ Governed t.hook := by
  obtain ⟨actions, hrun⟩ := hook_step hs.1 hstep
  exact ⟨linked_step hs.1 hstep, invariant_run Governed (fun _ _ _ => governed_step) hs.2 hrun⟩

def cameraEpisode : EpisodeDetail :=
  ⟨"mcap", some 20, some [⟨"t-1", "/camera", some "image", some 0, some 20, some 600, some 30, none⟩]⟩

end Embedai.PreviewPage
