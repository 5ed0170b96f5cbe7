import Mathlib.Tactic.Linarith
import Embedai.PreviewSteps

namespace Embedai.PreviewPage

open TransitionSystems

def WithinDuration (limit : ℚ) (episode : Option EpisodeDetail) : Prop :=
  ∀ seconds, episode.bind EpisodeDetail.durationSeconds = some seconds → 0 ≤ seconds ∧ seconds ≤ limit

def lastTime (limit : ℚ) : ℚ := limit * 1000000000 + 1 / 2

def InTime (limit timeNs : ℚ) : Prop := 0 ≤ timeNs ∧ timeNs ≤ lastTime limit

def Update.InRange (limit : ℚ) : Update → Prop
  | .episode _ data => WithinDuration limit data
  | .currentTime timeNs => InTime limit timeNs
  | .advance δ ρ seconds => 0 ≤ δ ∧ 0 ≤ ρ ∧ 0 ≤ seconds ∧ seconds ≤ limit
  | .isPlaying _ => True
  | .playbackRate ρ => 0 ≤ ρ

structure Render.InRange (limit : ℚ) (r : Render) : Prop where
  episode : WithinDuration limit r.episode
  time : InTime limit r.currentTime
  rate : 0 ≤ r.playbackRate

structure Page.InRange (limit : ℚ) (s : Page) : Prop where
  shown : s.shown.InRange limit
  updates : ∀ u ∈ s.updates, u.InRange limit
  animation : ∀ p, s.animation = some p → 0 ≤ p.1 ∧ 0 ≤ p.2 ∧ p.2 ≤ limit
  frame : s.lastFrameTime = 0 ∨ s.lastFrameTime ≤ s.clock
  timeout : ∀ τ, s.timeout = some τ → InTime limit τ.timestamp
  calls : ∀ (j : ℕ) (c : McapFrames.Call), s.hook.calls[j]? = some c → InTime limit c.timestamp

variable {s t : Page} {a : Action} {as : List Action} {r : Render} {limit : ℚ} {episodeId : String}
  {episode : Option EpisodeDetail} {clock : ℚ}

theorem round_le (x : ℚ) : (round x : ℚ) ≤ x + 1 / 2 := Int.floor_le _

theorem le_round (x : ℚ) : x - 1 / 2 ≤ round x := by
  have hlt := Int.lt_floor_add_one (x + 1 / 2)
  rw [round]
  linarith

theorem round_nonneg {x : ℚ} (hx : 0 ≤ x) : 0 ≤ round x := Int.floor_nonneg.mpr (by linarith)

theorem duration_inRange (hlimit : 0 ≤ limit) (h : WithinDuration limit r.episode) :
    0 ≤ r.duration ∧ r.duration ≤ limit := by
  unfold Render.duration
  cases hseconds : r.episode.bind EpisodeDetail.durationSeconds with
  | none => exact ⟨le_refl _, hlimit⟩
  | some seconds => exact h seconds hseconds

theorem advance_inRange {deltaTime playbackRate duration prev : ℚ} (hdelta : 0 ≤ deltaTime) (hrate : 0 ≤ playbackRate)
    (hduration : 0 ≤ duration) (hlimit : duration ≤ limit) (hprev : 0 ≤ prev) :
    InTime limit (advance deltaTime playbackRate duration prev).1 := by
  have hmax : (maxTime duration : ℚ) ≤ lastTime limit := by
    have hround := round_le (duration * 1000000000)
    rw [maxTime, lastTime]
    linarith
  rw [advance]
  split_ifs with hend
  · exact ⟨Int.cast_nonneg (round_nonneg (by positivity)), hmax⟩
  · refine ⟨Int.cast_nonneg (round_nonneg (by positivity)), le_trans ?_ hmax⟩
    exact_mod_cast (not_le.mp hend).le

theorem inRange_update {p : Render × Bool} {u : Update} (hp : p.1.InRange limit) (hu : u.InRange limit) :
    (update p u).1.InRange limit := by
  cases u with
  | episode episodeId episode => exact ⟨hu, hp.time, hp.rate⟩
  | currentTime timeNs => exact ⟨hp.episode, hu, hp.rate⟩
  | advance deltaTime playbackRate duration =>
    obtain ⟨hdelta, hrate, hduration, hlimit⟩ := hu
    exact ⟨hp.episode, advance_inRange hdelta hrate hduration hlimit hp.time.1, hp.rate⟩
  | isPlaying value => exact ⟨hp.episode, hp.time, hp.rate⟩
  | playbackRate rate => exact ⟨hp.episode, hp.time, hu⟩

theorem inRange_foldl {updates : List Update} {p : Render × Bool} (hp : p.1.InRange limit)
    (hupdates : ∀ u ∈ updates, u.InRange limit) : (updates.foldl update p).1.InRange limit := by
  induction updates generalizing p with
  | nil => exact hp
  | cons u updates ih =>
    exact ih (inRange_update hp (hupdates u (List.mem_cons_self ..)))
      fun v hv => hupdates v (List.mem_cons_of_mem _ hv)

theorem Page.InRange.enqueue (hs : s.InRange limit) {updates : List Update}
    (hupdates : ∀ u ∈ updates, u.InRange limit) : (s.enqueue updates).InRange limit :=
  ⟨hs.shown, fun u hu => (List.mem_append.mp hu).elim (hs.updates u) (hupdates u), hs.animation, hs.frame,
    hs.timeout, hs.calls⟩

theorem Page.InRange.debounced (hs : s.InRange limit) {timestamp : ℚ} (htimestamp : InTime limit timestamp) :
    (s.debouncedLoadFrames timestamp).InRange limit := by
  refine ⟨hs.shown, hs.updates, hs.animation, hs.frame, fun τ hτ => ?_, hs.calls⟩
  cases hτ
  exact htimestamp

theorem Page.InRange.seek (hs : s.InRange limit) {timeNs : ℚ} (hlower : 0 ≤ timeNs)
    (hupper : timeNs ≤ limit * 1000000000) : (s.handleSeek timeNs).InRange limit := by
  have htime : InTime limit timeNs := ⟨hlower, by rw [lastTime]; linarith⟩
  have hforced : Page.InRange limit { s with lastLoadedTime := -1 } :=
    ⟨hs.shown, hs.updates, hs.animation, hs.frame, hs.timeout, hs.calls⟩
  refine (hforced.enqueue fun u hu => ?_).debounced htime
  rcases List.mem_pair.mp hu with rfl | rfl
  · exact htime
  · trivial

theorem Page.InRange.loadFirst (hlimit : 0 ≤ limit) (hs : s.InRange limit) : s.loadFirst.InRange limit := by
  unfold Page.loadFirst
  split_ifs
  · refine ⟨hs.shown, hs.updates, hs.animation, hs.frame, hs.timeout, timestamps_loadFrames hs.calls ⟨le_refl _, ?_⟩⟩
    unfold lastTime
    positivity
  · exact hs

theorem Page.InRange.restart (hlimit : 0 ≤ limit) (hs : s.InRange limit) : s.restart.InRange limit := by
  unfold Page.restart
  split_ifs
  · refine ⟨hs.shown, hs.updates, fun p hp => ?_, .inl rfl, hs.timeout, hs.calls⟩
    cases hp
    exact ⟨hs.shown.rate, duration_inRange hlimit hs.shown.episode⟩
  · exact ⟨hs.shown, hs.updates, fun p hp => absurd hp (by simp), hs.frame, hs.timeout, hs.calls⟩
  · exact hs

theorem Page.InRange.follow (hs : s.InRange limit) : s.follow.InRange limit := by
  unfold Page.follow
  split_ifs
  · have hloaded : Page.InRange limit { s with lastLoadedTime := s.shown.currentTime } :=
      ⟨hs.shown, hs.updates, hs.animation, hs.frame, hs.timeout, hs.calls⟩
    exact hloaded.debounced hs.shown.time
  · exact hs
  · exact hs

theorem inRange_step (hlimit : 0 ≤ limit) (hs : s.InRange limit)
    (ha : ∀ episodeId episode, a = .episode episodeId episode → WithinDuration limit episode)
    (hstep : step s a = some t) : t.InRange limit := by
  obtain ⟨hduration, hduration'⟩ := duration_inRange hlimit hs.shown.episode
  cases step_sound hstep with
  | wait hpos =>
    exact ⟨hs.shown, hs.updates, hs.animation, hs.frame.imp_right fun h => by linarith, hs.timeout, hs.calls⟩
  | episode episodeId episode =>
    refine hs.enqueue fun u hu => ?_
    rw [List.mem_singleton.mp hu]
    exact ha episodeId episode rfl
  | @slide newProgress hlower hupper =>
    have hpart : newProgress / 100 * s.shown.duration ≤ 1 * limit :=
      mul_le_mul (by linarith) hduration' hduration (by norm_num)
    exact hs.seek (by positivity) (by linarith)
  | skip seconds =>
    refine hs.seek (le_max_left ..) (max_le (by positivity) ((min_le_right ..).trans ?_))
    linarith
  | toggle => exact hs.enqueue fun u hu => by rw [List.mem_singleton.mp hu]; trivial
  | rate hrate =>
    refine hs.enqueue fun u hu => ?_
    rw [List.mem_singleton.mp hu]
    simp only [playbackRates, List.mem_cons, List.not_mem_nil, or_false] at hrate
    rcases hrate with rfl | rfl | rfl <;> norm_num [Update.InRange]
  | animate hanimation =>
    obtain ⟨hrate, hduration, hlimit⟩ := hs.animation _ hanimation
    have hframe : 0 ≤ s.clock - if s.lastFrameTime = 0 then s.clock else s.lastFrameTime := by
      split_ifs with hzero
      · rw [sub_self]
      · have hle := hs.frame.resolve_left hzero
        linarith
    have hnow : Page.InRange limit { s with lastFrameTime := s.clock } :=
      ⟨hs.shown, hs.updates, hs.animation, .inr (le_refl _), hs.timeout, hs.calls⟩
    refine hnow.enqueue fun u hu => ?_
    rw [List.mem_singleton.mp hu]
    exact ⟨div_nonneg hframe (by norm_num), hrate, hduration, hlimit⟩
  | @fire τ hτ =>
    exact ⟨hs.shown, hs.updates, hs.animation, hs.frame, fun _ h => (nomatch h),
      timestamps_loadFrames hs.calls (hs.timeout τ hτ)⟩
  | render =>
    have hnext := inRange_foldl (p := (s.shown, false)) hs.shown hs.updates
    exact ⟨⟨hnext.episode, hnext.time, hnext.rate⟩, fun u hu => (nomatch hu), hs.animation, hs.frame, hs.timeout,
      hs.calls⟩
  | effects =>
    have hrun := ((hs.loadFirst hlimit).restart hlimit).follow
    exact ⟨hrun.shown, hrun.updates, hrun.animation, hrun.frame, hrun.timeout, hrun.calls⟩
  | hook hrequests hhook =>
    exact ⟨hs.shown, hs.updates, hs.animation, hs.frame, hs.timeout, timestamps_requests hrequests hhook hs.calls⟩

theorem inRange_mount (hlimit : 0 ≤ limit) (h : WithinDuration limit episode) :
    (Page.mount episodeId episode clock).InRange limit := by
  have hlast : 0 ≤ lastTime limit := by
    unfold lastTime
    positivity
  exact ⟨⟨h, ⟨le_refl _, hlast⟩, zero_le_one⟩, fun u hu => (nomatch hu), fun p hp => (nomatch hp), .inl rfl,
    fun τ hτ => (nomatch hτ), fun j c hc => (nomatch hc)⟩

theorem inRange_run (hlimit : 0 ≤ limit) (hfirst : WithinDuration limit episode)
    (hlater : ∀ episodeId episode, .episode episodeId episode ∈ as → WithinDuration limit episode)
    (h : run step (.mount episodeId episode clock) as = some s) : s.InRange limit := by
  have hok : Along step (fun _ a => ∀ episodeId episode, a = .episode episodeId episode → WithinDuration limit episode)
      (.mount episodeId episode clock) as :=
    along_of_mem fun a ha episodeId episode he => hlater episodeId episode (he ▸ ha)
  refine invariant_along _ (fun s a t hs ha => ?_) (inRange_mount hlimit hfirst) hok h
  exact inRange_step hlimit hs ha

/-- The position, and all that the page ever asks the server for, is within the longest recording of the run, up to the
rounding of its end. -/
theorem position_within_recording (hlimit : 0 ≤ limit) (hfirst : WithinDuration limit episode)
    (hlater : ∀ episodeId episode, .episode episodeId episode ∈ as → WithinDuration limit episode)
    (h : run step (.mount episodeId episode clock) as = some s) :
    (0 ≤ s.shown.currentTime ∧ s.shown.currentTime ≤ limit * 1000000000 + 1 / 2) ∧
      ∀ c ∈ s.hook.calls, 0 ≤ c.timestamp ∧ c.timestamp ≤ limit * 1000000000 + 1 / 2 := by
  have hs := inRange_run hlimit hfirst hlater h
  refine ⟨hs.shown.time, fun c hc => ?_⟩
  obtain ⟨j, hj⟩ := List.mem_iff_getElem?.mp hc
  exact hs.calls j c hj

theorem within_cameraEpisode : WithinDuration 20 (some cameraEpisode) := by
  intro seconds h
  cases h
  norm_num

def seekWhilePlaying : List Action :=
  [.effects, .toggle, .render, .effects, .wait 16, .animate, .slide 100, .render, .wait 17, .animate, .effects, .render,
    .effects, .wait 150, .fire]

theorem position_within_seekWhilePlaying :
    ∃ s, run step (.mount "ep-1" (some cameraEpisode) 1) seekWhilePlaying = some s ∧ s.hook.calls.length = 2 ∧
      s.shown.currentTime ≤ 20 * 1000000000 + 1 / 2 ∧ ∀ c ∈ s.hook.calls, 0 ≤ c.timestamp := by
  have hrun : (run step (.mount "ep-1" (some cameraEpisode) 1) seekWhilePlaying).any
      (fun s => s.hook.calls.length = 2) := by
    decide +kernel
  obtain ⟨s, hs, hlength⟩ := (Option.any_eq_true _ _).mp hrun
  obtain ⟨⟨-, hupper⟩, hcalls⟩ := position_within_recording (by norm_num) within_cameraEpisode
    (fun _ _ h => absurd h (by simp [seekWhilePlaying])) hs
  exact ⟨s, hs, of_decide_eq_true hlength, hupper, fun c hc => (hcalls c hc).1⟩

section Accuracy

def Action.passive : Action → Bool
  | .wait _ | .animate | .fire | .render | .effects | .hook _ => true
  | _ => false

def Action.isAnimate : Action → Bool
  | .animate => true
  | _ => false

def Action.waits : Action → ℚ
  | .wait milliseconds => milliseconds
  | _ => 0

def waited (as : List Action) : ℚ := (as.map Action.waits).sum

def waitedForFrame : List Action → ℚ
  | [] => 0
  | a :: as => if a.isAnimate then 0 else a.waits + waitedForFrame as

/-- The time from the first frame of the animation to the last one, in milliseconds. -/
def played (clock : ℚ) (as : List Action) (t : Page) : ℚ :=
  if as.any Action.isAnimate then t.lastFrameTime - (clock + waitedForFrame as) else 0

def OnTime (ideal duration : ℚ) (frames : ℕ) (r : Render) : Prop :=
  if r.isPlaying then |r.currentTime - ideal| ≤ frames / 2
  else r.currentTime = maxTime duration ∧ maxTime duration ≤ ideal + frames / 2

variable {ideal duration deltaTime playbackRate : ℚ} {frames : ℕ}

theorem onTime_advance (h : OnTime ideal duration frames r) (hdelta : 0 ≤ deltaTime) (hrate : 0 ≤ playbackRate) :
    OnTime (ideal + deltaTime * playbackRate * 1000000000) duration (frames + 1) { r with
      currentTime := (advance deltaTime playbackRate duration r.currentTime).1
      isPlaying := r.isPlaying && !(advance deltaTime playbackRate duration r.currentTime).2 } := by
  have hstep : 0 ≤ deltaTime * playbackRate * 1000000000 := by positivity
  have hupper := round_le (r.currentTime + deltaTime * playbackRate * 1000000000)
  have hlower := le_round (r.currentTime + deltaTime * playbackRate * 1000000000)
  unfold OnTime at h ⊢
  split_ifs at h with hplaying
  · obtain ⟨hbelow, habove⟩ := abs_le.mp h
    rw [advance, hplaying]
    split_ifs with hend hnot hnot
    · cases hnot
    · have hend' : (maxTime duration : ℚ) ≤ round (r.currentTime + deltaTime * playbackRate * 1000000000) := by
        exact_mod_cast hend
      refine ⟨rfl, ?_⟩
      push_cast
      linarith
    · rw [abs_le]
      push_cast
      constructor <;> linarith
    · exact absurd rfl hnot
  · obtain ⟨hstopped, hreached⟩ := h
    have hend : maxTime duration ≤ round (r.currentTime + deltaTime * playbackRate * 1000000000) := by
      rw [hstopped, round]
      exact Int.le_floor.mpr (by linarith)
    rw [advance, if_pos hend, Bool.eq_false_of_not_eq_true hplaying]
    refine ⟨rfl, ?_⟩
    push_cast
    linarith

theorem next_advance (r : Render) (updates : List Update) (deltaTime playbackRate duration : ℚ) :
    r.next (updates ++ [.advance deltaTime playbackRate duration]) = { r.next updates with
      currentTime := (advance deltaTime playbackRate duration (r.next updates).currentTime).1
      isPlaying := (r.next updates).isPlaying &&
        !(advance deltaTime playbackRate duration (r.next updates).currentTime).2 } := by
  simp only [Render.next, List.foldl_append, List.foldl_cons, List.foldl_nil, update, Bool.not_or, Bool.and_assoc]

structure Playing (start playbackRate duration elapsed : ℚ) (frames : ℕ) (s : Page) : Prop where
  updates : ∀ u ∈ s.updates, ∃ deltaTime, u = .advance deltaTime playbackRate duration
  sameRate : s.shown.playbackRate = playbackRate
  sameDuration : s.shown.duration = duration
  ran : ∃ r, s.ran = some r ∧ r.playbackRate = playbackRate ∧ r.duration = duration ∧
    (r.isPlaying = false → s.shown.isPlaying = false)
  animation : ∀ p, s.animation = some p → p = (playbackRate, duration)
  onTime : OnTime (start + playbackRate * elapsed * 1000000) duration frames (s.shown.next s.updates)

variable {start elapsed : ℚ}

theorem foldl_advances {updates : List Update}
    (h : ∀ u ∈ updates, ∃ deltaTime, u = .advance deltaTime playbackRate duration) (p : Render × Bool) :
    (updates.foldl update p).1.playbackRate = p.1.playbackRate ∧
      (updates.foldl update p).1.episode = p.1.episode ∧ (updates.foldl update p).1.isPlaying = p.1.isPlaying := by
  induction updates generalizing p with
  | nil => exact ⟨rfl, rfl, rfl⟩
  | cons u updates ih =>
    obtain ⟨deltaTime, rfl⟩ := h u (List.mem_cons_self ..)
    exact ih (fun v hv => h v (List.mem_cons_of_mem _ hv)) (update p (.advance deltaTime playbackRate duration))

theorem Playing.effects (hs : Playing start playbackRate duration elapsed frames s) :
    Playing start playbackRate duration elapsed frames s.effects ∧ s.effects.lastFrameTime = s.lastFrameTime := by
  obtain ⟨hshown, hupdates⟩ := effects_queue s
  obtain ⟨r, hr, hrate, hduration, hstopped⟩ := hs.ran
  have hfirst : s.loadFirst.animation = s.animation ∧ s.loadFirst.shown = s.shown ∧ s.loadFirst.ran = s.ran ∧
      s.loadFirst.lastFrameTime = s.lastFrameTime := by
    unfold Page.loadFirst
    split_ifs <;> exact ⟨rfl, rfl, rfl, rfl⟩
  have hfollow : s.effects.animation = s.loadFirst.restart.animation ∧
      s.effects.lastFrameTime = s.loadFirst.restart.lastFrameTime := by
    unfold Page.effects Page.follow
    split_ifs <;> exact ⟨rfl, rfl⟩
  have hrestart : (∀ p, s.loadFirst.restart.animation = some p → p = (playbackRate, duration)) ∧
      s.loadFirst.restart.lastFrameTime = s.lastFrameTime := by
    unfold Page.restart
    split_ifs with hchanged hplaying
    · -- a playing render after one that does not play, or with another rate or duration
      rw [hfirst.2.1] at hplaying
      have hran : r.isPlaying = true := by
        by_contra hnot
        rw [hstopped (Bool.eq_false_of_not_eq_true hnot)] at hplaying
        cases hplaying
      rw [Page.changed, hfirst.2.2.1, hfirst.2.1, hr, Option.map_some, hran, hplaying, hrate, hduration, hs.sameRate,
        hs.sameDuration] at hchanged
      simp at hchanged
    · exact ⟨fun p hp => absurd hp (by simp), hfirst.2.2.2⟩
    · rw [hfirst.1, hfirst.2.2.2]
      exact ⟨hs.animation, rfl⟩
  refine ⟨⟨?_, ?_, ?_, ⟨s.shown, rfl, hs.sameRate, hs.sameDuration, ?_⟩, ?_, ?_⟩, hfollow.2.trans hrestart.2⟩
  · rw [hupdates]
    exact hs.updates
  · rw [hshown]
    exact hs.sameRate
  · rw [hshown]
    exact hs.sameDuration
  · rw [hshown]
    exact id
  · rw [hfollow.1]
    exact hrestart.1
  · rw [hshown, hupdates]
    exact hs.onTime

theorem Playing.render (hs : Playing start playbackRate duration elapsed frames s) :
    Playing start playbackRate duration elapsed frames s.render := by
  obtain ⟨hrate, hepisode, -⟩ := foldl_advances hs.updates (s.shown, false)
  obtain ⟨r, hr, hrrate, hrduration, hstopped⟩ := hs.ran
  have honTime := hs.onTime
  refine ⟨fun u hu => (nomatch hu), hrate.trans hs.sameRate, ?_, ⟨r, hr, hrrate, hrduration, fun h => ?_⟩,
    hs.animation, ?_⟩
  · have hduration := hs.sameDuration
    unfold Render.duration at hduration ⊢
    have hshown := congrArg (fun episode => (Option.bind episode EpisodeDetail.durationSeconds).getD 0) hepisode
    exact hshown.trans hduration
  · obtain ⟨-, -, hplaying⟩ := foldl_advances hs.updates (s.shown, false)
    change ((s.updates.foldl update (s.shown, false)).1.isPlaying && _) = false
    rw [hplaying, hstopped h]
    rfl
  · have hsame : s.render.shown.next s.render.updates = s.shown.next s.updates := by
      change { s.shown.next s.updates with isPlaying := (s.shown.next s.updates).isPlaying && true } = _
      rw [Bool.and_true]
    rw [hsame]
    exact honTime

theorem Playing.congr (hs : Playing start playbackRate duration elapsed frames s) (hshown : t.shown = s.shown)
    (hran : t.ran = s.ran) (hupdates : t.updates = s.updates) (hanimation : t.animation = s.animation) :
    Playing start playbackRate duration elapsed frames t := by
  refine ⟨?_, ?_, ?_, ?_, ?_, ?_⟩
  · rw [hupdates]
    exact hs.updates
  · rw [hshown]
    exact hs.sameRate
  · rw [hshown]
    exact hs.sameDuration
  · rw [hran, hshown]
    exact hs.ran
  · rw [hanimation]
    exact hs.animation
  · rw [hshown, hupdates]
    exact hs.onTime

theorem waitedForFrame_append (as bs : List Action) : waitedForFrame (as ++ bs) =
    if as.any Action.isAnimate then waitedForFrame as else waited as + waitedForFrame bs := by
  induction as with
  | nil => simp [waited]
  | cons a as ih =>
    simp only [List.cons_append, waitedForFrame, List.any_cons, ih, waited, List.map_cons, List.sum_cons]
    cases a.isAnimate with
    | true => rfl
    | false =>
      rw [Bool.false_or]
      simp only [Bool.false_eq_true, if_false]
      split_ifs
      · rfl
      · rw [add_assoc]

theorem waited_concat (as : List Action) (a : Action) : waited (as ++ [a]) = waited as + a.waits := by
  simp [waited]

theorem played_of_none (h : as.any Action.isAnimate = false) : played clock as t = 0 := by
  rw [played, h, if_neg Bool.false_ne_true]

theorem played_concat (ha : a.isAnimate = false) (hlast : t.lastFrameTime = s.lastFrameTime) :
    played clock (as ++ [a]) t = played clock as s := by
  simp only [played, waitedForFrame_append, List.any_append, List.any_cons, List.any_nil, ha, Bool.or_false, hlast]
  split_ifs with h
  · rfl
  · rfl

structure Played (clock start playbackRate duration : ℚ) (as : List Action) (s : Page) : Prop where
  playing : Playing start playbackRate duration (played clock as s) (as.countP Action.isAnimate) s
  clock : s.clock = clock + waited as
  waited : 0 ≤ waited as
  frame : if as.any Action.isAnimate then s.lastFrameTime ≠ 0 ∧ s.lastFrameTime ≤ s.clock else s.lastFrameTime = 0

theorem Played.concat (hs : Played clock start playbackRate duration as s) (ha : a.isAnimate = false)
    (hwaits : 0 ≤ a.waits) (hlast : t.lastFrameTime = s.lastFrameTime) (hclock : t.clock = s.clock + a.waits)
    (ht : Playing start playbackRate duration (played clock as s) (as.countP Action.isAnimate) t) :
    Played clock start playbackRate duration (as ++ [a]) t := by
  refine ⟨?_, ?_, ?_, ?_⟩
  · rw [played_concat ha hlast, List.countP_append, List.countP_singleton, ha]
    exact ht
  · rw [hclock, hs.clock, waited_concat, add_assoc]
  · rw [waited_concat]
    exact add_nonneg hs.waited hwaits
  · have hframe := hs.frame
    simp only [List.any_append, List.any_cons, List.any_nil, ha, Bool.or_false, hlast]
    split_ifs at hframe ⊢ with hany
    · exact ⟨hframe.1, hframe.2.trans (by rw [hclock]; exact le_add_of_nonneg_right hwaits)⟩
    · exact hframe

theorem Playing.animate (hs : Playing start playbackRate duration elapsed frames s) (hrate : 0 ≤ playbackRate)
    (hdelta : 0 ≤ deltaTime) : Playing start playbackRate duration (elapsed + 1000 * deltaTime) (frames + 1)
      ({ s with lastFrameTime := s.clock }.enqueue [.advance deltaTime playbackRate duration]) := by
  refine ⟨fun u hu => ?_, hs.sameRate, hs.sameDuration, hs.ran, hs.animation, ?_⟩
  · rcases List.mem_append.mp hu with hu | hu
    · exact hs.updates u hu
    · exact ⟨deltaTime, List.mem_singleton.mp hu⟩
  · have hideal : start + playbackRate * (elapsed + 1000 * deltaTime) * 1000000 =
        start + playbackRate * elapsed * 1000000 + deltaTime * playbackRate * 1000000000 := by ring
    rw [hideal, Page.enqueue, next_advance]
    exact onTime_advance hs.onTime hdelta hrate

theorem Played.animate (hs : Played clock start playbackRate duration as s) (hrate : 0 ≤ playbackRate)
    (hclock : 0 < clock) :
    Played clock start playbackRate duration (as ++ [.animate]) ({ s with lastFrameTime := s.clock }.enqueue
      [.advance ((s.clock - if s.lastFrameTime = 0 then s.clock else s.lastFrameTime) / 1000)
        playbackRate duration]) := by
  have hframe := hs.frame
  have hpos : 0 < s.clock := by
    rw [hs.clock]
    exact add_pos_of_pos_of_nonneg hclock hs.waited
  have hanimate : (as ++ [Action.animate]).any Action.isAnimate = true := by simp [Action.isAnimate]
  have hlast : 0 ≤ s.clock - (if s.lastFrameTime = 0 then s.clock else s.lastFrameTime) ∧ ∀ u : Page,
      played clock (as ++ [.animate]) { u with lastFrameTime := s.clock } =
        played clock as s + (s.clock - if s.lastFrameTime = 0 then s.clock else s.lastFrameTime) := by
    by_cases hany : as.any Action.isAnimate
    · rw [if_pos hany] at hframe
      rw [if_neg hframe.1]
      refine ⟨sub_nonneg.mpr hframe.2, fun u => ?_⟩
      rw [played, if_pos hanimate, waitedForFrame_append, if_pos hany, played, if_pos hany]
      ring
    · -- the first frame only sets the time of the last one
      rw [if_neg hany] at hframe
      rw [if_pos hframe]
      refine ⟨le_of_eq (sub_self _).symm, fun u => ?_⟩
      rw [played, if_pos hanimate, waitedForFrame_append, if_neg hany, played, if_neg hany]
      dsimp only
      rw [hs.clock]
      simp [waitedForFrame, Action.isAnimate]
  obtain ⟨hdelta, hplayed⟩ := hlast
  refine ⟨?_, ?_, ?_, ?_⟩
  · have hplaying := hs.playing.animate hrate (div_nonneg hdelta (by norm_num : (0 : ℚ) ≤ 1000))
    rw [mul_div_cancel₀ _ (by norm_num : (1000 : ℚ) ≠ 0)] at hplaying
    have hsame := hplayed (s.enqueue [.advance ((s.clock - if s.lastFrameTime = 0 then s.clock
      else s.lastFrameTime) / 1000) playbackRate duration])
    rw [List.countP_append, List.countP_singleton]
    exact hsame ▸ hplaying
  · rw [waited_concat]
    exact hs.clock.trans (congrArg (clock + ·) (add_zero _).symm)
  · rw [waited_concat]
    exact add_nonneg hs.waited (le_refl _)
  · rw [if_pos hanimate]
    exact ⟨hpos.ne', le_refl _⟩

theorem played_step (hrate : 0 ≤ playbackRate) (hclock : 0 < clock)
    (hs : Played clock start playbackRate duration as s) (ha : a.passive) (hstep : step s a = some t) :
    Played clock start playbackRate duration (as ++ [a]) t := by
  cases step_sound hstep with
  | wait hpos => exact hs.concat rfl hpos rfl rfl (hs.playing.congr rfl rfl rfl rfl)
  | animate hanimation =>
    cases hs.playing.animation _ hanimation
    exact hs.animate hrate hclock
  | fire => exact hs.concat rfl (le_refl _) rfl (add_zero _).symm (hs.playing.congr rfl rfl rfl rfl)
  | render => exact hs.concat rfl (le_refl _) rfl (add_zero _).symm hs.playing.render
  | effects =>
    have hclock' : s.effects.clock = s.clock := by
      unfold Page.effects Page.follow Page.restart Page.loadFirst
      split_ifs <;> rfl
    exact hs.concat rfl (le_refl _) hs.playing.effects.2 (hclock'.trans (add_zero _).symm) hs.playing.effects.1
  | hook => exact hs.concat rfl (le_refl _) rfl (add_zero _).symm (hs.playing.congr rfl rfl rfl rfl)
  | _ => exact absurd ha Bool.false_ne_true

def Halts (s : Page) : Prop := s.ran.any Render.isPlaying = false → s.animation = none

theorem effects_animation (s : Page) : s.effects.animation =
    if s.changed fun r => (r.isPlaying, r.playbackRate, r.duration) then
      if s.shown.isPlaying then some (s.shown.playbackRate, s.shown.duration) else none
    else s.animation := by
  have hfollow (u : Page) : u.follow.animation = u.animation := by
    unfold Page.follow
    split_ifs <;> rfl
  have hfirst : s.loadFirst.animation = s.animation ∧ s.loadFirst.shown = s.shown ∧ s.loadFirst.ran = s.ran := by
    unfold Page.loadFirst
    split_ifs <;> exact ⟨rfl, rfl, rfl⟩
  have hsame : s.loadFirst.changed (fun r => (r.isPlaying, r.playbackRate, r.duration)) =
      s.changed fun r => (r.isPlaying, r.playbackRate, r.duration) := by
    rw [Page.changed, hfirst.2.1, hfirst.2.2, Page.changed]
  change s.loadFirst.restart.follow.animation = _
  rw [hfollow, Page.restart, hsame, hfirst.2.1]
  split_ifs
  · rfl
  · rfl
  · exact hfirst.1

theorem halts_step (hs : Halts s) (hstep : step s a = some t) : Halts t := by
  cases step_sound hstep with
  | effects =>
    intro hpaused
    have hpaused : s.shown.isPlaying = false := hpaused
    rw [effects_animation]
    split_ifs with hchanged hplaying
    · rw [hpaused] at hplaying
      cases hplaying
    · rfl
    · obtain ⟨r, hr, hsame⟩ := changed_eq_false.mp (Bool.eq_false_of_not_eq_true hchanged)
      refine hs ?_
      rw [hr, Option.any_some]
      exact (congrArg Prod.fst hsame).trans hpaused
  | _ => exact hs

structure Starting (s₀ : Page) (as : List Action) (t : Page) : Prop where
  animation : t.animation = none
  ran : t.ran = some s₀.shown
  clock : t.clock = s₀.clock + waited as
  elapsed : 0 ≤ waited as
  frames : as.any Action.isAnimate = false
  shown : (t.shown = s₀.shown ∧ t.updates = [.isPlaying true]) ∨
    (t.shown = { s₀.shown with isPlaying := true } ∧ t.updates = [])

theorem Starting.concat {s₀ : Page} (hs : Starting s₀ as s) (ha : a.isAnimate = false) (hwaits : 0 ≤ a.waits)
    (hanimation : t.animation = none) (hran : t.ran = some s₀.shown) (hclock : t.clock = s.clock + a.waits)
    (hshown : (t.shown = s₀.shown ∧ t.updates = [.isPlaying true]) ∨
      (t.shown = { s₀.shown with isPlaying := true } ∧ t.updates = [])) : Starting s₀ (as ++ [a]) t := by
  refine ⟨hanimation, hran, ?_, ?_, ?_, hshown⟩
  · rw [hclock, hs.clock, waited_concat, add_assoc]
  · rw [waited_concat]
    exact add_nonneg hs.elapsed hwaits
  · rw [List.any_append, hs.frames, List.any_cons, List.any_nil, ha]
    rfl

theorem starting_toggle (hsettled : Settled s) (hpaused : s.shown.isPlaying = false) (hhalts : Halts s) :
    Starting s [] s.handleToggle := by
  refine ⟨hhalts ?_, hsettled.2, (add_zero _).symm, le_refl _, rfl, .inl ⟨rfl, ?_⟩⟩
  · rw [hsettled.2, Option.any_some]
    exact hpaused
  · change s.updates ++ [.isPlaying (!s.shown.isPlaying)] = _
    rw [hsettled.1, hpaused]
    rfl

theorem effects_frame (hfirst : s.loadFirst = s)
    (hchanged : s.changed (fun r => (r.isPlaying, r.playbackRate, r.duration)) = true)
    (hplaying : s.shown.isPlaying = true) : s.effects.lastFrameTime = 0 ∧ s.effects.clock = s.clock := by
  have hfollow (u : Page) : u.follow.lastFrameTime = u.lastFrameTime ∧ u.follow.clock = u.clock := by
    unfold Page.follow
    split_ifs <;> exact ⟨rfl, rfl⟩
  obtain ⟨hframe, hclock⟩ := hfollow s.restart
  unfold Page.effects
  rw [hfirst]
  refine ⟨hframe.trans ?_, hclock.trans ?_⟩
  · rw [Page.restart, if_pos hchanged, if_pos hplaying]
  · rw [Page.restart, if_pos hchanged, if_pos hplaying]

theorem Starting.play {s₀ : Page} (hs : Starting s₀ as s) (hpaused : s₀.shown.isPlaying = false)
    (hshown : s.shown = { s₀.shown with isPlaying := true }) (hupdates : s.updates = []) :
    Played s₀.clock s₀.shown.currentTime s₀.shown.playbackRate s₀.shown.duration (as ++ [.effects]) s.effects := by
  obtain ⟨heffects, hqueue⟩ := effects_queue s
  have hfirst : s.loadFirst = s := by
    rw [Page.loadFirst, if_neg]
    rintro ⟨hnew, -⟩
    rw [Page.changed, hs.ran, hshown] at hnew
    simp at hnew
  have hchanged : s.changed (fun r => (r.isPlaying, r.playbackRate, r.duration)) = true := by
    rw [Page.changed, hs.ran, hshown, Option.map_some, hpaused]
    simp
  have hplaying : s.shown.isPlaying = true := by rw [hshown]
  have hanimation : s.effects.animation = some (s₀.shown.playbackRate, s₀.shown.duration) := by
    rw [effects_animation, if_pos hchanged, if_pos hplaying, hshown]
    rfl
  have hframe := effects_frame hfirst hchanged hplaying
  have hframes : (as ++ [Action.effects]).any Action.isAnimate = false := by
    rw [List.any_append, hs.frames]
    rfl
  have hwaited : waited (as ++ [.effects]) = waited as := (waited_concat ..).trans (add_zero _)
  refine ⟨⟨fun u hu => ?_, ?_, ?_, ⟨s.shown, rfl, ?_, ?_, ?_⟩, fun p hp => ?_, ?_⟩, ?_, ?_, ?_⟩
  · rw [hqueue, hupdates] at hu
    cases hu
  · rw [heffects, hshown]
  · rw [heffects, hshown]
    rfl
  · rw [hshown]
  · rw [hshown]
    rfl
  · rw [heffects]
    exact id
  · rw [hanimation] at hp
    exact (Option.some.inj hp).symm
  · rw [heffects, hqueue, hupdates, hshown, played_of_none hframes]
    change |s₀.shown.currentTime - (s₀.shown.currentTime + s₀.shown.playbackRate * 0 * 1000000)| ≤ _
    rw [mul_zero, zero_mul, add_zero, sub_self, abs_zero]
    positivity
  · rw [hframe.2, hs.clock, hwaited]
  · rw [hwaited]
    exact hs.elapsed
  · rw [hframes]
    exact hframe.1

theorem starting_step {s₀ : Page} (hs : Starting s₀ as s) (ha : a.passive)
    (hstep : step s a = some t) : Starting s₀ (as ++ [a]) t ∨
      (a = .effects ∧ s.shown = { s₀.shown with isPlaying := true } ∧ s.updates = [] ∧ t = s.effects) := by
  cases step_sound hstep with
  | wait hpos => exact .inl (hs.concat rfl hpos hs.animation hs.ran rfl hs.shown)
  | fire => exact .inl (hs.concat rfl (le_refl _) hs.animation hs.ran (add_zero _).symm hs.shown)
  | hook => exact .inl (hs.concat rfl (le_refl _) hs.animation hs.ran (add_zero _).symm hs.shown)
  | animate hanimation =>
    rw [hs.animation] at hanimation
    cases hanimation
  | render =>
    refine .inl (hs.concat rfl (le_refl _) hs.animation hs.ran (add_zero _).symm (.inr ⟨?_, rfl⟩))
    change s.shown.next s.updates = _
    rcases hs.shown with ⟨hshown, hupdates⟩ | ⟨hshown, hupdates⟩
    · rw [hshown, hupdates]
      rfl
    · rw [hshown, hupdates]
      rfl
  | effects =>
    rcases hs.shown with ⟨hshown, hupdates⟩ | ⟨hshown, hupdates⟩
    · -- the effects have run for this render
      have hsame {δ : Type} [DecidableEq δ] (dependencies : Render → δ) : s.changed dependencies = false := by
        rw [Page.changed, hs.ran, hshown]
        simp
      have heffects : s.effects = { s with ran := some s.shown } := by
        have hfirst : s.loadFirst = s := by rw [Page.loadFirst, hsame, if_neg (by simp)]
        have hrestart : s.restart = s := by rw [Page.restart, hsame, if_neg (by simp)]
        have hfollow : s.follow = s := by rw [Page.follow, hsame, if_neg (by simp)]
        rw [Page.effects, hfirst, hrestart, hfollow]
      rw [heffects]
      exact .inl (hs.concat rfl (le_refl _) hs.animation (congrArg some hshown) (add_zero _).symm
        (.inl ⟨hshown, hupdates⟩))
    · exact .inr ⟨rfl, hshown, hupdates, rfl⟩
  | _ => exact absurd ha Bool.false_ne_true

structure OffersRates (s : Page) : Prop where
  shown : s.shown.playbackRate ∈ playbackRates
  updates : ∀ rate, .playbackRate rate ∈ s.updates → rate ∈ playbackRates

theorem offersRates_foldl {updates : List Update} {p : Render × Bool} (hp : p.1.playbackRate ∈ playbackRates)
    (hupdates : ∀ rate, .playbackRate rate ∈ updates → rate ∈ playbackRates) :
    (updates.foldl update p).1.playbackRate ∈ playbackRates := by
  induction updates generalizing p with
  | nil => exact hp
  | cons u updates ih =>
    refine ih ?_ fun rate hrate => hupdates rate (List.mem_cons_of_mem _ hrate)
    cases u with
    | playbackRate rate => exact hupdates rate (List.mem_cons_self ..)
    | _ => exact hp

theorem OffersRates.enqueue (hs : OffersRates s) {updates : List Update}
    (hupdates : ∀ rate, .playbackRate rate ∈ updates → rate ∈ playbackRates) : OffersRates (s.enqueue updates) :=
  ⟨hs.shown, fun rate hrate => (List.mem_append.mp hrate).elim (hs.updates rate) (hupdates rate)⟩

theorem OffersRates.seek (hs : OffersRates s) (timeNs : ℚ) : OffersRates (s.handleSeek timeNs) := by
  have hqueued : OffersRates (s.enqueue [.currentTime timeNs, .isPlaying false]) := hs.enqueue fun rate hrate => by
    rcases List.mem_pair.mp hrate with hrate | hrate <;> cases hrate
  exact ⟨hqueued.shown, hqueued.updates⟩

theorem offersRates_step (hs : OffersRates s) (hstep : step s a = some t) : OffersRates t := by
  cases step_sound hstep with
  | episode => exact hs.enqueue fun rate hrate => nomatch List.mem_singleton.mp hrate
  | slide => exact hs.seek _
  | skip => exact hs.seek _
  | toggle => exact hs.enqueue fun rate hrate => nomatch List.mem_singleton.mp hrate
  | rate hrate =>
    refine hs.enqueue fun other hother => ?_
    cases List.mem_singleton.mp hother
    exact hrate
  | animate =>
    have hnow : OffersRates { s with lastFrameTime := s.clock } := ⟨hs.shown, hs.updates⟩
    exact hnow.enqueue fun rate hrate => nomatch List.mem_singleton.mp hrate
  | render => exact ⟨offersRates_foldl (p := (s.shown, false)) hs.shown hs.updates, fun rate hrate => (nomatch hrate)⟩
  | effects =>
    obtain ⟨hshown, hupdates⟩ := effects_queue s
    refine ⟨?_, ?_⟩
    · rw [hshown]
      exact hs.shown
    · rw [hupdates]
      exact hs.updates
  | _ => exact ⟨hs.shown, hs.updates⟩

theorem offersRates_run (h : run step (.mount episodeId episode clock) as = some s) : OffersRates s := by
  have hmount : OffersRates (.mount episodeId episode clock) :=
    ⟨by simp [Page.mount, playbackRates], fun _ hrate => (nomatch hrate)⟩
  exact invariant_run OffersRates (fun _ _ _ => offersRates_step) hmount h

theorem nonneg_of_mem_playbackRates {rate : ℚ} (h : rate ∈ playbackRates) : 0 ≤ rate := by
  simp only [playbackRates, List.mem_cons, List.not_mem_nil, or_false] at h
  rcases h with rfl | rfl | rfl <;> norm_num

theorem clock_step (hstep : step s a = some t) : s.clock ≤ t.clock := by
  cases step_sound hstep with
  | wait hpos => exact le_add_of_nonneg_right hpos
  | effects =>
    unfold Page.effects Page.follow Page.restart Page.loadFirst
    split_ifs <;> exact le_refl _
  | _ => exact le_refl _

theorem played_run {before : List Action} (hbefore : run step (.mount episodeId episode clock) before = some s)
    (hclock : 0 < clock) (hsettled : Settled s) (hpaused : s.shown.isPlaying = false)
    (h : run step s (.toggle :: as) = some t) (hpassive : ∀ a ∈ as, a.passive) :
    Starting s as t ∨ Played s.clock s.shown.currentTime s.shown.playbackRate s.shown.duration as t := by
  have hrate := nonneg_of_mem_playbackRates (offersRates_run hbefore).shown
  have hpos : 0 < s.clock := lt_of_lt_of_le hclock (preorder_run (fun s t : Page => s.clock ≤ t.clock)
    (fun s => le_refl s.clock) (fun _ _ _ => le_trans) (fun _ _ _ => clock_step) hbefore)
  have hhalts : Halts s := invariant_run Halts (fun _ _ _ => halts_step) (fun _ => rfl) hbefore
  obtain ⟨u, hu, h⟩ := run_cons.mp h
  cases step_sound hu with
  | toggle =>
    have hok : Along step (fun _ a => a.passive) s.handleToggle as := along_of_mem hpassive
    refine history_along (fun as t => Starting s as t ∨
      Played s.clock s.shown.currentTime s.shown.playbackRate s.shown.duration as t)
      (fun as u a v hu ha hstep => ?_) (.inl (starting_toggle hsettled hpaused hhalts)) hok h
    rcases hu with hstarting | hplayed
    · rcases starting_step hstarting ha hstep with hstarting | ⟨rfl, hshown, hupdates, rfl⟩
      · exact .inl hstarting
      · exact .inr (hstarting.play hpaused hshown hupdates)
    · exact .inr (played_step hrate hpos hplayed ha hstep)

theorem playback_onTime {before : List Action} (hbefore : run step (.mount episodeId episode clock) before = some s)
    (hclock : 0 < clock) (hsettled : Settled s) (hpaused : s.shown.isPlaying = false)
    (h : run step s (.toggle :: as) = some t) (hpassive : ∀ a ∈ as, a.passive) (hrendered : t.updates = []) :
    if t.shown.isPlaying then
      |t.shown.currentTime - (s.shown.currentTime + s.shown.playbackRate * played s.clock as t * 1000000)| ≤
        (as.countP Action.isAnimate : ℚ) / 2
    else
      t.shown.currentTime = maxTime s.shown.duration ∧ (maxTime s.shown.duration : ℚ) ≤
        s.shown.currentTime + s.shown.playbackRate * played s.clock as t * 1000000 +
          as.countP Action.isAnimate / 2 := by
  rcases played_run hbefore hclock hsettled hpaused h hpassive with hstarting | hplayed
  · rcases hstarting.shown with ⟨-, hupdates⟩ | ⟨hshown, -⟩
    · rw [hrendered] at hupdates
      cases hupdates
    · rw [hshown, if_pos rfl, played_of_none hstarting.frames, mul_zero, zero_mul, add_zero, sub_self, abs_zero]
      positivity
  have honTime := hplayed.playing.onTime
  have hnext : t.shown.next t.updates = t.shown := by
    rw [hrendered]
    change { t.shown with isPlaying := t.shown.isPlaying && true } = t.shown
    rw [Bool.and_true]
  rw [hnext] at honTime
  exact honTime

def twoFrames : List Action :=
  [.wait 2, .render, .wait 3, .effects, .wait 16, .animate, .render, .effects, .wait 17, .animate, .render, .effects]

theorem playback_onTime_twoFrames :
    ∃ s t, run step (.mount "ep-1" (some cameraEpisode) 1) [.effects] = some s ∧
      run step s (.toggle :: twoFrames) = some t ∧
      |t.shown.currentTime - (0 + 1 * 17 * 1000000)| ≤ 2 / 2 := by
  have hrun : (run step (.mount "ep-1" (some cameraEpisode) 1) [.effects]).any (fun s =>
      s.updates.isEmpty && s.ran = some s.shown && !s.shown.isPlaying && s.clock = 1 && s.shown.currentTime = 0 &&
        s.shown.playbackRate = 1 && (run step s (.toggle :: twoFrames)).any (fun t =>
          t.updates.isEmpty && t.shown.isPlaying && t.lastFrameTime = 39)) := by
    decide +kernel
  obtain ⟨s, hs, hfacts⟩ := (Option.any_eq_true _ _).mp hrun
  simp only [Bool.and_eq_true, List.isEmpty_iff, decide_eq_true_eq, Bool.not_eq_true'] at hfacts
  obtain ⟨⟨⟨⟨⟨⟨hupdates, hran⟩, hpaused⟩, hclock⟩, htime⟩, hrate⟩, hrest⟩ := hfacts
  obtain ⟨t, ht, hfacts⟩ := (Option.any_eq_true _ _).mp hrest
  simp only [Bool.and_eq_true, List.isEmpty_iff, decide_eq_true_eq] at hfacts
  obtain ⟨⟨hrendered, hplaying⟩, hframe⟩ := hfacts
  have honTime := playback_onTime hs one_pos ⟨hupdates, hran⟩ hpaused ht (by simp [twoFrames, Action.passive]) hrendered
  have hplayed : played s.clock twoFrames t = 17 := by
    rw [hclock]
    norm_num [played, twoFrames, Action.isAnimate, waitedForFrame, Action.waits, hframe]
  rw [if_pos hplaying, htime, hrate, hplayed] at honTime
  exact ⟨s, t, hs, ht, honTime⟩

end Accuracy

section Requests

def Page.requested (s : Page) : Option ℚ :=
  match s.timeout with
  | some τ => some τ.timestamp
  | none => s.fired.head?.map fun p => p.2.timestamp

def Remembers (s : Page) : Prop := 0 ≤ s.lastLoadedTime → s.requested = some s.lastLoadedTime

structure Near (s : Page) : Prop where
  loaded : 0 ≤ s.lastLoadedTime
  ran : ∀ r, s.ran = some r → |r.currentTime - s.lastLoadedTime| < playbackFrameInterval

theorem effects_follow (s : Page) : ∃ u : Page, s.effects = { u.follow with ran := some s.shown } ∧ u.shown = s.shown ∧
    u.ran = s.ran ∧ u.lastLoadedTime = s.lastLoadedTime ∧ u.timeout = s.timeout ∧ u.fired = s.fired := by
  refine ⟨s.loadFirst.restart, rfl, ?_⟩
  unfold Page.restart Page.loadFirst
  split_ifs <;> exact ⟨rfl, rfl, rfl, rfl, rfl⟩

theorem remembers_effects (hs : Remembers s) : Remembers s.effects := by
  obtain ⟨u, hu, -, -, hloaded, htimeout, hfired⟩ := effects_follow s
  have hsame : Remembers u := by
    rw [Remembers, Page.requested, hloaded, htimeout, hfired]
    exact hs
  rw [hu]
  unfold Page.follow
  split_ifs
  · exact fun _ => rfl
  · exact hsame
  · exact hsame

theorem remembers_step (hs : Remembers s) (hstep : step s a = some t) : Remembers t := by
  have hseek (timeNs : ℚ) : Remembers (s.handleSeek timeNs) := fun h => absurd h (by norm_num [handleSeek_eq,
    Page.debouncedLoadFrames, Page.enqueue])
  cases step_sound hstep with
  | slide => exact hseek _
  | skip => exact hseek _
  | fire hτ =>
    intro hloaded
    have hrequested := hs hloaded
    rw [Page.requested, hτ] at hrequested
    exact hrequested
  | effects => exact remembers_effects hs
  | _ => exact hs

theorem near_effects (htime : 0 ≤ s.shown.currentTime)
    (hs : s.changed (fun r => (r.currentTime, r.isPlaying, r.version)) = true ∨ Near s) : Near s.effects := by
  obtain ⟨u, hu, hshown, hran, hloaded, -, -⟩ := effects_follow s
  rw [hu, Page.follow, hshown, hloaded]
  have hsame : u.changed (fun r => (r.currentTime, r.isPlaying, r.version)) =
      s.changed fun r => (r.currentTime, r.isPlaying, r.version) := by rw [Page.changed, hran, hshown, Page.changed]
  rw [hsame]
  split_ifs with hchanged hload
  · refine ⟨htime, fun r hr => ?_⟩
    cases hr
    dsimp only [Page.debouncedLoadFrames]
    rw [sub_self, abs_zero, playbackFrameInterval]
    norm_num
  · rw [not_or, not_or, not_lt, not_le] at hload
    refine ⟨hloaded.symm ▸ hload.2.1, fun r hr => ?_⟩
    cases hr
    dsimp only
    rw [hloaded]
    exact hload.2.2
  · have hnear := hs.resolve_left hchanged
    obtain ⟨r, hr, hdependencies⟩ := changed_eq_false.mp (Bool.eq_false_of_not_eq_true hchanged)
    refine ⟨hloaded.symm ▸ hnear.loaded, fun q hq => ?_⟩
    cases hq
    have hcurrent : r.currentTime = s.shown.currentTime := (Prod.ext_iff.mp hdependencies).1
    dsimp only
    rw [hloaded, ← hcurrent]
    exact hnear.ran r hr

theorem near_step (htime : 0 ≤ s.shown.currentTime) (hs : Near s) (ha : a.passive) (hstep : step s a = some t) :
    Near t := by
  cases step_sound hstep with
  | effects => exact near_effects htime (.inr hs)
  | wait => exact ⟨hs.loaded, hs.ran⟩
  | animate => exact ⟨hs.loaded, hs.ran⟩
  | fire => exact ⟨hs.loaded, hs.ran⟩
  | render => exact ⟨hs.loaded, hs.ran⟩
  | hook => exact ⟨hs.loaded, hs.ran⟩
  | _ => exact absurd ha Bool.false_ne_true

theorem Page.InRange.passive (hlimit : 0 ≤ limit) (hs : s.InRange limit) (ha : a.passive) (hstep : step s a = some t) :
    t.InRange limit := by
  refine inRange_step hlimit hs (fun episodeId episode he => ?_) hstep
  rw [he] at ha
  cases ha

theorem playback_requests {before : List Action} (hlimit : 0 ≤ limit) (hfirst : WithinDuration limit episode)
    (hlater : ∀ episodeId episode, .episode episodeId episode ∈ before → WithinDuration limit episode)
    (hbefore : run step (.mount episodeId episode clock) before = some s) (hsettled : Settled s)
    (hpaused : s.shown.isPlaying = false) (h : run step s (.toggle :: as) = some t) (hpassive : ∀ a ∈ as, a.passive)
    (hsettled' : Settled t) :
    ∃ timestamp, t.requested = some timestamp ∧ |t.shown.currentTime - timestamp| < 500000000 := by
  have hs := inRange_run hlimit hfirst hlater hbefore
  have hremembers : Remembers s := invariant_run Remembers (fun _ _ _ => remembers_step)
    (fun h => absurd h (by norm_num [Page.mount])) hbefore
  have hhalts : Halts s := invariant_run Halts (fun _ _ _ => halts_step) (fun _ => rfl) hbefore
  have hqueued : s.handleToggle.InRange limit := hs.enqueue fun v hv => by rw [List.mem_singleton.mp hv]; trivial
  obtain ⟨u, hu, h⟩ := run_cons.mp h
  cases step_sound hu with
  | toggle =>
    have hok : Along step (fun _ a => a.passive) s.handleToggle as := along_of_mem hpassive
    have ht : (Starting s as t ∨ Near t) ∧ t.InRange limit ∧ Remembers t := by
      refine history_along (fun as t => (Starting s as t ∨ Near t) ∧ t.InRange limit ∧ Remembers t)
        (fun as u a v hu ha hstep => ?_) ⟨.inl (starting_toggle hsettled hpaused hhalts), hqueued, hremembers⟩ hok h
      obtain ⟨hphase, hrange, hremembers⟩ := hu
      refine ⟨?_, hrange.passive hlimit ha hstep, remembers_step hremembers hstep⟩
      rcases hphase with hstarting | hnear
      · rcases starting_step hstarting ha hstep with hstarting' | ⟨-, hshown, -, rfl⟩
        · exact .inl hstarting'
        · refine .inr (near_effects hrange.shown.time.1 (.inl ?_))
          rw [Page.changed, hstarting.ran, hshown, Option.map_some, hpaused]
          simp
      · exact .inr (near_step hrange.shown.time.1 hnear ha hstep)
    obtain ⟨hphase, -, hremembers⟩ := ht
    rcases hphase with hstarting | hnear
    · -- the effects of the playing render have not run
      rcases hstarting.shown with ⟨-, hupdates⟩ | ⟨hshown, -⟩
      · rw [hsettled'.1] at hupdates
        cases hupdates
      · have hran := hsettled'.2.symm.trans hstarting.ran
        rw [hshown, Option.some.injEq] at hran
        have hplaying := congrArg Render.isPlaying hran
        rw [hpaused] at hplaying
        cases hplaying
    · exact ⟨t.lastLoadedTime, hremembers hnear.loaded, hnear.ran t.shown hsettled'.2⟩

theorem playback_requests_twoFrames :
    ∃ t timestamp, (∃ s, run step (.mount "ep-1" (some cameraEpisode) 1) [.effects] = some s ∧
        run step s (.toggle :: twoFrames) = some t) ∧
      t.requested = some timestamp ∧ |t.shown.currentTime - timestamp| < 500000000 := by
  have hrun : (run step (.mount "ep-1" (some cameraEpisode) 1) [.effects]).any (fun s =>
      s.updates.isEmpty && s.ran = some s.shown && !s.shown.isPlaying &&
        (run step s (.toggle :: twoFrames)).any (fun t =>
          t.updates.isEmpty && t.ran = some t.shown)) := by
    decide +kernel
  obtain ⟨s, hs, hfacts⟩ := (Option.any_eq_true _ _).mp hrun
  simp only [Bool.and_eq_true, List.isEmpty_iff, decide_eq_true_eq, Bool.not_eq_true'] at hfacts
  obtain ⟨⟨⟨hupdates, hran⟩, hpaused⟩, hrest⟩ := hfacts
  obtain ⟨t, ht, hfacts⟩ := (Option.any_eq_true _ _).mp hrest
  simp only [Bool.and_eq_true, List.isEmpty_iff, decide_eq_true_eq] at hfacts
  obtain ⟨timestamp, hrequested, hnear⟩ := playback_requests (by norm_num) within_cameraEpisode
    (fun _ _ h => absurd h (by simp)) hs ⟨hupdates, hran⟩ hpaused ht (by simp [twoFrames, Action.passive]) hfacts
  exact ⟨t, timestamp, ⟨s, hs, ht⟩, hrequested, hnear⟩

end Requests

end Embedai.PreviewPage
