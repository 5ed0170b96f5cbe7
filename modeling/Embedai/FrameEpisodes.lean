import Embedai.McapFramesSteps

namespace Embedai.McapFrames

open RunWithConcurrency TransitionSystems

def Hook.episodeId? (h : Hook) : Option String := h.renders.head?.map UseMcapFramesOptions.episodeId

def FindsOwn (h : Hook) : Action → Prop
  | .loadFrames props timestamp => ∀ topic ∈ props.topics.take maxConcurrent,
    ∀ blobUrl ∈ h.cache.get? (cacheKey topic timestamp), blobUrl.episodeId = props.episodeId
  | .resume i => ∀ c ∈ h.calls[i]?, c.callback = .loadFrames → c.aborted = false → ∀ topic ∈ c.opened,
    ∀ blobUrl ∈ h.cache.get? (cacheKey topic c.timestamp), blobUrl.episodeId = c.props.episodeId
  | _ => True

instance (h : Hook) : DecidablePred (FindsOwn h)
  | .loadFrames props timestamp => inferInstanceAs (Decidable (∀ topic ∈ props.topics.take maxConcurrent,
      ∀ blobUrl ∈ h.cache.get? (cacheKey topic timestamp), blobUrl.episodeId = props.episodeId))
  | .resume i => inferInstanceAs (Decidable (∀ c ∈ h.calls[i]?, c.callback = .loadFrames → c.aborted = false →
      ∀ topic ∈ c.opened, ∀ blobUrl ∈ h.cache.get? (cacheKey topic c.timestamp),
        blobUrl.episodeId = c.props.episodeId))
  | .render _ | .preloadFrames .. | .settle .. | .remove .. | .finish _ | .unmount =>
    inferInstanceAs (Decidable True)

structure Publishes (h : Hook) (i : ℕ) (t : Hook) : Prop where
  mounted : h.mounted
  finishes : step h (.finish i) = some t
  call : ∃ c, h.calls[i]? = some c ∧ c.callback = .loadFrames ∧ h.episodeId? = some c.props.episodeId ∧
    0 < c.newFrames.length

def Call.Own (c : Call) : Prop :=
  ∀ topic blobUrl, c.newFrames.get? topic = some blobUrl → blobUrl.episodeId = c.props.episodeId

structure OwnFrames (h : Hook) : Prop where
  fits : h.Fits
  own : ∀ (i : ℕ) (c : Call), h.calls[i]? = some c → c.Own

variable {h t : Hook} {i : ℕ} {c : Call}

theorem own_loop (items : List String) {p : Limiter String × Fetch} (hroom : p.1.executing.length < maxConcurrent)
    (hp : ∀ topic blobUrl, p.2.newFrames.get? topic = some blobUrl → blobUrl.episodeId = c.props.episodeId)
    (hfinds : c.callback = .loadFrames → c.aborted = false →
      ∀ topic ∈ items.take (maxConcurrent - p.1.executing.length),
        ∀ blobUrl ∈ h.cache.get? (cacheKey topic c.timestamp), blobUrl.episodeId = c.props.episodeId)
    (topic : String) (blobUrl : BlobUrl)
    (hurl : (loop maxConcurrent (h.fetchTopic i c) items p).2.newFrames.get? topic = some blobUrl) :
    blobUrl.episodeId = c.props.episodeId := by
  obtain ⟨awaits, he⟩ := exists_visits_loop (h.fetchTopic i c) items hroom
  rw [he] at hurl
  rcases (fetching_visits _ p).newFrames topic blobUrl hurl with hold | ⟨hload, haborted, htopic, hcached⟩
  · exact hp topic blobUrl hold
  · exact hfinds hload haborted topic htopic blobUrl hcached

theorem ownFrames_step {a : Action} (hh : OwnFrames h) (hfinds : FindsOwn h a) (hstep : step h a = some t) :
    OwnFrames t := by
  refine ⟨fits_step hh.fits hstep, ?_⟩
  have hset {i : ℕ} {c c' : Call} (hc : h.calls[i]? = some c) (hc' : c'.Own) (j : ℕ) (d : Call) :
      (h.setCall i c').calls[j]? = some d → d.Own :=
    Hook.forall_setCall hc (fun j d _ => hh.own j d) hc' j d
  cases step_sound hstep with
  | load props timestamp =>
    obtain ⟨calls, isLoading, he, -, hcalls⟩ := h.supersede_eq
    refine Hook.forall_begin (fun j d hd => ?_) ?_
    · rw [he] at hd
      obtain ⟨c, hc, rfl | rfl⟩ := hcalls j d hd
      · exact hh.own j d hc
      · exact hh.own j c hc
    · rw [he]
      exact own_loop props.topics Nat.zero_lt_two nofun fun _ _ => hfinds
  | preload props timestamp => exact Hook.forall_begin hh.own (own_loop props.topics Nat.zero_lt_two nofun nofun)
  | @fetched r c hr hc =>
    refine hset hc fun topic blobUrl hurl => ?_
    cases hcallback : c.callback with
    | preloadFrames =>
      rw [hcallback] at hurl
      exact hh.own _ c hc topic blobUrl hurl
    | loadFrames =>
      rw [hcallback] at hurl
      change (c.newFrames.set _ _).get? topic = some blobUrl at hurl
      rw [OrderedDict.get?_set] at hurl
      split_ifs at hurl
      · cases hurl
        obtain ⟨c', hc', hmade⟩ := hh.fits.requests r hr
        rw [hc, Option.some.injEq] at hc'
        subst hc'
        exact hmade.episodeId
      · exact hh.own _ c hc topic blobUrl hurl
  | @failed r c hr hc => exact hset hc (hh.own r.call c hc)
  | @remove i task c limiter hc => exact hset hc (hh.own i c hc)
  | @race i c tasks hc hrace hwon =>
    have hroom := (hh.fits.calls i c hc).limiter.length_executing_lt hrace hwon
    exact hset hc (own_loop c.limiter.rest hroom (hh.own i c hc) (hfinds c hc))
  | @all i c tasks hc => exact hset hc (hh.own i c hc)
  | @publish i c hc =>
    obtain ⟨frames, isLoading, he⟩ := Hook.publish_eq _ _
    rw [he]
    exact hset hc (hh.own i c hc)
  | @finish i c hc => exact hset hc (hh.own i c hc)
  | _ => exact hh.own

theorem Publishes.frames (hpublishes : Publishes h i t) :
    ∃ c, h.calls[i]? = some c ∧ h.episodeId? = some c.props.episodeId ∧ t.frames = c.newFrames := by
  obtain ⟨c, hc, hload, hepisode, hsome⟩ := hpublishes.call
  refine ⟨c, hc, hepisode, ?_⟩
  cases step_sound hpublishes.finishes with
  | publish hc' =>
    rw [hc, Option.some.injEq] at hc'
    subst hc'
    have hframes := Hook.publish_frames (h := h.setCall i { c with finished := true }) hpublishes.mounted c
    exact hframes.trans (if_pos hsome)
  | finish hc' _ _ hpreload =>
    rw [hc, Option.some.injEq] at hc'
    subst hc'
    rw [hload] at hpreload
    cases hpreload

theorem published_frames_own (props : UseMcapFramesOptions) (as : List Action)
    (hfinds : Along step FindsOwn (Hook.mount props) as) (before : List Action) (i : ℕ) (t u : Hook)
    (hbefore : before ++ [.finish i] <+: as) (hrun : run step (Hook.mount props) before = some t)
    (hpublishes : Publishes t i u) (topic : String) (blobUrl : BlobUrl) (hshown : u.frames.get? topic = some blobUrl) :
    t.episodeId? = some blobUrl.episodeId := by
  obtain ⟨after, rfl⟩ := hbefore
  rw [List.append_assoc] at hfinds
  have hown : OwnFrames t :=
    invariant_along OwnFrames (fun _ _ _ => ownFrames_step) ⟨Hook.fits_mount props, nofun⟩
      (along_append hrun hfinds).1 hrun
  obtain ⟨c, hc, hepisode, hframes⟩ := hpublishes.frames
  rw [hframes] at hshown
  rw [hepisode, hown.own i c hc topic blobUrl hshown]

def nextEpisode (first second : String) : List Action :=
  [.loadFrames (front first) 0, .settle 0 0 true, .remove 0 0, .resume 0, .finish 0, .render (front second),
    .loadFrames (front second) 0, .remove 1 0, .resume 1]

theorem exists_publishes (i : ℕ) (s : Hook) (as : List Action) (q : Hook → Hook → Bool)
    (h : (run step s as).any fun t => (t.mounted && t.calls[i]?.any fun c => c.callback = .loadFrames ∧
      t.episodeId? = some c.props.episodeId ∧ 0 < c.newFrames.length) && (step t (.finish i)).any (q t)) :
    ∃ t u, run step s as = some t ∧ Publishes t i u ∧ q t u := by
  obtain ⟨t, ht, hrest⟩ := (Option.any_eq_true _ _).mp h
  simp only [Bool.and_eq_true, Option.any_eq_true, decide_eq_true_eq] at hrest
  obtain ⟨⟨hmounted, hcall⟩, u, hu, hq⟩ := hrest
  exact ⟨t, u, ht, ⟨hmounted, hu, hcall⟩, hq⟩

theorem published_frames_own_sameEpisode :
    ∃ t u, run step (Hook.mount (front "ep-1")) (nextEpisode "ep-1" "ep-1") = some t ∧ Publishes t 1 u ∧
      ∀ topic blobUrl, u.frames.get? topic = some blobUrl → t.episodeId? = some blobUrl.episodeId := by
  obtain ⟨t, u, hrun, hpublishes, -⟩ := exists_publishes 1 (Hook.mount (front "ep-1"))
    (nextEpisode "ep-1" "ep-1") (fun _ _ => true) (by decide +kernel)
  exact ⟨t, u, hrun, hpublishes, published_frames_own (front "ep-1") (nextEpisode "ep-1" "ep-1" ++ [.finish 1])
    (by decide +kernel) (nextEpisode "ep-1" "ep-1") 1 t u List.prefix_rfl hrun hpublishes⟩

theorem frame_of_other_episode :
    ∃ t u, run step (Hook.mount (front "ep-1")) (nextEpisode "ep-1" "ep-2") = some t ∧ Publishes t 1 u ∧
      ∃ blobUrl, u.frames.get? "/cam" = some blobUrl ∧ t.episodeId? ≠ some blobUrl.episodeId := by
  obtain ⟨t, u, hrun, hpublishes, hforeign⟩ := exists_publishes 1 (Hook.mount (front "ep-1"))
    (nextEpisode "ep-1" "ep-2")
    (fun t u => (u.frames.get? "/cam").any fun blobUrl => t.episodeId? ≠ some blobUrl.episodeId) (by decide +kernel)
  simp only [Option.any_eq_true, decide_eq_true_eq] at hforeign
  exact ⟨t, u, hrun, hpublishes, hforeign⟩

end Embedai.McapFrames
