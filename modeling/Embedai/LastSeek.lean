import Embedai.McapFramesSteps

namespace Embedai.McapFrames

open RunWithConcurrency TransitionSystems

def Seek (props : UseMcapFramesOptions) : Action → Prop
  | .loadFrames props' _ => props' = props
  | .settle _ _ succeeds => succeeds = true
  | .remove .. => True
  | .resume _ => True
  | .finish _ => True
  | _ => False

instance (props : UseMcapFramesOptions) : DecidablePred (Seek props)
  | .loadFrames props' _ => inferInstanceAs (Decidable (props' = props))
  | .settle _ _ succeeds => inferInstanceAs (Decidable (succeeds = true))
  | .remove .. | .resume _ | .finish _ => inferInstanceAs (Decidable True)
  | .render _ | .preloadFrames .. | .unmount => inferInstanceAs (Decidable False)

def Hook.lastCall (h : Hook) : Option Call := h.calls[h.calls.length - 1]?

def Call.ShownBy (c : Call) (frames : OrderedDict String BlobUrl) : Prop :=
  ∀ topic ∈ c.props.topics, ∃ blobUrl, frames.get? topic = some blobUrl ∧ blobUrl.IsFor topic c.timestamp

def ShowsLast (h : Hook) : Prop := ∀ last ∈ h.lastCall, last.finished → last.ShownBy h.frames

def KeepsLast (h : Hook) : Action → Prop
  | .finish i => ∀ c ∈ h.calls[i]?, ∀ last ∈ h.lastCall, last.finished → c.newFrames.length = 0 ∨
    (bucket c.timestamp = bucket last.timestamp ∧ ∀ topic ∈ c.props.topics, (c.newFrames.get? topic).isSome)
  | _ => True

instance (h : Hook) : DecidablePred (KeepsLast h)
  | .finish i => inferInstanceAs (Decidable (∀ c ∈ h.calls[i]?, ∀ last ∈ h.lastCall, last.finished →
      c.newFrames.length = 0 ∨
        (bucket c.timestamp = bucket last.timestamp ∧ ∀ topic ∈ c.props.topics, (c.newFrames.get? topic).isSome)))
  | .render _ | .loadFrames .. | .preloadFrames .. | .settle .. | .remove .. | .resume _ | .unmount =>
    inferInstanceAs (Decidable True)

structure Call.Seeks (props : UseMcapFramesOptions) (n i : ℕ) (c : Call) : Prop where
  callback : c.callback = .loadFrames
  nonempty : props.topics ≠ []
  props : c.props = props
  last : i + 1 = n → c.aborted = false
  collected : c.aborted = false → ∀ (task : ℕ) (topic : String), c.limiter.called[task]? = some topic →
    (c.newFrames.get? topic).isSome ∨ task ∈ c.limiter.pending

structure Seeking (props : UseMcapFramesOptions) (h : Hook) : Prop where
  fits : h.Fits
  mounted : h.mounted = true
  calls : ∀ (i : ℕ) (c : Call), h.calls[i]? = some c → c.Seeks props h.calls.length i

variable {props : UseMcapFramesOptions} {h t : Hook} {i n : ℕ} {c : Call}

section Loop

def Collects (q : Limiter String × Fetch) : Prop :=
  ∀ (task : ℕ) (topic : String), q.1.called[task]? = some topic →
    (q.2.newFrames.get? topic).isSome ∨ task ∈ q.1.pending

theorem isSome_get?_set {d : OrderedDict String BlobUrl} {key topic : String} (blobUrl : BlobUrl)
    (hd : (d.get? topic).isSome) : ((d.set key blobUrl).get? topic).isSome := by
  rw [OrderedDict.get?_set]
  split
  · rfl
  · exact hd

theorem Collects.visit {q : Limiter String × Fetch} (hload : c.callback = .loadFrames) (haborted : c.aborted = false)
    (hq : Collects q) (item : String) : Collects (visit (h.fetchTopic i c) item q) := by
  intro task topic htask
  change (q.1.called ++ [item])[task]? = some topic at htask
  rw [ListSplits.getElem?_concat] at htask
  rcases fetchTopic_cases h i c q.1.called.length item q.2 with ⟨-, hskips⟩ | ⟨blobUrl, -, -, -, he⟩ | ⟨signal, he⟩
  · rw [hskips hload] at haborted
    cases haborted
  · rw [RunWithConcurrency.visit, he]
    split_ifs at htask
    · cases htask
      refine .inl ?_
      change ((q.2.newFrames.set item blobUrl).get? item).isSome
      rw [OrderedDict.get?_set, if_pos rfl]
      rfl
    · exact (hq task topic htask).imp (isSome_get?_set blobUrl) id
  · rw [RunWithConcurrency.visit, he]
    split_ifs at htask with hnew
    · rw [hnew]
      exact .inr (List.mem_append_right _ (List.mem_singleton_self _))
    · exact (hq task topic htask).imp id fun hpending => List.mem_append_left _ hpending

theorem collects_loop (items : List String) {p : Limiter String × Fetch} (hload : c.callback = .loadFrames)
    (haborted : c.aborted = false) (hroom : p.1.executing.length < maxConcurrent) (hp : Collects p) :
    Collects (loop maxConcurrent (h.fetchTopic i c) items p) := by
  obtain ⟨awaits, he⟩ := exists_visits_loop (h.fetchTopic i c) items hroom
  rw [he]
  exact visits_induction Collects hp fun item _ q hq => hq.visit hload haborted item

end Loop

theorem Seeking.setCall {c' : Call} (hh : Seeking props h) (hfits : t.Fits) (hc : h.calls[i]? = some c)
    (hcalls : t.calls = (h.setCall i c').calls) (hmounted : t.mounted = h.mounted)
    (hc' : c'.Seeks props h.calls.length i) : Seeking props t := by
  refine ⟨hfits, hmounted.trans hh.mounted, ?_⟩
  rw [hcalls, Hook.length_setCall]
  exact Hook.forall_setCall hc (fun j d _ => hh.calls j d) hc'

theorem seeking_step {a : Action} (hh : Seeking props h) (ha : Seek props a) (hstep : step h a = some t) :
    Seeking props t := by
  have hfits := fits_step hh.fits hstep
  cases step_sound hstep with
  | render => cases ha
  | preload => cases ha
  | preloadNone => cases ha
  | unmount => cases ha
  | failed => cases ha
  | loadNone => exact hh
  | load props' timestamp hrender hsome =>
    cases ha
    obtain ⟨calls, isLoading, he, hlength, hcalls⟩ := h.supersede_eq
    rw [he]
    refine ⟨he ▸ hfits, hh.mounted, ?_⟩
    rw [Hook.length_begin]
    refine Hook.forall_begin (fun j d hd => ?_) ⟨rfl, hsome, rfl, fun _ => rfl, fun _ => ?_⟩
    · have hj : j < calls.length := (List.getElem?_eq_some_iff.mp hd).1
      have hnot : j + 1 ≠ calls.length + 1 := by omega
      obtain ⟨c, hc, rfl | rfl⟩ := hcalls j d hd
      · have hseeks := hh.calls j d hc
        exact ⟨hseeks.callback, hseeks.nonempty, hseeks.props, fun hlast => absurd hlast hnot, hseeks.collected⟩
      · have hseeks := hh.calls j c hc
        exact ⟨hseeks.callback, hseeks.nonempty, hseeks.props, fun hlast => absurd hlast hnot, nofun⟩
    · exact collects_loop props.topics rfl rfl Nat.zero_lt_two nofun
  | @fetched r c hr hc =>
    have hseeks := hh.calls r.call c hc
    refine hh.setCall hfits hc rfl rfl ⟨hseeks.callback, hseeks.nonempty, hseeks.props, hseeks.last, ?_⟩
    intro haborted task topic htask
    obtain ⟨c', hc', hmade⟩ := hh.fits.requests r hr
    rw [hc, Option.some.injEq] at hc'
    subst hc'
    rw [hseeks.callback]
    by_cases htask' : task = r.task
    · have htopic := hmade.topic
      change c.limiter.called[task]? = some topic at htask
      rw [← htask', htask, Option.some.injEq] at htopic
      refine .inl ?_
      change ((c.newFrames.set r.options.topic _).get? topic).isSome
      rw [OrderedDict.get?_set, if_pos htopic]
      rfl
    · exact (hseeks.collected haborted task topic htask).imp (isSome_get?_set _) (List.mem_erase_of_ne htask').mpr
  | @remove i task c limiter hc hremove =>
    have hseeks := hh.calls i c hc
    rw [Limiter.remove, Option.ite_none_right_eq_some] at hremove
    cases hremove.2
    exact hh.setCall hfits hc rfl rfl ⟨hseeks.callback, hseeks.nonempty, hseeks.props, hseeks.last, hseeks.collected⟩
  | @race i c tasks hc hrace hwon =>
    have hseeks := hh.calls i c hc
    refine hh.setCall hfits hc rfl rfl ⟨hseeks.callback, hseeks.nonempty, hseeks.props, hseeks.last, fun haborted => ?_⟩
    have hroom := (hh.fits.calls i c hc).limiter.length_executing_lt hrace hwon
    exact collects_loop c.limiter.rest (p := (c.limiter, ⟨c.newFrames, h.requests⟩)) hseeks.callback haborted hroom
      (hseeks.collected haborted)
  | @all i c tasks hc =>
    have hseeks := hh.calls i c hc
    exact hh.setCall hfits hc rfl rfl ⟨hseeks.callback, hseeks.nonempty, hseeks.props, hseeks.last, hseeks.collected⟩
  | @publish i c hc =>
    have hseeks := hh.calls i c hc
    obtain ⟨frames, isLoading, he⟩ := (h.setCall i { c with finished := true }).publish_eq c
    rw [he] at hfits ⊢
    exact hh.setCall hfits hc rfl rfl ⟨hseeks.callback, hseeks.nonempty, hseeks.props, hseeks.last, hseeks.collected⟩
  | @finish i c hc _ _ hpreload =>
    rw [(hh.calls i c hc).callback] at hpreload
    cases hpreload

theorem shownBy_of_returned (hfits : c.Fits) (hseeks : c.Seeks props n i) (hreturned : c.limiter.awaits = .returned)
    (haborted : c.aborted = false) : c.ShownBy c.newFrames := by
  intro topic htopic
  have hawaits := hfits.limiter.awaits
  rw [hreturned] at hawaits
  have hpending := hfits.limiter.pending
  rw [hawaits.1, List.sublist_nil] at hpending
  rw [← hfits.topics, hawaits.2, List.append_nil] at htopic
  obtain ⟨task, htask⟩ := List.mem_iff_getElem?.mp htopic
  rcases hseeks.collected haborted task topic htask with hsome | hmem
  · obtain ⟨blobUrl, hurl⟩ := Option.isSome_iff_exists.mp hsome
    exact ⟨blobUrl, hurl, hfits.newFrames topic blobUrl hurl⟩
  · rw [hpending] at hmem
    cases hmem

theorem lastCall_setCall (hc : h.calls[i]? = some c) (c' : Call) :
    (h.setCall i c').lastCall = if h.calls.length - 1 = i then some c' else h.lastCall := by
  rw [Hook.lastCall, Hook.length_setCall, Hook.getElem?_setCall hc, Hook.lastCall]

theorem ShowsLast.setCall {c' : Call} (hshows : ShowsLast h) (hc : h.calls[i]? = some c)
    (hcalls : t.calls = (h.setCall i c').calls) (hframes : t.frames = h.frames) (hfinished : c'.finished = c.finished)
    (hfollows : c.Follows c') : ShowsLast t := by
  have hlast : t.lastCall = if h.calls.length - 1 = i then some c' else h.lastCall := by
    rw [← lastCall_setCall hc, Hook.lastCall, hcalls, Hook.lastCall]
  rw [ShowsLast, hlast, hframes]
  split_ifs with hi
  · rintro _ ⟨⟩ hrunning
    rw [hfinished] at hrunning
    rw [Call.ShownBy, hfollows.props, hfollows.timestamp]
    refine hshows c ?_ hrunning
    rw [Hook.lastCall, hi]
    exact hc
  · exact hshows

theorem shownBy_newFrames {last : Call} (hfits : c.Fits) (hprops : last.props = c.props)
    (hnonempty : c.props.topics ≠ []) :
    last.ShownBy c.newFrames ↔
      bucket c.timestamp = bucket last.timestamp ∧ ∀ topic ∈ c.props.topics, (c.newFrames.get? topic).isSome := by
  rw [Call.ShownBy, hprops]
  constructor
  · intro hall
    refine ⟨?_, fun topic htopic => ?_⟩
    · obtain ⟨topic, htopic⟩ := List.exists_mem_of_ne_nil _ hnonempty
      obtain ⟨blobUrl, hurl, hfor⟩ := hall topic htopic
      rw [← (hfits.newFrames topic blobUrl hurl).bucket, hfor.bucket]
    · obtain ⟨blobUrl, hurl, -⟩ := hall topic htopic
      rw [hurl]
      rfl
  · rintro ⟨hbucket, hall⟩ topic htopic
    obtain ⟨blobUrl, hurl⟩ := Option.isSome_iff_exists.mp (hall topic htopic)
    have hfor := hfits.newFrames topic blobUrl hurl
    exact ⟨blobUrl, hurl, hfor.topic, hfor.bucket.trans hbucket⟩

theorem showsLast_publish (hh : Seeking props h) (hshows : ShowsLast h) (hc : h.calls[i]? = some c)
    (hreturned : c.limiter.awaits = .returned) (hrunning : c.finished = false) :
    ShowsLast ((h.setCall i { c with finished := true }).publish c) ↔ KeepsLast h (.finish i) := by
  have hseeks := hh.calls i c hc
  have hfits := hh.fits.calls i c hc
  have hframes := Hook.publish_frames (h := h.setCall i { c with finished := true }) hh.mounted c
  obtain ⟨frames, isLoading, he⟩ := (h.setCall i { c with finished := true }).publish_eq c
  rw [he] at hframes ⊢
  have hlast := lastCall_setCall hc { c with finished := true }
  rw [ShowsLast, hframes]
  change (∀ last ∈ (h.setCall i { c with finished := true }).lastCall, last.finished → last.ShownBy _) ↔ _
  simp only [hlast, KeepsLast, hc, Option.mem_def, Option.some.injEq, forall_eq']
  by_cases hi : h.calls.length - 1 = i
  · -- the last call itself, which has a frame of every topic
    have hcurrent : h.lastCall = some c := by
      rw [Hook.lastCall, hi]
      exact hc
    have hlt : i < h.calls.length := (List.getElem?_eq_some_iff.mp hc).1
    have hshown := shownBy_of_returned hfits hseeks hreturned (hseeks.last (by omega))
    have hsome : 0 < c.newFrames.length := by
      obtain ⟨topic, htopic⟩ := List.exists_mem_of_ne_nil _ (hseeks.props ▸ hseeks.nonempty)
      obtain ⟨blobUrl, hurl, -⟩ := hshown topic htopic
      exact List.length_pos_of_mem (OrderedDict.mem_items.mpr hurl)
    simp only [hi, if_true, hsome, hcurrent, Option.some.injEq, forall_eq', hrunning, Bool.false_eq_true, false_imp_iff,
      iff_true]
    exact fun _ => hshown
  · simp only [hi, if_false]
    refine forall₂_congr fun last hmem => forall_congr' fun hfinished => ?_
    by_cases hsome : 0 < c.newFrames.length
    · have hprops : last.props = c.props := (hh.calls _ last hmem).props.trans hseeks.props.symm
      rw [if_pos hsome, shownBy_newFrames hfits hprops (hseeks.props ▸ hseeks.nonempty)]
      exact (or_iff_right (Nat.pos_iff_ne_zero.mp hsome)).symm
    · rw [if_neg hsome]
      exact iff_of_true (hshows last hmem hfinished) (.inl (Nat.eq_zero_of_not_pos hsome))

theorem showsLast_begin (props : UseMcapFramesOptions) (timestamp : ℚ) (h : Hook) :
    ShowsLast (h.begin .loadFrames props timestamp) := by
  intro last hlast hfinished
  rw [Hook.lastCall, Hook.length_begin, Nat.add_sub_cancel, Hook.getElem?_begin, if_pos rfl] at hlast
  cases hlast
  cases hfinished

theorem showsLast_step {a : Action} (hh : Seeking props h) (hshows : ShowsLast h) (ha : Seek props a)
    (hstep : step h a = some t) : ShowsLast t ↔ KeepsLast h a := by
  cases step_sound hstep with
  | render => cases ha
  | preload => cases ha
  | preloadNone => cases ha
  | unmount => cases ha
  | failed => cases ha
  | loadNone => exact iff_of_true hshows trivial
  | load props' timestamp => exact iff_of_true (showsLast_begin _ _ _) trivial
  | fetched hr hc => exact iff_of_true (hshows.setCall hc rfl rfl rfl ⟨rfl, rfl, rfl⟩) trivial
  | remove hc => exact iff_of_true (hshows.setCall hc rfl rfl rfl ⟨rfl, rfl, rfl⟩) trivial
  | race hc => exact iff_of_true (hshows.setCall hc rfl rfl rfl ⟨rfl, rfl, rfl⟩) trivial
  | all hc => exact iff_of_true (hshows.setCall hc rfl rfl rfl ⟨rfl, rfl, rfl⟩) trivial
  | publish hc hreturned hrunning => exact showsLast_publish hh hshows hc hreturned hrunning
  | @finish i c hc _ _ hpreload =>
    rw [(hh.calls i c hc).callback] at hpreload
    cases hpreload

theorem last_seek_wins (props : UseMcapFramesOptions) (as : List Action) (u : Hook) (hseek : ∀ a ∈ as, Seek props a)
    (hrun : run step (Hook.mount props) as = some u) :
    ((∀ before t, before <+: as → run step (Hook.mount props) before = some t → ShowsLast t) ↔
      Along step KeepsLast (Hook.mount props) as) ∧
    (Along step KeepsLast (Hook.mount props) as → ∀ before t, before <+: as →
      run step (Hook.mount props) before = some t → (∀ c ∈ t.calls, c.finished) →
      ∀ last ∈ t.calls.getLast?, last.ShownBy t.frames) := by
  have hiff : (∀ before t, before <+: as → run step (Hook.mount props) before = some t → ShowsLast t) ↔
      Along step KeepsLast (Hook.mount props) as :=
    reached_iff_along_within (Seeking props) (fun _ _ _ hh _ ha _ hstep => seeking_step hh ha hstep)
      (fun _ _ _ => showsLast_step) ⟨Hook.fits_mount props, rfl, nofun⟩ nofun hseek hrun
  refine ⟨hiff, fun halong before t hbefore ht hfinished last hlast => ?_⟩
  have hmem : last ∈ t.calls := List.mem_of_getLast? hlast
  rw [List.getLast?_eq_getElem?] at hlast
  exact hiff.mpr halong before t hbefore ht last hlast (hfinished last hmem)

def twoSeeks : List Action := [.loadFrames (front "ep-1") 0, .loadFrames (front "ep-1") 1000000000]

def completes (i : ℕ) : List Action := [.settle i 0 true, .remove i 0, .resume i, .finish i]

theorem last_seek_wins_inOrder :
    ∃ t, run step (Hook.mount (front "ep-1")) (twoSeeks ++ completes 0 ++ completes 1) = some t ∧
      ∀ last ∈ t.calls.getLast?, last.ShownBy t.frames := by
  have hrun : (run step (Hook.mount (front "ep-1")) (twoSeeks ++ completes 0 ++ completes 1)).any
      (fun t => ∀ c ∈ t.calls, c.finished) := by decide +kernel
  obtain ⟨t, ht, hfinished⟩ := (Option.any_eq_true _ _).mp hrun
  exact ⟨t, ht, (last_seek_wins (front "ep-1") _ t (by decide +kernel) ht).2 (by decide +kernel) _ t List.prefix_rfl ht
    (of_decide_eq_true hfinished)⟩

theorem stale_call_shown_last :
    ∃ t, run step (Hook.mount (front "ep-1")) (twoSeeks ++ completes 1 ++ completes 0) = some t ∧
      (∀ c ∈ t.calls, c.finished) ∧ ∃ last ∈ t.calls.getLast?, ¬ last.ShownBy t.frames := by
  have hrun : (run step (Hook.mount (front "ep-1")) (twoSeeks ++ completes 1 ++ completes 0)).any
      (fun t => (∀ c ∈ t.calls, c.finished) ∧ ∃ last ∈ t.calls.getLast?, "/cam" ∈ last.props.topics ∧
        ∃ blobUrl ∈ t.frames.get? "/cam", bucket blobUrl.options.timestamp ≠ bucket last.timestamp) := by
    decide +kernel
  obtain ⟨t, ht, hshown⟩ := (Option.any_eq_true _ _).mp hrun
  obtain ⟨hfinished, last, hlast, htopic, blobUrl, hurl, hbucket⟩ := of_decide_eq_true hshown
  refine ⟨t, ht, hfinished, last, hlast, fun hall => ?_⟩
  obtain ⟨blobUrl', hurl', hfor⟩ := hall "/cam" htopic
  rw [hurl, Option.some.injEq] at hurl'
  rw [hurl'] at hbucket
  exact hbucket hfor.bucket

end Embedai.McapFrames
