import Embedai.Decimal
import Embedai.ListSplits
import Embedai.McapFrames
import Embedai.TransitionSystems

namespace Embedai.McapFrames

open RunWithConcurrency TransitionSystems

theorem cacheKey_eq {topic topic' : String} {timestamp timestamp' : ℚ} :
    cacheKey topic timestamp = cacheKey topic' timestamp' ↔ topic = topic' ∧ bucket timestamp = bucket timestamp' := by
  constructor
  · intro h
    have hlist := congrArg String.toList h
    have hsplit : ∀ (s : String) (n : ℤ), (s ++ "_" ++ toString n).toList = s.toList ++ '_' :: (toString n).toList := by
      intro s n
      rw [String.toList_append, String.toList_append, List.append_assoc]
      rfl
    rw [cacheKey, cacheKey, hsplit, hsplit] at hlist
    obtain ⟨htopic, hbucket⟩ := ListSplits.append_cons_inj (Decimal.underscore_not_mem_toString _)
      (Decimal.underscore_not_mem_toString _) hlist
    exact ⟨String.toList_inj.mp htopic, Decimal.toString_int_injective (String.toList_inj.mp hbucket)⟩
  · rintro ⟨rfl, hbucket⟩
    rw [cacheKey, hbucket, cacheKey]

inductive Step (h : Hook) : Action → Hook → Prop
  | render (props) (hmounted : h.mounted) : Step h (.render props) { h with renders := props :: h.renders }
  | loadNone (props timestamp) (hnone : props.topics = []) : Step h (.loadFrames props timestamp) h
  | load (props timestamp) (hrender : props ∈ h.renders) (hsome : props.topics ≠ []) :
      Step h (.loadFrames props timestamp) (h.supersede.begin .loadFrames props timestamp)
  | preloadNone (props timestamp) (hnone : props.topics = []) : Step h (.preloadFrames props timestamp) h
  | preload (props timestamp) (hrender : props ∈ h.renders) (hsome : props.topics ≠ []) :
      Step h (.preloadFrames props timestamp) (h.begin .preloadFrames props timestamp)
  | fetched {r c} (hr : r ∈ h.requests) (hc : h.calls[r.call]? = some c)
      (hsignal : ∀ i, r.signal = some i → h.aborted i = false) : Step h (.settle r.call r.task true) (h.fetched r c)
  | failed {r c} (hr : r ∈ h.requests) (hc : h.calls[r.call]? = some c) :
      Step h (.settle r.call r.task false) (h.failed r c)
  | remove {i task c limiter} (hc : h.calls[i]? = some c) (hremove : c.limiter.remove task = some limiter) :
      Step h (.remove i task) (h.setCall i { c with limiter := limiter })
  | race {i c tasks} (hc : h.calls[i]? = some c) (hrace : c.limiter.awaits = .race tasks)
      (hwon : ∃ t ∈ tasks, t ∉ c.limiter.executing) :
      Step h (.resume i) (h.put i c
        (loop maxConcurrent (h.fetchTopic i c) c.limiter.rest (c.limiter, ⟨c.newFrames, h.requests⟩)))
  | all {i c tasks} (hc : h.calls[i]? = some c) (hall : c.limiter.awaits = .all tasks)
      (hdone : ∀ t ∈ tasks, t ∉ c.limiter.executing) :
      Step h (.resume i) (h.setCall i { c with limiter := { c.limiter with awaits := .returned } })
  | publish {i c} (hc : h.calls[i]? = some c) (hreturned : c.limiter.awaits = .returned) (hrunning : c.finished = false)
      (hload : c.callback = .loadFrames) : Step h (.finish i) ((h.setCall i { c with finished := true }).publish c)
  | finish {i c} (hc : h.calls[i]? = some c) (hreturned : c.limiter.awaits = .returned) (hrunning : c.finished = false)
      (hpreload : c.callback = .preloadFrames) : Step h (.finish i) (h.setCall i { c with finished := true })
  | unmount (hmounted : h.mounted) : Step h .unmount { h with mounted := false, revoked := h.cache.values }

theorem step_sound {h t : Hook} {a : Action} (hstep : step h a = some t) : Step h a t := by
  cases a with
  | render props =>
    simp only [step, Option.ite_none_right_eq_some, Option.some.injEq] at hstep
    obtain ⟨hmounted, rfl⟩ := hstep
    exact .render props hmounted
  | loadFrames props timestamp =>
    simp only [step, Option.ite_none_right_eq_some, Option.some.injEq] at hstep
    obtain ⟨hrender, rfl⟩ := hstep
    by_cases hnone : props.topics = []
    · rw [Hook.loadFrames, if_pos hnone]
      exact .loadNone props timestamp hnone
    · rw [Hook.loadFrames, if_neg hnone]
      exact .load props timestamp hrender hnone
  | preloadFrames props timestamp =>
    simp only [step, Option.ite_none_right_eq_some, Option.some.injEq] at hstep
    obtain ⟨hrender, rfl⟩ := hstep
    by_cases hnone : props.topics = []
    · rw [Hook.preloadFrames, if_pos hnone]
      exact .preloadNone props timestamp hnone
    · rw [Hook.preloadFrames, if_neg hnone]
      exact .preload props timestamp hrender hnone
  | settle i task succeeds =>
    simp only [step, Hook.settle, bind, Option.bind_eq_some_iff] at hstep
    obtain ⟨r, hr, c, hc, hstep⟩ := hstep
    have hmem : r ∈ h.requests := List.mem_of_find?_eq_some hr
    obtain ⟨rfl, rfl⟩ : r.call = i ∧ r.task = task := by simpa using List.find?_some hr
    cases succeeds with
    | true =>
      rw [if_pos rfl, Option.ite_none_left_eq_some] at hstep
      obtain ⟨hsignal, hstep⟩ := hstep
      cases hstep
      refine .fetched hmem hc fun i hi => ?_
      rw [hi] at hsignal
      simpa using hsignal
    | false =>
      cases hstep
      exact .failed hmem hc
  | remove i task =>
    simp only [step, Hook.remove, bind, Option.bind_eq_some_iff, Option.pure_def, Option.some.injEq] at hstep
    obtain ⟨c, hc, limiter, hremove, rfl⟩ := hstep
    exact .remove hc hremove
  | resume i =>
    simp only [step, Hook.resume, bind, Option.bind_eq_some_iff, Option.pure_def, Option.some.injEq] at hstep
    obtain ⟨c, hc, p, hresume, rfl⟩ := hstep
    rcases resume_eq_some.mp hresume with ⟨tasks, hrace, hwon, rfl⟩ | ⟨tasks, hall, hdone, rfl⟩
    · exact .race hc hrace hwon
    · exact .all hc hall hdone
  | finish i =>
    simp only [step, Hook.finish, bind, Option.bind_eq_some_iff, Option.ite_none_right_eq_some,
      Bool.not_eq_true] at hstep
    obtain ⟨c, hc, ⟨hreturned, hrunning⟩, hstep⟩ := hstep
    split at hstep
    · rename_i hcallback
      cases hstep
      exact .publish hc hreturned hrunning hcallback
    · rename_i hcallback
      cases hstep
      exact .finish hc hreturned hrunning hcallback
  | unmount =>
    simp only [step, Option.ite_none_right_eq_some, Option.some.injEq] at hstep
    obtain ⟨hmounted, rfl⟩ := hstep
    exact .unmount hmounted

section Fetching

variable {h : Hook} {i : ℕ} {c : Call}

theorem fetchTopic_cases (h : Hook) (i : ℕ) (c : Call) (task : ℕ) (topic : String) (f : Fetch) :
    (h.fetchTopic i c task topic f = (false, f) ∧ (c.callback = .loadFrames → c.aborted = true)) ∨
    (∃ blobUrl, c.callback = .loadFrames ∧ c.aborted = false ∧
      h.cache.get? (cacheKey topic c.timestamp) = some blobUrl ∧
      h.fetchTopic i c task topic f = (false, { f with newFrames := f.newFrames.set topic blobUrl })) ∨
    (∃ signal, h.fetchTopic i c task topic f = (true, { f with
      requests := f.requests ++ [⟨i, task, c.props.episodeId, ⟨topic, c.timestamp⟩, signal⟩] })) := by
  unfold Hook.fetchTopic
  cases hcallback : c.callback with
  | loadFrames =>
    dsimp only [Hook.loadTopic]
    cases haborted : c.aborted with
    | true => exact .inl ⟨rfl, fun _ => rfl⟩
    | false =>
      cases hcached : h.cache.get? (cacheKey topic c.timestamp) with
      | none => exact .inr (.inr ⟨none, rfl⟩)
      | some blobUrl => exact .inr (.inl ⟨blobUrl, rfl, rfl, rfl, rfl⟩)
  | preloadFrames =>
    dsimp only [Hook.preloadTopic]
    cases hcached : h.cache.get? (cacheKey topic c.timestamp) with
    | none => exact .inr (.inr ⟨h.abortController, rfl⟩)
    | some blobUrl => exact .inl ⟨rfl, nofun⟩

structure FrameRequest.MadeBy (r : FrameRequest) (c : Call) (called : List String) : Prop where
  episodeId : r.episodeId = c.props.episodeId
  timestamp : r.options.timestamp = c.timestamp
  topic : called[r.task]? = some r.options.topic

theorem FrameRequest.MadeBy.append {r : FrameRequest} {called : List String} (hr : r.MadeBy c called)
    (more : List String) : r.MadeBy c (called ++ more) := by
  refine ⟨hr.episodeId, hr.timestamp, ?_⟩
  rw [List.getElem?_append_left (List.getElem?_eq_some_iff.mp hr.topic).1]
  exact hr.topic

structure Fetching (h : Hook) (i : ℕ) (c : Call) (items : List String) (p q : Limiter String × Fetch) : Prop where
  called : ∃ done, q.1.called = p.1.called ++ done
  requests : ∀ r ∈ q.2.requests, r ∈ p.2.requests ∨ (r.call = i ∧ r.MadeBy c q.1.called)
  newFrames : ∀ topic blobUrl, q.2.newFrames.get? topic = some blobUrl → p.2.newFrames.get? topic = some blobUrl ∨
    (c.callback = .loadFrames ∧ c.aborted = false ∧ topic ∈ items ∧
      h.cache.get? (cacheKey topic c.timestamp) = some blobUrl)

theorem Fetching.visit {items : List String} {p q : Limiter String × Fetch} {item : String}
    (hq : Fetching h i c items p q) (hitem : item ∈ items) :
    Fetching h i c items p (visit (h.fetchTopic i c) item q) := by
  have hcalled : ∃ done, q.1.called ++ [item] = p.1.called ++ done := by
    obtain ⟨done, hdone⟩ := hq.called
    exact ⟨done ++ [item], by rw [hdone, List.append_assoc]⟩
  have hrequests : ∀ r ∈ q.2.requests, r ∈ p.2.requests ∨ (r.call = i ∧ r.MadeBy c (q.1.called ++ [item])) :=
    fun r hr => (hq.requests r hr).imp_right fun hmade => ⟨hmade.1, hmade.2.append [item]⟩
  rcases fetchTopic_cases h i c q.1.called.length item q.2 with ⟨he, -⟩ | ⟨blobUrl, hload, haborted, hcached, he⟩ |
    ⟨signal, he⟩
  · rw [RunWithConcurrency.visit, he]
    exact ⟨hcalled, hrequests, hq.newFrames⟩
  · rw [RunWithConcurrency.visit, he]
    refine ⟨hcalled, hrequests, fun topic url hurl => ?_⟩
    change (q.2.newFrames.set item blobUrl).get? topic = some url at hurl
    rw [OrderedDict.get?_set] at hurl
    split_ifs at hurl with htopic
    · cases hurl
      rw [htopic]
      exact .inr ⟨hload, haborted, hitem, hcached⟩
    · exact hq.newFrames topic url hurl
  · rw [RunWithConcurrency.visit, he]
    refine ⟨hcalled, fun r hr => ?_, hq.newFrames⟩
    rcases List.mem_append.mp hr with hr | hr
    · exact hrequests r hr
    · cases List.mem_singleton.mp hr
      exact .inr ⟨rfl, rfl, rfl, List.getElem?_concat_length⟩

theorem fetching_visits (items : List String) (p : Limiter String × Fetch) :
    Fetching h i c items p (visits (h.fetchTopic i c) items p) := by
  apply visits_induction (Fetching h i c items p)
  · exact ⟨⟨[], (List.append_nil _).symm⟩, fun r hr => .inl hr, fun _ _ hurl => .inl hurl⟩
  · exact fun item hitem q hq => hq.visit hitem

end Fetching

def Call.opened (c : Call) : List String := c.limiter.rest.take (maxConcurrent - c.limiter.executing.length)

structure BlobUrl.IsFor (blobUrl : BlobUrl) (topic : String) (timestamp : ℚ) : Prop where
  topic : blobUrl.options.topic = topic
  bucket : bucket blobUrl.options.timestamp = bucket timestamp

structure Call.Fits (c : Call) : Prop where
  limiter : c.limiter.WellFormed maxConcurrent
  topics : c.limiter.called ++ c.limiter.rest = c.props.topics
  newFrames : ∀ topic blobUrl, c.newFrames.get? topic = some blobUrl → blobUrl.IsFor topic c.timestamp

structure Hook.Fits (h : Hook) : Prop where
  calls : ∀ (i : ℕ) (c : Call), h.calls[i]? = some c → c.Fits
  requests : ∀ r ∈ h.requests, ∃ c, h.calls[r.call]? = some c ∧ r.MadeBy c c.limiter.called
  cache : ∀ key blobUrl, h.cache.get? key = some blobUrl →
    cacheKey blobUrl.options.topic blobUrl.options.timestamp = key

namespace Hook

variable {h t : Hook} {i j : ℕ} {c c' : Call}

theorem getElem?_setCall (hc : h.calls[i]? = some c) (c' : Call) (j : ℕ) :
    (h.setCall i c').calls[j]? = if j = i then some c' else h.calls[j]? := by
  have hi : i < h.calls.length := (List.getElem?_eq_some_iff.mp hc).1
  rw [setCall, List.getElem?_set]
  by_cases hj : i = j
  · rw [if_pos hj, if_pos hi, if_pos hj.symm]
  · rw [if_neg hj, if_neg (Ne.symm hj)]

theorem forall_setCall {P : ℕ → Call → Prop} (hc : h.calls[i]? = some c)
    (hothers : ∀ (j : ℕ) (d : Call), j ≠ i → h.calls[j]? = some d → P j d) (hc' : P i c') :
    ∀ (j : ℕ) (d : Call), (h.setCall i c').calls[j]? = some d → P j d := by
  intro j d hd
  rw [getElem?_setCall hc] at hd
  split_ifs at hd with hj
  · cases hd
    rw [hj]
    exact hc'
  · exact hothers j d hj hd

def started (callback : Callback) (props : UseMcapFramesOptions) (timestamp : ℚ) (h : Hook) : Call :=
  let c : Call := ⟨callback, props, timestamp, false, .start, .empty, false⟩
  let p := loop maxConcurrent (h.fetchTopic h.calls.length c) props.topics (.start, ⟨.empty, h.requests⟩)
  { c with limiter := p.1, newFrames := p.2.newFrames }

theorem getElem?_begin (callback : Callback) (props : UseMcapFramesOptions) (timestamp : ℚ) (h : Hook) (j : ℕ) :
    (h.begin callback props timestamp).calls[j]? =
      if j = h.calls.length then some (h.started callback props timestamp) else h.calls[j]? := by
  let c : Call := ⟨callback, props, timestamp, false, .start, .empty, false⟩
  have hc : (h.calls ++ [c])[h.calls.length]? = some c := List.getElem?_concat_length
  have hset := getElem?_setCall (h := { h with calls := h.calls ++ [c] }) hc (h.started callback props timestamp) j
  rw [ListSplits.getElem?_concat] at hset
  apply Eq.trans hset
  split_ifs <;> rfl

theorem length_setCall (i : ℕ) (c : Call) (h : Hook) : (h.setCall i c).calls.length = h.calls.length :=
  List.length_set

theorem length_begin (callback : Callback) (props : UseMcapFramesOptions) (timestamp : ℚ) (h : Hook) :
    (h.begin callback props timestamp).calls.length = h.calls.length + 1 :=
  List.length_set.trans List.length_append

theorem forall_begin {P : ℕ → Call → Prop} {callback : Callback} {props : UseMcapFramesOptions} {timestamp : ℚ}
    (hold : ∀ (j : ℕ) (d : Call), h.calls[j]? = some d → P j d)
    (hnew : P h.calls.length (h.started callback props timestamp)) :
    ∀ (j : ℕ) (d : Call), (h.begin callback props timestamp).calls[j]? = some d → P j d := by
  intro j d hd
  rw [getElem?_begin] at hd
  split_ifs at hd with hj
  · cases hd
    rw [hj]
    exact hnew
  · exact hold j d hd

theorem fits_mount (props : UseMcapFramesOptions) : (mount props).Fits :=
  ⟨nofun, nofun, nofun⟩

theorem Fits.setCall (hh : h.Fits) (hc : h.calls[i]? = some c) (hcalls : t.calls = (h.setCall i c').calls)
    (hrequests : ∀ r ∈ t.requests, r ∈ h.requests) (hcache : t.cache = h.cache) (hfits : c'.Fits)
    (hprops : c'.props = c.props) (htimestamp : c'.timestamp = c.timestamp)
    (hcalled : c'.limiter.called = c.limiter.called) : t.Fits := by
  refine ⟨?_, fun r hr => ?_, fun key blobUrl hurl => ?_⟩
  · rw [hcalls]
    exact forall_setCall hc (fun j d _ => hh.calls j d) hfits
  · obtain ⟨d, hd, hmade⟩ := hh.requests r (hrequests r hr)
    rw [hcalls, getElem?_setCall hc]
    split_ifs with hcall
    · rw [hcall, hc, Option.some.injEq] at hd
      subst hd
      refine ⟨c', rfl, ?_, ?_, ?_⟩
      · rw [hprops]
        exact hmade.episodeId
      · rw [htimestamp]
        exact hmade.timestamp
      · rw [hcalled]
        exact hmade.topic
    · exact ⟨d, hd, hmade⟩
  · rw [hcache] at hurl
    exact hh.cache key blobUrl hurl

theorem Fits.congr (hh : h.Fits) (hcalls : t.calls = h.calls) (hrequests : t.requests = h.requests)
    (hcache : t.cache = h.cache) : t.Fits := by
  refine ⟨?_, ?_, ?_⟩
  · rw [hcalls]
    exact hh.calls
  · rw [hrequests, hcalls]
    exact hh.requests
  · rw [hcache]
    exact hh.cache

theorem Fits.put {items : List String} (hc : h.calls[i]? = some c)
    (hothers : ∀ (j : ℕ) (d : Call), j ≠ i → h.calls[j]? = some d → d.Fits)
    (hrequests : ∀ r ∈ h.requests, ∃ d, h.calls[r.call]? = some d ∧ r.MadeBy d d.limiter.called)
    (hcache : ∀ key blobUrl, h.cache.get? key = some blobUrl →
      cacheKey blobUrl.options.topic blobUrl.options.timestamp = key)
    (hready : c.limiter.Ready) (hroom : c.limiter.executing.length < maxConcurrent)
    (htopics : c.limiter.called ++ items = c.props.topics)
    (hnewFrames : ∀ topic blobUrl, c.newFrames.get? topic = some blobUrl → blobUrl.IsFor topic c.timestamp) :
    (h.put i c (loop maxConcurrent (h.fetchTopic i c) items (c.limiter, ⟨c.newFrames, h.requests⟩))).Fits := by
  have hlimiter : (loop maxConcurrent (h.fetchTopic i c) items
      (c.limiter, ⟨c.newFrames, h.requests⟩)).1.WellFormed maxConcurrent := Limiter.Ready.loop hready hroom
  obtain ⟨awaits, he⟩ := exists_visits_loop (h.fetchTopic i c) items (p := (c.limiter, ⟨c.newFrames, h.requests⟩)) hroom
  rw [he] at hlimiter ⊢
  have hfetching := fetching_visits (h := h) (i := i) (c := c)
    (items.take (maxConcurrent - c.limiter.executing.length)) (c.limiter, ⟨c.newFrames, h.requests⟩)
  have hcalled := called_visits (h.fetchTopic i c) (items.take (maxConcurrent - c.limiter.executing.length))
    (c.limiter, ⟨c.newFrames, h.requests⟩)
  generalize hq : visits (h.fetchTopic i c) (items.take (maxConcurrent - c.limiter.executing.length))
    (c.limiter, ⟨c.newFrames, h.requests⟩) = q at *
  refine ⟨?_, fun r hr => ?_, hcache⟩
  · apply forall_setCall hc hothers
    refine ⟨hlimiter, ?_, fun topic blobUrl hurl => ?_⟩
    · change q.1.called ++ items.drop (maxConcurrent - c.limiter.executing.length) = c.props.topics
      rw [hcalled, List.append_assoc, List.take_append_drop]
      exact htopics
    · rcases hfetching.newFrames topic blobUrl hurl with hold | ⟨-, -, -, hcached⟩
      · exact hnewFrames topic blobUrl hold
      · obtain ⟨htopic, hbucket⟩ := cacheKey_eq.mp (hcache _ blobUrl hcached)
        exact ⟨htopic, hbucket⟩
  · suffices hcall : ∃ d, (if r.call = i then
        some { c with limiter := q.1.wait _ awaits, newFrames := q.2.newFrames } else h.calls[r.call]?) = some d ∧
        r.MadeBy d d.limiter.called by
      obtain ⟨d, hd, hmade⟩ := hcall
      exact ⟨d, (getElem?_setCall hc _ r.call).trans hd, hmade⟩
    rcases hfetching.requests r hr with hold | ⟨hcall, hmade⟩
    · obtain ⟨d, hd, hmade⟩ := hrequests r hold
      split_ifs with hcall
      · rw [hcall, hc, Option.some.injEq] at hd
        subst hd
        refine ⟨_, rfl, hmade.episodeId, hmade.timestamp, ?_⟩
        change q.1.called[r.task]? = some r.options.topic
        rw [hcalled]
        exact (hmade.append _).topic
      · exact ⟨d, hd, hmade⟩
    · rw [if_pos hcall]
      exact ⟨_, rfl, hmade.episodeId, hmade.timestamp, hmade.topic⟩

theorem Fits.begin (hh : h.Fits) (callback : Callback) (props : UseMcapFramesOptions) (timestamp : ℚ) :
    (h.begin callback props timestamp).Fits := by
  let c : Call := ⟨callback, props, timestamp, false, .start, .empty, false⟩
  have hc : (h.calls ++ [c])[h.calls.length]? = some c := List.getElem?_concat_length
  refine Fits.put (h := { h with calls := h.calls ++ [c] }) hc (fun j d hj hd => ?_) (fun r hr => ?_) hh.cache .start
    Nat.zero_lt_two rfl nofun
  · have hd' := (ListSplits.getElem?_concat h.calls c j).symm.trans hd
    rw [if_neg hj] at hd'
    exact hh.calls j d hd'
  · obtain ⟨d, hd, hmade⟩ := hh.requests r hr
    exact ⟨d, (List.getElem?_append_left (List.getElem?_eq_some_iff.mp hd).1).trans hd, hmade⟩

theorem setIsLoading_eq (isLoading : Bool) (h : Hook) :
    ∃ isLoading', h.setIsLoading isLoading = { h with isLoading := isLoading' } := by
  unfold setIsLoading
  split
  · exact ⟨_, rfl⟩
  · exact ⟨h.isLoading, rfl⟩

theorem publish_eq (c : Call) (h : Hook) :
    ∃ frames isLoading, h.publish c = { h with frames := frames, isLoading := isLoading } := by
  obtain ⟨frames, hframes⟩ : ∃ frames, (if 0 < c.newFrames.length then h.setFrames c.newFrames else h) =
      { h with frames := frames } := by
    unfold setFrames
    split_ifs
    · exact ⟨_, rfl⟩
    · exact ⟨h.frames, rfl⟩
    · exact ⟨h.frames, rfl⟩
  dsimp only [publish]
  rw [hframes]
  split
  · exact ⟨frames, h.isLoading, rfl⟩
  · obtain ⟨isLoading, hloading⟩ := setIsLoading_eq false { h with frames := frames }
    exact ⟨frames, isLoading, hloading⟩

theorem publish_frames (hmounted : h.mounted) (c : Call) :
    (h.publish c).frames = if 0 < c.newFrames.length then c.newFrames else h.frames := by
  have hframes : h.setFrames c.newFrames = { h with frames := c.newFrames } := if_pos hmounted
  have hloading : ∀ g : Hook, (g.setIsLoading false).frames = g.frames := by
    intro g
    obtain ⟨isLoading, he⟩ := setIsLoading_eq false g
    rw [he]
  dsimp only [publish]
  rw [hframes]
  split_ifs <;> first | rfl | exact hloading _

theorem supersede_eq (h : Hook) : ∃ calls isLoading,
    h.supersede = { h with
      calls := calls
      isLoading := isLoading
      abortController := some h.calls.length } ∧
    calls.length = h.calls.length ∧ ∀ (j : ℕ) (d : Call), calls[j]? = some d →
      ∃ c, h.calls[j]? = some c ∧ (d = c ∨ d = { c with aborted := true }) := by
  obtain ⟨isLoading, hloading⟩ := setIsLoading_eq true { h.abort with abortController := some h.calls.length }
  rw [supersede, hloading]
  unfold abort
  cases h.abortController with
  | none => exact ⟨h.calls, isLoading, rfl, rfl, fun j d hd => ⟨d, hd, .inl rfl⟩⟩
  | some i =>
    refine ⟨h.calls.modify i fun c => { c with aborted := true }, isLoading, rfl, List.length_modify .., ?_⟩
    intro j d hd
    rw [List.getElem?_modify] at hd
    obtain ⟨c, hc, rfl⟩ := Option.map_eq_some_iff.mp hd
    refine ⟨c, hc, ?_⟩
    split
    · exact .inr rfl
    · exact .inl rfl

theorem getElem?_supersede (h : Hook) (i : ℕ) :
    h.supersede.calls[i]? =
      if h.abortController = some i then h.calls[i]?.map (fun c => { c with aborted := true }) else h.calls[i]? := by
  have hcalls : h.supersede.calls = h.abort.calls := by
    unfold supersede setIsLoading
    split <;> rfl
  rw [hcalls, abort]
  cases h.abortController with
  | none => rfl
  | some j =>
    dsimp only
    rw [List.getElem?_modify]
    by_cases hj : j = i
    · simp [hj]
    · simp [hj]

theorem Fits.supersede (hh : h.Fits) : h.supersede.Fits := by
  obtain ⟨calls, isLoading, he, hlength, hcalls⟩ := h.supersede_eq
  rw [he]
  refine ⟨fun j d hd => ?_, fun r hr => ?_, hh.cache⟩
  · obtain ⟨c, hc, rfl | rfl⟩ := hcalls j d hd
    · exact hh.calls j d hc
    · have hfits := hh.calls j c hc
      exact ⟨hfits.limiter, hfits.topics, hfits.newFrames⟩
  · obtain ⟨c, hc, hmade⟩ := hh.requests r hr
    have hlt : r.call < calls.length := hlength ▸ (List.getElem?_eq_some_iff.mp hc).1
    have hd : calls[r.call]? = some calls[r.call] := List.getElem?_eq_getElem hlt
    refine ⟨_, hd, ?_⟩
    obtain ⟨c', hc', hsame⟩ := hcalls _ _ hd
    rw [hc, Option.some.injEq] at hc'
    subst hc'
    rcases hsame with hsame | hsame
    · rw [hsame]
      exact hmade
    · rw [hsame]
      exact ⟨hmade.episodeId, hmade.timestamp, hmade.topic⟩

theorem Fits.fetched (hh : h.Fits) {r : FrameRequest} (hr : r ∈ h.requests) (hc : h.calls[r.call]? = some c) :
    (h.fetched r c).Fits := by
  obtain ⟨d, hd, hmade⟩ := hh.requests r hr
  rw [hc, Option.some.injEq] at hd
  subst hd
  have hfits := hh.calls r.call c hc
  let blobUrl : BlobUrl := ⟨h.created.length, r.episodeId, r.options⟩
  let cache := h.cache.set (cacheKey r.options.topic r.options.timestamp) blobUrl
  have hset : ({ h with cache := cache } : Hook).Fits := by
    refine ⟨hh.calls, hh.requests, fun key blobUrl hurl => ?_⟩
    change (h.cache.set _ _).get? key = some blobUrl at hurl
    rw [OrderedDict.get?_set] at hurl
    split_ifs at hurl with hkey
    · cases hurl
      exact hkey.symm
    · exact hh.cache key blobUrl hurl
  refine Fits.setCall (i := r.call) (c := c) hset hc rfl (fun _ hmem => List.mem_of_mem_erase hmem) rfl ⟨?_, ?_, ?_⟩
    rfl rfl rfl
  · exact hfits.limiter.settle r.task
  · exact hfits.topics
  · intro topic blobUrl hurl
    cases hcallback : c.callback with
    | preloadFrames =>
      rw [hcallback] at hurl
      exact hfits.newFrames topic blobUrl hurl
    | loadFrames =>
      rw [hcallback] at hurl
      change (c.newFrames.set _ _).get? topic = some blobUrl at hurl
      rw [OrderedDict.get?_set] at hurl
      split_ifs at hurl with htopic
      · cases hurl
        refine ⟨htopic.symm, ?_⟩
        rw [← hmade.timestamp]
      · exact hfits.newFrames topic blobUrl hurl

end Hook

theorem fits_step {h t : Hook} {a : Action} (hh : h.Fits) (hstep : step h a = some t) : t.Fits := by
  cases step_sound hstep with
  | render props => exact hh.congr rfl rfl rfl
  | loadNone => exact hh
  | load props timestamp => exact hh.supersede.begin ..
  | preloadNone => exact hh
  | preload props timestamp => exact hh.begin ..
  | fetched hr hc => exact hh.fetched hr hc
  | @failed r c hr hc =>
    have hfits := hh.calls r.call c hc
    refine hh.setCall hc rfl (fun _ hmem => List.mem_of_mem_erase hmem) rfl ?_ rfl rfl rfl
    exact ⟨hfits.limiter.settle r.task, hfits.topics, hfits.newFrames⟩
  | @remove i task c limiter hc hremove =>
    have hfits := hh.calls i c hc
    have hsame : limiter.called = c.limiter.called ∧ limiter.rest = c.limiter.rest := by
      rw [Limiter.remove, Option.ite_none_right_eq_some] at hremove
      cases hremove.2
      exact ⟨rfl, rfl⟩
    refine hh.setCall hc rfl (fun _ hmem => hmem) rfl ⟨hfits.limiter.remove hremove, ?_, hfits.newFrames⟩ rfl rfl
      hsame.1
    rw [hsame.1, hsame.2]
    exact hfits.topics
  | @race i c tasks hc hrace hwon =>
    have hfits := hh.calls i c hc
    exact Hook.Fits.put hc (fun j d _ hd => hh.calls j d hd) hh.requests hh.cache hfits.limiter.ready
      (hfits.limiter.length_executing_lt hrace hwon) hfits.topics hfits.newFrames
  | @all i c tasks hc hall hdone =>
    have hfits := hh.calls i c hc
    refine hh.setCall hc rfl (fun _ hmem => hmem) rfl ?_ rfl rfl rfl
    exact ⟨hfits.limiter.returns hall hdone, hfits.topics, hfits.newFrames⟩
  | @publish i c hc =>
    have hfits := hh.calls i c hc
    obtain ⟨frames, isLoading, he⟩ := (h.setCall i { c with finished := true }).publish_eq c
    rw [he]
    exact hh.setCall hc rfl (fun _ hmem => hmem) rfl ⟨hfits.limiter, hfits.topics, hfits.newFrames⟩ rfl rfl rfl
  | @finish i c hc =>
    have hfits := hh.calls i c hc
    exact hh.setCall hc rfl (fun _ hmem => hmem) rfl ⟨hfits.limiter, hfits.topics, hfits.newFrames⟩ rfl rfl rfl
  | unmount => exact hh.congr rfl rfl rfl

structure Call.Follows (c d : Call) : Prop where
  callback : d.callback = c.callback
  props : d.props = c.props
  timestamp : d.timestamp = c.timestamp

inductive Action.Starts : Action → Call → Prop
  | load {d : Call} (hd : d.callback = .loadFrames) : Starts (.loadFrames d.props d.timestamp) d
  | preload {d : Call} (hd : d.callback = .preloadFrames) : Starts (.preloadFrames d.props d.timestamp) d

theorem follows_step {h t : Hook} {a : Action} (hstep : step h a = some t) :
    ∀ (j : ℕ) (d : Call), t.calls[j]? = some d → (∃ c, h.calls[j]? = some c ∧ c.Follows d) ∨ a.Starts d := by
  have hsame (j : ℕ) (d : Call) (hd : h.calls[j]? = some d) : (∃ c, h.calls[j]? = some c ∧ c.Follows d) ∨ a.Starts d :=
    .inl ⟨d, hd, rfl, rfl, rfl⟩
  have hset {i : ℕ} {c c' : Call} (hc : h.calls[i]? = some c) (hfollows : c.Follows c') (j : ℕ) (d : Call) :
      (h.setCall i c').calls[j]? = some d → (∃ c, h.calls[j]? = some c ∧ c.Follows d) ∨ a.Starts d :=
    Hook.forall_setCall hc (fun j d _ => hsame j d) (.inl ⟨c, hc, hfollows⟩) j d
  cases step_sound hstep with
  | load props timestamp =>
    obtain ⟨calls, isLoading, he, -, hcalls⟩ := h.supersede_eq
    refine Hook.forall_begin (fun j d hd => ?_) (.inr (Action.Starts.load (d := h.supersede.started ..) rfl))
    rw [he] at hd
    obtain ⟨c, hc, rfl | rfl⟩ := hcalls j d hd
    · exact hsame j d hc
    · exact .inl ⟨c, hc, rfl, rfl, rfl⟩
  | preload props timestamp =>
    exact Hook.forall_begin hsame (.inr (Action.Starts.preload (d := h.started ..) rfl))
  | fetched hr hc => exact hset hc ⟨rfl, rfl, rfl⟩
  | failed hr hc => exact hset hc ⟨rfl, rfl, rfl⟩
  | remove hc => exact hset hc ⟨rfl, rfl, rfl⟩
  | race hc => exact hset hc ⟨rfl, rfl, rfl⟩
  | all hc => exact hset hc ⟨rfl, rfl, rfl⟩
  | publish hc =>
    obtain ⟨frames, isLoading, he⟩ := Hook.publish_eq _ _
    rw [he]
    exact hset hc ⟨rfl, rfl, rfl⟩
  | finish hc => exact hset hc ⟨rfl, rfl, rfl⟩
  | _ => exact hsame

def front (episodeId : String) : UseMcapFramesOptions := ⟨episodeId, ["/cam"]⟩

end Embedai.McapFrames
