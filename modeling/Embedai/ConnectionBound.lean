import Mathlib.Algebra.BigOperators.Group.Finset.Piecewise
import Mathlib.Algebra.Order.BigOperators.Group.Finset
import Embedai.McapFramesSteps

namespace Embedai.McapFrames

open RunWithConcurrency TransitionSystems

def uncached (h : Hook) (timestamp : ℚ) (topics : List String) : ℕ :=
  topics.countP fun topic => (h.cache.get? (cacheKey topic timestamp)).isNone

def inFlight (h : Hook) (i : ℕ) : ℕ := h.requests.countP fun r => r.call = i

/-- The hook, and how many topics of each call were not cached when it started. -/
structure Watched where
  hook : Hook
  topics : ℕ → ℕ

namespace Watched

def mount (props : UseMcapFramesOptions) : Watched := ⟨.mount props, fun _ => 0⟩

def noted (s : Watched) : Action → ℕ → ℕ
  | .loadFrames props timestamp =>
    Function.update s.topics s.hook.calls.length (uncached s.hook timestamp props.topics)
  | _ => s.topics

def step (s : Watched) (a : Action) : Option Watched := (McapFrames.step s.hook a).map fun t => ⟨t, s.noted a⟩

def slots (s : Watched) (i : ℕ) : ℕ := min maxConcurrent (s.topics i)

/-- The slots of the calls that still wait for a response. -/
def overlapping (s : Watched) : ℕ :=
  ∑ i ∈ Finset.range s.hook.calls.length, if 0 < inFlight s.hook i then s.slots i else 0

/-- A call that starts has, with the calls that it overlaps, slots for at most two calls. -/
def FewOverlap (s : Watched) : Action → Prop
  | .loadFrames props timestamp =>
    s.overlapping + min maxConcurrent (uncached s.hook timestamp props.topics) ≤ 2 * maxConcurrent
  | _ => True

instance (s : Watched) : DecidablePred s.FewOverlap
  | .loadFrames props timestamp => inferInstanceAs (Decidable
      (s.overlapping + min maxConcurrent (uncached s.hook timestamp props.topics) ≤ 2 * maxConcurrent))
  | .render _ | .preloadFrames .. | .settle .. | .remove .. | .resume _ | .finish _ | .unmount =>
    inferInstanceAs (Decidable True)

end Watched

section Requests

variable {h t : Hook} {i : ℕ} {c : Call} {p : Limiter String × Fetch}

theorem uncached_append (h : Hook) (timestamp : ℚ) (topics more : List String) :
    uncached h timestamp (topics ++ more) = uncached h timestamp topics + uncached h timestamp more :=
  List.countP_append

structure Adds (h : Hook) (i : ℕ) (c : Call) (items : List String) (p q : Limiter String × Fetch)
    (more : List FrameRequest) : Prop where
  requests : q.2.requests = p.2.requests ++ more
  call : ∀ r ∈ more, r.call = i
  pending : q.1.pending.length = p.1.pending.length + more.length
  length : more.length = if c.aborted then 0 else uncached h c.timestamp items

theorem exists_adds_visit (hload : c.callback = .loadFrames) (item : String) :
    ∃ more, Adds h i c [item] p (visit (h.fetchTopic i c) item p) more := by
  have hfetch : h.fetchTopic i c = h.loadTopic i c := by rw [Hook.fetchTopic, hload]
  rw [hfetch, visit, Hook.loadTopic]
  cases haborted : c.aborted with
  | true => exact ⟨[], (List.append_nil _).symm, fun r hr => absurd hr List.not_mem_nil, rfl, by simp [haborted]⟩
  | false =>
    cases hcached : h.cache.get? (cacheKey item c.timestamp) with
    | some blobUrl =>
      refine ⟨[], (List.append_nil _).symm, fun r hr => absurd hr List.not_mem_nil, rfl, ?_⟩
      simp [haborted, uncached, hcached]
    | none =>
      refine ⟨_, rfl, fun r hr => by rw [List.mem_singleton.mp hr], List.length_append, ?_⟩
      simp [haborted, uncached, hcached]

theorem exists_adds_visits (hload : c.callback = .loadFrames) (items : List String) :
    ∃ more, Adds h i c items p (visits (h.fetchTopic i c) items p) more := by
  induction items generalizing p with
  | nil =>
    refine ⟨[], (List.append_nil _).symm, fun r hr => absurd hr List.not_mem_nil, rfl, ?_⟩
    cases c.aborted <;> rfl
  | cons item items ih =>
    obtain ⟨first, hfirst⟩ := exists_adds_visit (h := h) (i := i) (p := p) hload item
    obtain ⟨more, hmore⟩ := ih (p := visit (h.fetchTopic i c) item p)
    refine ⟨first ++ more, ?_, fun r hr => ?_, ?_, ?_⟩
    · rw [visits_cons, hmore.requests, hfirst.requests, List.append_assoc]
    · rcases List.mem_append.mp hr with hr | hr
      · exact hfirst.call r hr
      · exact hmore.call r hr
    · rw [visits_cons, hmore.pending, hfirst.pending, List.length_append, Nat.add_assoc]
    · have hsplit := uncached_append h c.timestamp [item] items
      rw [List.singleton_append] at hsplit
      rw [List.length_append, hfirst.length, hmore.length, hsplit]
      cases c.aborted <;> rfl

theorem exists_adds_loop (hload : c.callback = .loadFrames) (items : List String)
    (hroom : p.1.executing.length < maxConcurrent) :
    ∃ more, Adds h i c (items.take (maxConcurrent - p.1.executing.length)) p
      (loop maxConcurrent (h.fetchTopic i c) items p) more ∧
      items.take (maxConcurrent - p.1.executing.length) ++ (loop maxConcurrent (h.fetchTopic i c) items p).1.rest =
        items := by
  obtain ⟨awaits, he⟩ := exists_visits_loop (h.fetchTopic i c) items hroom
  obtain ⟨more, hmore⟩ := exists_adds_visits (h := h) (i := i) (p := p) hload
    (items.take (maxConcurrent - p.1.executing.length))
  rw [he]
  exact ⟨more, ⟨hmore.requests, hmore.call, hmore.pending, hmore.length⟩, List.take_append_drop ..⟩

theorem inFlight_append {more : List FrameRequest} (hrequests : t.requests = h.requests ++ more)
    (hcall : ∀ r ∈ more, r.call = i) (j : ℕ) :
    inFlight t j = inFlight h j + if j = i then more.length else 0 := by
  rw [inFlight, hrequests, List.countP_append]
  congr 1
  split_ifs with hj
  · exact List.countP_eq_length.mpr fun r hr => decide_eq_true ((hcall r hr).trans hj.symm)
  · exact List.countP_eq_zero.mpr fun r hr he => hj ((of_decide_eq_true he).symm.trans (hcall r hr))

theorem length_eq_sum_inFlight (hfits : h.Fits) :
    h.requests.length = ∑ i ∈ Finset.range h.calls.length, inFlight h i := by
  have hcalls : ∀ r ∈ h.requests, r.call < h.calls.length := by
    intro r hr
    obtain ⟨c, hc, -⟩ := hfits.requests r hr
    exact (List.getElem?_eq_some_iff.mp hc).1
  unfold inFlight
  generalize h.requests = requests at hcalls
  induction requests with
  | nil => simp
  | cons r rs ih =>
    have hr := hcalls r (List.mem_cons_self ..)
    simp only [List.countP_cons, decide_eq_true_eq, Finset.sum_add_distrib, List.length_cons]
    rw [← ih fun r hr => hcalls r (List.mem_cons_of_mem _ hr), Finset.sum_ite_eq, if_pos (Finset.mem_range.mpr hr)]

end Requests

structure Call.Limited (h : Hook) (n i : ℕ) (c : Call) : Prop where
  callback : c.callback = .loadFrames
  pending : inFlight h i ≤ c.limiter.pending.length
  topics : inFlight h i ≤ n
  rest : c.aborted = false →
    h.abortController = some i ∧ inFlight h i + uncached h c.timestamp c.limiter.rest ≤ n

def Hook.IsOpen (h : Hook) (i : ℕ) : Prop := 0 < inFlight h i ∨ h.abortController = some i

instance (h : Hook) : DecidablePred h.IsOpen := fun i =>
  inferInstanceAs (Decidable (0 < inFlight h i ∨ h.abortController = some i))

structure Watching (s : Watched) : Prop where
  fits : s.hook.Fits
  calls : ∀ (i : ℕ) (c : Call), s.hook.calls[i]? = some c → c.Limited s.hook (s.topics i) i
  slots : (∑ i ∈ Finset.range s.hook.calls.length, if s.hook.IsOpen i then s.slots i else 0) ≤ 2 * maxConcurrent

section Steps

variable {s : Watched} {h t : Hook} {i : ℕ} {c : Call}

theorem inFlight_le_slots (hs : Watching s) (hc : s.hook.calls[i]? = some c) : inFlight s.hook i ≤ s.slots i := by
  have hlimited := hs.calls i c hc
  have hlimiter := (hs.fits.calls i c hc).limiter
  exact le_min (hlimited.pending.trans (hlimiter.pending.length_le.trans hlimiter.bound)) hlimited.topics

theorem length_le_slots (hs : Watching s) : s.hook.requests.length ≤ 2 * maxConcurrent := by
  rw [length_eq_sum_inFlight hs.fits]
  refine (Finset.sum_le_sum fun i hi => ?_).trans hs.slots
  have hc := List.getElem?_eq_getElem (Finset.mem_range.mp hi)
  split_ifs with hopen
  · exact inFlight_le_slots hs hc
  · exact Nat.not_lt.mp fun hpos => hopen (.inl hpos)

structure Calm (h t : Hook) : Prop where
  inFlight : ∀ i, inFlight t i ≤ inFlight h i
  cache : ∀ key, t.cache.get? key = none → h.cache.get? key = none
  controller : t.abortController = h.abortController
  length : t.calls.length = h.calls.length
  calls : ∀ (i : ℕ) (d : Call), t.calls[i]? = some d → ∃ c, h.calls[i]? = some c ∧ d.callback = c.callback ∧
    d.aborted = c.aborted ∧ d.timestamp = c.timestamp ∧ d.limiter.rest = c.limiter.rest ∧
    (McapFrames.inFlight h i ≤ c.limiter.pending.length → McapFrames.inFlight t i ≤ d.limiter.pending.length)

theorem uncached_mono (hcache : ∀ key, t.cache.get? key = none → h.cache.get? key = none) (timestamp : ℚ)
    (topics : List String) : uncached t timestamp topics ≤ uncached h timestamp topics := by
  refine List.countP_mono_left fun topic _ hnone => ?_
  rw [Option.isNone_iff_eq_none] at hnone ⊢
  exact hcache _ hnone

theorem sum_open_mono {s s' : Watched} {n : ℕ} (hslots : ∀ j < n, s'.slots j = s.slots j) (P Q : ℕ → Prop)
    [DecidablePred P] [DecidablePred Q] (hopen : ∀ j < n, P j → Q j) :
    (∑ j ∈ Finset.range n, if P j then s'.slots j else 0) ≤ ∑ j ∈ Finset.range n, if Q j then s.slots j else 0 := by
  refine Finset.sum_le_sum fun j hj => ?_
  have hlt := Finset.mem_range.mp hj
  by_cases hP : P j
  · rw [if_pos hP, if_pos (hopen j hlt hP), hslots j hlt]
  · rw [if_neg hP]
    exact Nat.zero_le _

theorem Watching.calm (hs : Watching s) (hfits : t.Fits) (h : Calm s.hook t) : Watching ⟨t, s.topics⟩ := by
  refine ⟨hfits, fun i d hd => ?_, ?_⟩
  · obtain ⟨c, hc, hcallback, haborted, htimestamp, hrest, hpending⟩ := h.calls i d hd
    have hlimited := hs.calls i c hc
    refine ⟨hcallback.trans hlimited.callback, hpending hlimited.pending, (h.inFlight i).trans hlimited.topics, ?_⟩
    intro hnot
    obtain ⟨hcontroller, htopics⟩ := hlimited.rest (haborted.symm.trans hnot)
    have hcached := uncached_mono h.cache d.timestamp d.limiter.rest
    rw [htimestamp, hrest] at hcached ⊢
    exact ⟨h.controller.trans hcontroller, (Nat.add_le_add (h.inFlight i) hcached).trans htopics⟩
  · refine le_trans ?_ hs.slots
    dsimp only
    rw [h.length]
    exact sum_open_mono (fun _ _ => rfl) _ _ fun i _ =>
      Or.imp (fun hpos => hpos.trans_le (h.inFlight i)) fun he => h.controller.symm.trans he

theorem Watching.put {items : List String} {q : Limiter String × Fetch} {more : List FrameRequest} (hs : Watching s)
    (hc : s.hook.calls[i]? = some c)
    (hadds : Adds s.hook i c items (c.limiter, ⟨c.newFrames, s.hook.requests⟩) q more)
    (hitems : items ++ q.1.rest = c.limiter.rest) (hfits : (s.hook.put i c q).Fits) :
    Watching ⟨s.hook.put i c q, s.topics⟩ := by
  have hlimited := hs.calls i c hc
  have hflight := inFlight_append (t := s.hook.put i c q) hadds.requests hadds.call
  have hself := hflight i
  rw [if_pos rfl] at hself
  have hlength := hadds.length
  have hsplit := uncached_append s.hook c.timestamp items q.1.rest
  rw [hitems] at hsplit
  refine ⟨hfits, Hook.forall_setCall hc (fun j d hj hd => ?_) ⟨hlimited.callback, ?_, ?_, fun hnot => ?_⟩,
    hs.slots.trans' ?_⟩
  · have hsame := hflight j
    rw [if_neg hj, Nat.add_zero] at hsame
    have hother := hs.calls j d hd
    refine ⟨hother.callback, hsame.trans_le hother.pending, hsame.trans_le hother.topics, fun hnot => ?_⟩
    obtain ⟨hcontroller, htopics⟩ := hother.rest hnot
    exact ⟨hcontroller, (Nat.add_le_add_right hsame.le _).trans htopics⟩
  · rw [hself]
    exact (Nat.add_le_add_right hlimited.pending _).trans_eq hadds.pending.symm
  · change _ ≤ s.topics i
    rw [hself, hlength]
    split_ifs with haborted
    · exact hlimited.topics
    · have htopics := (hlimited.rest (Bool.eq_false_iff.mpr haborted)).2
      omega
  · obtain ⟨hcontroller, htopics⟩ := hlimited.rest hnot
    refine ⟨hcontroller, ?_⟩
    change _ + uncached s.hook c.timestamp q.1.rest ≤ s.topics i
    rw [hself, hlength, if_neg (Bool.eq_false_iff.mp hnot)]
    omega
  · change (∑ j ∈ Finset.range (s.hook.setCall i _).calls.length, _) ≤ _
    rw [Hook.length_setCall]
    refine sum_open_mono (fun _ _ => rfl) _ _ fun j _ hopen => ?_
    rcases hopen with hpos | hcontroller
    · rw [hflight j] at hpos
      split_ifs at hpos with hj
      · -- only a call that is not superseded adds requests
        rw [hj]
        cases haborted : c.aborted with
        | true =>
          rw [hlength, haborted, if_pos rfl] at hpos
          exact .inl (hj ▸ hpos)
        | false => exact .inr (hlimited.rest haborted).1
      · exact .inl hpos
    · exact .inr hcontroller

theorem superseded (hs : Watching s) {j : ℕ} {d : Call} (hd : s.hook.supersede.calls[j]? = some d) :
    ∃ c, s.hook.calls[j]? = some c ∧ d.callback = c.callback ∧ d.limiter = c.limiter ∧ d.aborted = true := by
  rw [Hook.getElem?_supersede] at hd
  split_ifs at hd with hcontroller
  · obtain ⟨c, hc, rfl⟩ := Option.map_eq_some_iff.mp hd
    exact ⟨c, hc, rfl, rfl, rfl⟩
  · refine ⟨d, hd, rfl, rfl, ?_⟩
    cases haborted : d.aborted with
    | true => rfl
    | false => exact absurd ((hs.calls j d hd).rest haborted).1 hcontroller

structure Starts (h t : Hook) (props : UseMcapFramesOptions) (timestamp : ℚ) (c : Call) (more : List FrameRequest) :
    Prop where
  requests : t.requests = h.requests ++ more
  call : ∀ r ∈ more, r.call = h.calls.length
  length : more.length = uncached h timestamp (props.topics.take maxConcurrent)
  cache : t.cache = h.cache
  controller : t.abortController = some h.calls.length
  calls : t.calls.length = h.calls.length + 1
  others : ∀ j d, t.calls[j]? = some d → j = h.calls.length ∧ d = c ∨ j ≠ h.calls.length ∧
    h.supersede.calls[j]? = some d
  callback : c.callback = .loadFrames
  timestamp : c.timestamp = timestamp
  pending : c.limiter.pending.length = more.length
  rest : props.topics.take maxConcurrent ++ c.limiter.rest = props.topics

theorem exists_starts (h : Hook) (props : UseMcapFramesOptions) (timestamp : ℚ) :
    ∃ c more, Starts h (h.supersede.begin .loadFrames props timestamp) props timestamp c more := by
  obtain ⟨calls, isLoading, he, hlength, -⟩ := h.supersede_eq
  have hcalls : h.supersede.calls.length = h.calls.length := by
    rw [he]
    exact hlength
  have hrequests : h.supersede.requests = h.requests := by rw [he]
  have hcache : h.supersede.cache = h.cache := by rw [he]
  have hcontroller : h.supersede.abortController = some h.calls.length := by rw [he]
  obtain ⟨more, hadds, hrest⟩ := exists_adds_loop (h := h.supersede) (i := h.supersede.calls.length)
    (c := ⟨.loadFrames, props, timestamp, false, .start, .empty, false⟩) (p := (.start, ⟨.empty, h.supersede.requests⟩))
    rfl props.topics Nat.zero_lt_two
  refine ⟨h.supersede.started .loadFrames props timestamp, more, ?_, ?_, ?_, hcache, hcontroller, ?_, ?_, rfl, rfl, ?_,
    hrest⟩
  · exact hadds.requests.trans (congrArg (· ++ more) hrequests)
  · rw [← hcalls]
    exact hadds.call
  · refine hadds.length.trans ?_
    unfold uncached
    rw [hcache]
    rfl
  · rw [Hook.length_begin, hcalls]
  · intro j d hd
    rw [Hook.getElem?_begin, hcalls] at hd
    split_ifs at hd with hj
    · exact .inl ⟨hj, (Option.some.inj hd).symm⟩
    · exact .inr ⟨hj, hd⟩
  · exact hadds.pending.trans (Nat.zero_add _)

theorem Watching.start {props : UseMcapFramesOptions} {timestamp : ℚ} {more : List FrameRequest} (hs : Watching s)
    (hstarts : Starts s.hook t props timestamp c more) (hfits : t.Fits)
    (hfew : s.FewOverlap (.loadFrames props timestamp)) :
    Watching ⟨t, s.noted (.loadFrames props timestamp)⟩ := by
  have hnoted (j : ℕ) : s.noted (.loadFrames props timestamp) j =
      if j = s.hook.calls.length then uncached s.hook timestamp props.topics else s.topics j := Function.update_apply ..
  have hflight := inFlight_append hstarts.requests hstarts.call
  have hnone : inFlight s.hook s.hook.calls.length = 0 := by
    refine List.countP_eq_zero.mpr fun r hr he => ?_
    obtain ⟨c, hc, -⟩ := hs.fits.requests r hr
    have hlt := (List.getElem?_eq_some_iff.mp hc).1
    exact absurd (of_decide_eq_true he) (Nat.ne_of_lt hlt)
  have hsplit := uncached_append s.hook timestamp (props.topics.take maxConcurrent) c.limiter.rest
  rw [hstarts.rest] at hsplit
  refine ⟨hfits, fun j d hd => ?_, ?_⟩
  · change d.Limited t (s.noted (.loadFrames props timestamp) j) j
    rw [hnoted]
    rcases hstarts.others j d hd with ⟨rfl, rfl⟩ | ⟨hj, hd⟩
    · have hself := hflight s.hook.calls.length
      rw [if_pos rfl, hnone, Nat.zero_add] at hself
      rw [if_pos rfl]
      have hcached : uncached t d.timestamp d.limiter.rest = uncached s.hook timestamp d.limiter.rest := by
        rw [uncached, uncached, hstarts.cache, hstarts.timestamp]
      have hlength := hstarts.length
      refine ⟨hstarts.callback, (hself.trans hstarts.pending.symm).le, ?_, fun _ => ⟨hstarts.controller, ?_⟩⟩
      · omega
      · omega
    · have hsame := hflight j
      rw [if_neg hj, Nat.add_zero] at hsame
      rw [if_neg hj]
      obtain ⟨c', hc', hcallback, hlimiter, haborted⟩ := superseded hs hd
      have hold := hs.calls j c' hc'
      refine ⟨hcallback.trans hold.callback, ?_, hsame.trans_le hold.topics, fun hnot => ?_⟩
      · rw [hlimiter]
        exact hsame.trans_le hold.pending
      · rw [haborted] at hnot
        cases hnot
  · change (∑ j ∈ Finset.range t.calls.length, _) ≤ _
    rw [hstarts.calls, Finset.sum_range_succ]
    refine (Nat.add_le_add (sum_open_mono (s := s) (fun j hj => ?_) _ (fun j => 0 < inFlight s.hook j)
      fun j hj hopen => ?_) ?_).trans hfew
    · rw [Watched.slots, Watched.slots]
      dsimp only
      rw [hnoted, if_neg (Nat.ne_of_lt hj)]
    · rcases hopen with hpos | hcontroller
      · rw [hflight j, if_neg (Nat.ne_of_lt hj)] at hpos
        exact hpos
      · rw [hstarts.controller, Option.some.injEq] at hcontroller
        exact absurd hcontroller (Nat.ne_of_gt hj)
    · split_ifs
      · rw [Watched.slots]
        dsimp only
        rw [hnoted, if_pos rfl]
      · exact Nat.zero_le _

theorem calm_same (hrequests : t.requests = h.requests) (hcache : t.cache = h.cache)
    (hcontroller : t.abortController = h.abortController) (hcalls : t.calls = h.calls) : Calm h t := by
  refine ⟨fun i => ?_, fun key hnone => hcache ▸ hnone, hcontroller, congrArg _ hcalls, fun i d hd => ?_⟩
  · rw [inFlight, hrequests, inFlight]
  · refine ⟨d, hcalls ▸ hd, rfl, rfl, rfl, rfl, fun hle => ?_⟩
    rw [inFlight, hrequests]
    exact hle

theorem calm_setCall {c' : Call} (hc : h.calls[i]? = some c) (hflight : ∀ j, inFlight t j ≤ inFlight h j)
    (hcache : ∀ key, t.cache.get? key = none → h.cache.get? key = none)
    (hcontroller : t.abortController = h.abortController) (hcalls : t.calls = (h.setCall i c').calls)
    (hcallback : c'.callback = c.callback) (haborted : c'.aborted = c.aborted) (htimestamp : c'.timestamp = c.timestamp)
    (hrest : c'.limiter.rest = c.limiter.rest)
    (hpending : inFlight h i ≤ c.limiter.pending.length → inFlight t i ≤ c'.limiter.pending.length) : Calm h t := by
  refine ⟨hflight, hcache, hcontroller, ?_, ?_⟩
  · rw [hcalls, Hook.length_setCall]
  · rw [hcalls]
    refine Hook.forall_setCall hc (fun j d _ hd => ?_)
      ⟨c, hc, hcallback, haborted, htimestamp, hrest, hpending⟩
    exact ⟨d, hd, rfl, rfl, rfl, rfl, fun hle => (hflight j).trans hle⟩

theorem calm_settle {r : FrameRequest} {c' : Call} (hr : r ∈ h.requests) (hc : h.calls[r.call]? = some c)
    (hrequests : t.requests = h.requests.erase r)
    (hcache : ∀ key, t.cache.get? key = none → h.cache.get? key = none)
    (hcontroller : t.abortController = h.abortController) (hcalls : t.calls = (h.setCall r.call c').calls)
    (hcallback : c'.callback = c.callback) (haborted : c'.aborted = c.aborted) (htimestamp : c'.timestamp = c.timestamp)
    (hlimiter : c'.limiter = c.limiter.settle r.task) : Calm h t := by
  refine calm_setCall hc (fun j => ?_) hcache hcontroller hcalls hcallback haborted htimestamp ?_ fun hle => ?_
  · rw [inFlight, hrequests]
    exact List.erase_sublist.countP_le
  · rw [hlimiter]
    rfl
  · have hfewer : inFlight t r.call = inFlight h r.call - 1 := by
      rw [inFlight, hrequests, inFlight, List.countP_erase, if_pos ⟨hr, decide_eq_true rfl⟩]
    have hpending : c.limiter.pending.length - 1 ≤ c'.limiter.pending.length := by
      rw [hlimiter]
      exact List.le_length_erase
    omega

end Steps

theorem watching_step {s : Watched} {t : Hook} {a : Action} (hs : Watching s)
    (ha : ∀ props timestamp, a ≠ .preloadFrames props timestamp) (hfew : s.FewOverlap a)
    (hstep : step s.hook a = some t) : Watching ⟨t, s.noted a⟩ := by
  have hfits := fits_step hs.fits hstep
  cases step_sound hstep with
  | render => exact hs.calm hfits (calm_same rfl rfl rfl rfl)
  | unmount => exact hs.calm hfits (calm_same rfl rfl rfl rfl)
  | load props timestamp =>
    obtain ⟨c, more, hstarts⟩ := exists_starts s.hook props timestamp
    exact hs.start hstarts hfits hfew
  | loadNone props timestamp hnone =>
    have hsame : ∀ j < s.hook.calls.length, s.noted (.loadFrames props timestamp) j = s.topics j :=
      fun j hj => Function.update_of_ne (Nat.ne_of_lt hj) ..
    refine ⟨hfits, fun j d hd => ?_, hs.slots.trans' (sum_open_mono (fun j hj => ?_) _ _ fun _ _ hopen => hopen)⟩
    · change d.Limited s.hook (s.noted (.loadFrames props timestamp) j) j
      rw [hsame j (List.getElem?_eq_some_iff.mp hd).1]
      exact hs.calls j d hd
    · rw [Watched.slots, Watched.slots]
      dsimp only
      rw [hsame j hj]
  | preload => exact absurd rfl (ha _ _)
  | preloadNone => exact absurd rfl (ha _ _)
  | @fetched r c hr hc =>
    refine hs.calm hfits (calm_settle hr hc rfl (fun key hnone => ?_) rfl rfl rfl rfl rfl rfl)
    change (s.hook.cache.set _ _).get? key = none at hnone
    rw [OrderedDict.get?_set] at hnone
    split_ifs at hnone
    exact hnone
  | failed hr hc => exact hs.calm hfits (calm_settle hr hc rfl (fun _ hnone => hnone) rfl rfl rfl rfl rfl rfl)
  | @remove i task c limiter hc hremove =>
    obtain ⟨-, he⟩ := Option.ite_none_right_eq_some.mp hremove
    refine hs.calm hfits (calm_setCall hc (fun _ => le_rfl) (fun _ hnone => hnone) rfl rfl rfl rfl rfl ?_ fun hle => ?_)
    · cases he
      rfl
    · cases he
      exact hle
  | @race i c tasks hc hrace hwon =>
    have hroom := (hs.fits.calls i c hc).limiter.length_executing_lt hrace hwon
    obtain ⟨more, hadds, hrest⟩ := exists_adds_loop (h := s.hook) (i := i)
      (p := (c.limiter, ⟨c.newFrames, s.hook.requests⟩)) (hs.calls i c hc).callback c.limiter.rest hroom
    exact hs.put hc hadds hrest hfits
  | all hc =>
    exact hs.calm hfits
      (calm_setCall hc (fun _ => le_rfl) (fun _ hnone => hnone) rfl rfl rfl rfl rfl rfl fun hle => hle)
  | @publish i c hc =>
    obtain ⟨frames, isLoading, he⟩ := (s.hook.setCall i { c with finished := true }).publish_eq c
    rw [he] at hfits ⊢
    exact hs.calm hfits
      (calm_setCall hc (fun _ => le_rfl) (fun _ hnone => hnone) rfl rfl rfl rfl rfl rfl fun hle => hle)
  | finish hc =>
    exact hs.calm hfits
      (calm_setCall hc (fun _ => le_rfl) (fun _ hnone => hnone) rfl rfl rfl rfl rfl rfl fun hle => hle)

theorem watching_mount (props : UseMcapFramesOptions) : Watching (.mount props) :=
  ⟨Hook.fits_mount props, nofun, Nat.zero_le _⟩

theorem exists_watched {s : Watched} {t : Hook} {as : List Action} (h : run step s.hook as = some t) :
    ∃ u, run Watched.step s as = some u ∧ u.hook = t := by
  induction as generalizing s with
  | nil =>
    cases h
    exact ⟨s, rfl, rfl⟩
  | cons a as ih =>
    obtain ⟨v, hv, h⟩ := run_cons.mp h
    have hstep : Watched.step s a = some ⟨v, s.noted a⟩ := by rw [Watched.step, hv, Option.map_some]
    obtain ⟨u, hu, he⟩ := ih (s := ⟨v, s.noted a⟩) h
    exact ⟨u, run_cons.mpr ⟨_, hstep, hu⟩, he⟩

theorem watching_run {props : UseMcapFramesOptions} {as : List Action} {u : Watched}
    (hloads : ∀ a ∈ as, ∀ props timestamp, a ≠ .preloadFrames props timestamp)
    (hfew : Along Watched.step Watched.FewOverlap (.mount props) as)
    (h : run Watched.step (.mount props) as = some u) : Watching u := by
  refine invariant_along Watching (fun s a t hs hok hstep => ?_) (watching_mount props)
    ((along_of_mem hloads).and hfew) h
  obtain ⟨v, hv, rfl⟩ := Option.map_eq_some_iff.mp hstep
  exact watching_step hs hok.1 hok.2 hv

/-- Where every call that overlaps has all its slots in use, and the call that starts finds no frame of its first topics
in the cache, the condition is exact. -/
theorem few_overlap_iff_of_full {s : Watched} {t : Hook} {props : UseMcapFramesOptions} {timestamp : ℚ}
    (hs : Watching s) (hfull : ∀ i < s.hook.calls.length, 0 < inFlight s.hook i → inFlight s.hook i = s.slots i)
    (hfirst : uncached s.hook timestamp (props.topics.take maxConcurrent) =
      min maxConcurrent (uncached s.hook timestamp props.topics))
    (hstep : step s.hook (.loadFrames props timestamp) = some t) :
    t.requests.length ≤ 2 * maxConcurrent ↔ s.FewOverlap (.loadFrames props timestamp) := by
  have hbefore : s.hook.requests.length = s.overlapping := by
    rw [length_eq_sum_inFlight hs.fits, Watched.overlapping]
    refine Finset.sum_congr rfl fun i hi => ?_
    split_ifs with hpos
    · exact hfull i (Finset.mem_range.mp hi) hpos
    · exact Nat.eq_zero_of_not_pos hpos
  have hafter : t.requests.length =
      s.overlapping + min maxConcurrent (uncached s.hook timestamp props.topics) := by
    cases step_sound hstep with
    | load =>
      obtain ⟨c, more, hstarts⟩ := exists_starts s.hook props timestamp
      rw [hstarts.requests, List.length_append, hbefore, hstarts.length, hfirst]
    | loadNone _ _ hnone =>
      rw [hbefore, hnone]
      rfl
  rw [hafter, Watched.FewOverlap]

theorem requests_within_bound (props : UseMcapFramesOptions) (as : List Action)
    (hloads : ∀ a ∈ as, ∀ props timestamp, a ≠ .preloadFrames props timestamp)
    (hfew : Along Watched.step Watched.FewOverlap (.mount props) as) :
    ∀ before t, before <+: as → run step (Hook.mount props) before = some t →
      t.requests.length ≤ 2 * maxConcurrent := by
  rintro before t ⟨after, rfl⟩ ht
  obtain ⟨u, hu, rfl⟩ := exists_watched (s := .mount props) ht
  exact length_le_slots (watching_run (fun a ha => hloads a (List.mem_append_left _ ha)) (along_append hu hfew).1 hu)

def threeCameras : UseMcapFramesOptions := ⟨"ep-1", ["/a", "/b", "/c"]⟩

def seeks (props : UseMcapFramesOptions) (timestamps : List ℚ) : List Action := timestamps.map (.loadFrames props)

def spacedSeeks : List Action :=
  seeks threeCameras [0, 1000000000] ++ [.settle 0 0 true, .settle 0 1 true] ++ seeks threeCameras [2000000000]

theorem requests_within_bound_spacedSeeks :
    (run step (Hook.mount threeCameras) spacedSeeks).map (fun t => t.requests.length) = some 4 ∧
      ∀ before t, before <+: spacedSeeks → run step (Hook.mount threeCameras) before = some t →
        t.requests.length ≤ 2 * maxConcurrent := by
  have hrun : (run step (Hook.mount threeCameras) spacedSeeks).map (fun t => t.requests.length) = some 4 := by
    decide +kernel
  have hfew : Along Watched.step Watched.FewOverlap (.mount threeCameras) spacedSeeks := by decide +kernel
  exact ⟨hrun, requests_within_bound threeCameras _ (by simp [spacedSeeks, seeks]) hfew⟩

theorem three_seeks_exceed_bound :
    (run step (Hook.mount threeCameras) (seeks threeCameras [0, 1000000000, 2000000000])).map
      (fun t => t.requests.length) = some 6 ∧ ¬ 6 ≤ 2 * maxConcurrent := by decide +kernel

end Embedai.McapFrames
