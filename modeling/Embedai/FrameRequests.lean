import Embedai.McapCacheCoherence

namespace Embedai.FrameRequests

open TransitionSystems McapCache

/-- `opened t` says for request `t` whether the file existed when it was opened. -/
structure State where
  cache : McapCache.State
  opened : ℕ → Option Bool

def initial : State := { cache := McapCache.initial, opened := fun _ => none }

inductive Action
  | cache (a : McapCache.Action)
  | extractFrame (t : ℕ)

def extractFrame (s : State) (t : ℕ) : Option State :=
  (s.cache.calls t).bind fun c =>
    match c.stage with
    | .returned path =>
      if s.opened t = none then
        some { s with opened := Function.update s.opened t (some (decide (path ∈ s.cache.disk))) }
      else none
    | _ => none

def next (cfg : Config) (s : State) : Action → Option State
  | .cache a => (McapCache.next cfg s.cache a).map (fun cache => { s with cache := cache })
  | .extractFrame t => extractFrame s t

def Action.OfRequests : Action → Prop
  | .cache .clear => False
  | .cache (.unlinkOutside _) => False
  | _ => True

instance : (a : Action) → Decidable a.OfRequests
  | .cache .clear | .cache (.unlinkOutside _) => isFalse id
  | .cache (.getOrDownload _ _ _) | .cache (.acquire _) | .cache (.doubleCheck _ _) | .cache (.downloadWrites _)
  | .cache (.downloadSucceeds _) | .cache (.downloadFails _) | .cache (.dropLock _) | .cache (.store _ _)
  | .cache (.cleanupExpired _) | .extractFrame _ => isTrue trivial

def FilesOpen (s : State) : Prop := ∀ t, s.opened t ≠ some false

def Unread (s : State) (t : ℕ) (stage : Stage) : Prop :=
  match stage with
  | .downloaded _ => True
  | .returned _ => s.opened t = none
  | _ => False

instance (s : State) (t : ℕ) : (stage : Stage) → Decidable (Unread s t stage)
  | .downloaded _ => isTrue trivial
  | .returned _ => inferInstanceAs (Decidable (s.opened t = none))
  | .acquiring _ | .checking _ | .downloading _ | .failed _ | .raised => isFalse id

def KeepsUnread (cfg : Config) (s : State) : Action → Prop
  | .cache a => ∀ e ∈ unlinked cfg s.cache a, ∀ t < s.cache.nextCall, ∀ c ∈ s.cache.calls t,
      c.episodeId = e → ¬ Unread s t c.stage
  | .extractFrame _ => True

instance (cfg : Config) (s : State) : (a : Action) → Decidable (KeepsUnread cfg s a)
  | .cache _ => inferInstanceAs (Decidable (∀ e ∈ _, ∀ t < s.cache.nextCall, ∀ c ∈ s.cache.calls t,
      c.episodeId = e → ¬ Unread s t c.stage))
  | .extractFrame _ => isTrue trivial

def cacheActions (actions : List Action) : List McapCache.Action :=
  actions.filterMap fun
    | .cache a => some a
    | .extractFrame _ => none

structure FrameFiles (cfg : Config) (ids : List String) (s : State) : Prop where
  fresh : s.cache.FreshCalls
  named : Named cfg ids s.cache
  unread : ∀ t c, s.cache.calls t = some c → Unread s t c.stage → cfg.tmpPath c.episodeId ∈ s.cache.disk
  opened : FilesOpen s

theorem unread_of_isDownloaded {s : State} {t : ℕ} {stage : Stage} (h : stage.isDownloaded) : Unread s t stage := by
  cases stage with
  | downloaded lock => exact trivial
  | acquiring | checking | downloading | failed | returned | raised => cases h

theorem unread_cases {s : State} {t : ℕ} {stage : Stage} (h : Unread s t stage) :
    stage.isDownloaded ∨ ∃ path, stage = .returned path := by
  cases stage with
  | downloaded lock => exact Or.inl rfl
  | returned path => exact Or.inr ⟨path, rfl⟩
  | acquiring | checking | downloading | failed | raised => exact h.elim

theorem unread_keeps {cfg : Config} {ids : List String} {s : State} {cache : McapCache.State} {a : McapCache.Action}
    (hs : FrameFiles cfg ids s) (hids : DistinctNames cfg ids) (ha : ∀ path, a ≠ .unlinkOutside path)
    (hk : KeepsUnread cfg s (.cache a)) (h : Step cfg s.cache a cache) {t : ℕ} {c : Call}
    (ht : s.cache.calls t = some c) (hc : Unread s t c.stage) : cfg.tmpPath c.episodeId ∈ cache.disk :=
  disk_step hs.named hids ha h (hs.named.call t c ht).1 (hs.unread t c ht hc)
    (fun hu => hk _ hu t (hs.fresh.lt ht) c ht rfl hc)

theorem frameFiles_cache {cfg : Config} {ids : List String} {s : State} {cache : McapCache.State}
    {a : McapCache.Action} (hs : FrameFiles cfg ids s) (hids : DistinctNames cfg ids)
    (hreq : ∀ e ∈ requested [a], e ∈ ids) (ha : ∀ path, a ≠ .unlinkOutside path)
    (hk : KeepsUnread cfg s (.cache a)) (h : Step cfg s.cache a cache) :
    FrameFiles cfg ids { s with cache := cache } := by
  have hkeep := fun t c => unread_keeps hs hids ha hk h (t := t) (c := c)
  have hnamed := named_step hs.named hreq h
  refine ⟨freshCalls_step hs.fresh h, hnamed, ?_, hs.opened⟩
  intro t c ht hc
  by_cases hold : s.cache.calls t = some c
  · exact hkeep t c hold hc
  · rcases unread_cases hc with hdown | ⟨path, hpath⟩
    · exact (downloaded_step h ht hdown).resolve_left hold
    · rw [← (hnamed.call t c ht).2 path hpath]
      rcases returns_step h ⟨t, c, ht, hpath, hold⟩ with hd | ⟨u, d, hu, hd, hname⟩
      · exact hd
      · rw [hname]
        exact hkeep u d hu (unread_of_isDownloaded hd)

theorem frameFiles_extractFrame {cfg : Config} {ids : List String} {s s' : State} {t : ℕ}
    (hs : FrameFiles cfg ids s) (h : extractFrame s t = some s') : FrameFiles cfg ids s' := by
  obtain ⟨c, ht, h⟩ := Option.bind_eq_some_iff.mp h
  split at h
  · rename_i path hstage
    split at h
    · rename_i hnone
      cases h
      have hdisk : path ∈ s.cache.disk := by
        rw [(hs.named.call t c ht).2 path hstage]
        exact hs.unread t c ht (by rw [hstage]; exact hnone)
      refine ⟨hs.fresh, hs.named, ?_, ?_⟩
      · intro u d hu hd
        apply hs.unread u d hu
        cases hdst : d.stage <;> rw [hdst] at hd <;> try exact hd
        by_cases hut : u = t
        · simp [Unread, hut] at hd
        · simpa [Unread, hut] using hd
      · intro u
        by_cases hut : u = t
        · simp [hut, hdisk]
        · simpa [hut] using hs.opened u
    · cases h
  · cases h

theorem frameFiles_step {cfg : Config} {ids : List String} {s s' : State} {a : Action} (hs : FrameFiles cfg ids s)
    (hids : DistinctNames cfg ids) (hreq : ∀ e ∈ requested (cacheActions [a]), e ∈ ids)
    (ha : ∀ path, a ≠ .cache (.unlinkOutside path)) (hk : KeepsUnread cfg s a) (h : next cfg s a = some s') :
    FrameFiles cfg ids s' := by
  cases a with
  | cache a =>
    obtain ⟨cache, hn, rfl⟩ := Option.map_eq_some_iff.mp h
    exact frameFiles_cache hs hids hreq (fun path he => ha path (congrArg Action.cache he)) hk (step_of_next hn)
  | extractFrame t => exact frameFiles_extractFrame hs h

theorem frameFiles_initial (cfg : Config) (ids : List String) : FrameFiles cfg ids initial :=
  ⟨fun _ _ => rfl, ⟨fun _ _ h => (by cases h), fun _ _ h => (by cases h)⟩, fun _ _ h => (by cases h),
    fun _ h => (by cases h)⟩

def sixRequests : List Action :=
  (List.range 6).flatMap (fun i =>
    [.cache (.getOrDownload s!"ep-{i}" s!"storage/ep{i}.mcap" i), .cache (.acquire i), .cache (.doubleCheck i i),
      .cache (.downloadSucceeds i), .cache (.store i i)]) ++ [.extractFrame 0]

theorem frame_file_evicted :
    ¬ ∀ (cfg : Config) (actions : List Action) (s : State), (∀ a ∈ actions, a.OfRequests) →
      run (next cfg) initial actions = some s → FilesOpen s := by
  intro h
  have hrun : (run (next serviceConfig) initial sixRequests).any (fun s => s.opened 0 = some false) = true := by
    decide +kernel
  obtain ⟨s, hs, hopen⟩ := (Option.any_eq_true _ _).mp hrun
  exact h serviceConfig sixRequests s (by decide +kernel) hs 0 (by simpa using hopen)

theorem filesOpen_of_keepsUnread (cfg : Config) (actions : List Action) (s : State)
    (ha : ∀ a ∈ actions, a.OfRequests) (hids : DistinctNames cfg (requested (cacheActions actions)))
    (hk : Along (next cfg) (KeepsUnread cfg) initial actions) (h : run (next cfg) initial actions = some s) :
    FilesOpen s := by
  have hreq : ∀ a ∈ actions, ∀ e ∈ requested (cacheActions [a]), e ∈ requested (cacheActions actions) := by
    intro a ha e he
    obtain ⟨b, hb, hbe⟩ := List.mem_filterMap.mp he
    obtain ⟨a', ha', hab⟩ := List.mem_filterMap.mp hb
    exact List.mem_filterMap.mpr
      ⟨b, List.mem_filterMap.mpr ⟨a', List.mem_singleton.mp ha' ▸ ha, hab⟩, hbe⟩
  have hinside : ∀ a ∈ actions, ∀ path, a ≠ .cache (.unlinkOutside path) := by
    rintro a h path rfl
    exact ha _ h
  have hactions : Along (next cfg) (fun _ a => (∀ path, a ≠ .cache (.unlinkOutside path)) ∧
      ∀ e ∈ requested (cacheActions [a]), e ∈ requested (cacheActions actions)) initial actions :=
    along_of_mem (fun a h => ⟨hinside a h, hreq a h⟩)
  have hok := hactions.and hk
  exact (invariant_along (FrameFiles cfg (requested (cacheActions actions)))
    (fun s a t hs hok hn => frameFiles_step hs hids hok.1.2 hok.1.1 hok.2 hn)
    (frameFiles_initial cfg _) hok h).opened

def sixRequestsInTurn : List Action :=
  (List.range 6).flatMap (fun i =>
    [.cache (.getOrDownload s!"ep-{i}" s!"storage/ep{i}.mcap" i), .cache (.acquire i), .cache (.doubleCheck i i),
      .cache (.downloadSucceeds i), .cache (.store i i), .extractFrame i]) ++ [.cache (.cleanupExpired 400)]

theorem filesOpen_sixRequestsInTurn :
    (run (next serviceConfig) initial sixRequestsInTurn).isSome ∧
      ∀ s, run (next serviceConfig) initial sixRequestsInTurn = some s → FilesOpen s :=
  ⟨by decide +kernel, fun s => filesOpen_of_keepsUnread serviceConfig sixRequestsInTurn s
    (by decide +kernel) (by decide +kernel) (by decide +kernel)⟩

end Embedai.FrameRequests
