import Embedai.IngestSteps
import Embedai.ObjectLocations
import Embedai.TransitionSystems

namespace Embedai.IngestPipeline

open Gateway StreamServer TracedHandlers TransitionSystems

def Undelivered (s : System) (id : String) : Prop := ∃ e ∈ s.stores.events.drop s.delivered, e.episodeId = id

instance (s : System) (id : String) : Decidable (Undelivered s id) :=
  inferInstanceAs (Decidable (∃ e ∈ _, _))

def Quiescent (s : System) : Prop := ∀ th ∈ s.threads.values, th.running = false

instance (s : System) : Decidable (Quiescent s) :=
  inferInstanceAs (Decidable (∀ th ∈ _, _))

def NoStuck (s : System) : Prop := Quiescent s → ∀ id, Processing s.stores id → Undelivered s id

def CoveredWithout (s : System) (tid : ℕ) (id : String) : Prop :=
  Undelivered s id ∨ ∃ other th, other ≠ tid ∧ s.threads.get? other = some th ∧ th.owes = some id

def Spares (s : System) : Action → Prop
  | .call tid outcome => ∀ th ∈ s.threads.get? tid, ∀ id ∈ th.owes, th.GivesUp s.projects outcome s.stores →
      Processing s.stores id ∨ (outcome.takesEffect = true ∧ th.marks s.stores = true) → CoveredWithout s tid id
  | .crash tid => ∀ th ∈ s.threads.get? tid, ∀ id ∈ th.owes, Processing s.stores id → CoveredWithout s tid id
  | _ => True

def Covered (s : System) (id : String) : Prop :=
  Undelivered s id ∨ ∃ tid th, s.threads.get? tid = some th ∧ th.owes = some id

structure Coverage (s : System) : Prop where
  delivered : s.delivered ≤ s.stores.events.length
  covered : ∀ id, Processing s.stores id → Covered s id

theorem Undelivered.of_prefix {s t : System} {id : String} (hdelivered : t.delivered = s.delivered)
    (hevents : s.stores.events <+: t.stores.events) (h : Undelivered s id) : Undelivered t id := by
  obtain ⟨e, he, rfl⟩ := h
  obtain ⟨new, hnew⟩ := hevents
  refine ⟨e, ?_, rfl⟩
  rw [hdelivered, ← hnew, List.drop_append]
  exact List.mem_append_left _ he

theorem coverage_call {s : System} {tid : ℕ} {outcome : Outcome Unit} {th : Thread} (hs : Coverage s)
    (hok : Spares s (.call tid outcome)) (hth : s.threads.get? tid = some th) {t : System}
    (ht : next s (.call tid outcome) = some t) : Coverage t := by
  have hcall := callStep s.projects outcome s.stores th
  rw [next, hth, Option.map_some, Option.some.injEq] at ht
  subst ht
  set rest := (th.call s.projects outcome s.stores).1
  set g := (th.call s.projects outcome s.stores).2
  refine ⟨hs.delivered.trans hcall.events.length_le, ?_⟩
  intro id hp
  have hwithout (h : CoveredWithout s tid id) : Covered { s with
      stores := g
      acked := s.acked ++ th.acks outcome
      threads := setThread tid rest s.threads } id := by
    rcases h with hwaits | ⟨other, th', hne, hth', howes⟩
    · exact Or.inl (Undelivered.of_prefix (s := s) rfl hcall.events hwaits)
    · refine Or.inr ⟨other, th', ?_, howes⟩
      rw [get?_setThread, if_neg hne]
      exact hth'
  by_cases howes : th.owes = some id
  · by_cases hgives : th.GivesUp s.projects outcome s.stores
    · exact hwithout (hok th hth id howes hgives (hcall.marked id howes hp))
    · rcases hcall.kept id howes hgives hp with hrest | ⟨e, he, hid⟩
      · obtain ⟨th', hth', howes'⟩ := Option.bind_eq_some_iff.mp hrest
        refine Or.inr ⟨tid, th', ?_, howes'⟩
        rw [get?_setThread, if_pos rfl]
        exact hth'
      · refine Or.inl ⟨e, ?_, hid⟩
        exact (List.drop_sublist_drop_left g.events hs.delivered).subset he
  · rcases hs.covered id (hcall.others id howes hp) with hwaits | ⟨other, th', hth', howes'⟩
    · exact hwithout (Or.inl hwaits)
    · refine hwithout (Or.inr ⟨other, th', ?_, hth', howes'⟩)
      rintro rfl
      rw [hth, Option.some.injEq] at hth'
      subst hth'
      exact howes howes'

theorem coverage_crash {s t : System} {tid : ℕ} (hs : Coverage s) (hok : Spares s (.crash tid))
    (ht : next s (.crash tid) = some t) : Coverage t := by
  simp only [next] at ht
  split at ht
  · rename_i msgId event metadata step hth
    rw [Option.some.injEq] at ht
    subst ht
    refine ⟨hs.delivered, ?_⟩
    intro id hp
    have hsafe : CoveredWithout s tid id := by
      rcases hs.covered id hp with hwaits | ⟨other, th, hother, howes⟩
      · exact Or.inl hwaits
      · by_cases hne : other = tid
        · subst hne
          exact hok th hother id howes hp
        · exact Or.inr ⟨other, th, hne, hother, howes⟩
    rcases hsafe with hwaits | ⟨other, th, hne, hother, howes⟩
    · exact Or.inl hwaits
    · refine Or.inr ⟨other, th, ?_, howes⟩
      rw [get?_setThread, if_neg hne]
      exact hother
  · cases ht

theorem spawn_eq_some {s t : System} {tid : ℕ} {th : Thread} (h : spawn tid th s = some t) :
    s.threads.get? tid = none ∧ t = { s with threads := setThread tid (some th) s.threads } := by
  rw [spawn, Option.ite_none_left_eq_some, Option.some.injEq] at h
  exact ⟨OrderedDict.get?_eq_none.mpr h.1, h.2.symm⟩

theorem Covered.spawn {s : System} {tid : ℕ} {th : Thread} {id : String} (hfree : s.threads.get? tid = none)
    (h : Covered s id) : Covered { s with threads := setThread tid (some th) s.threads } id := by
  rcases h with hwaits | ⟨other, th', hother, howes⟩
  · exact Or.inl hwaits
  · refine Or.inr ⟨other, th', ?_, howes⟩
    rw [get?_setThread, if_neg]
    · exact hother
    · rintro rfl
      rw [hfree] at hother
      cases hother

theorem coverage_spawn {s t : System} {tid : ℕ} {th : Thread} (hs : Coverage s) (h : spawn tid th s = some t) :
    Coverage t := by
  obtain ⟨hfree, rfl⟩ := spawn_eq_some h
  exact ⟨hs.delivered, fun id hp => (hs.covered id hp).spawn hfree⟩

theorem coverage_deliver {s t : System} {tid : ℕ} {metadata : Json} (hs : Coverage s)
    (ht : next s (.deliver tid metadata) = some t) : Coverage t := by
  obtain ⟨event, hevent, hspawn⟩ := Option.bind_eq_some_iff.mp ht
  obtain ⟨hlt, hget⟩ := List.getElem?_eq_some_iff.mp hevent
  obtain ⟨hfree, rfl⟩ := spawn_eq_some hspawn
  refine ⟨hlt, ?_⟩
  intro id hp
  rcases hs.covered id hp with ⟨e, he, hid⟩ | hthread
  · rw [List.drop_eq_getElem_cons hlt, List.mem_cons] at he
    rcases he with he | he
    · refine Or.inr ⟨tid, .process s.delivered event metadata .updateEpisodeStatus, ?_, ?_⟩
      · rw [get?_setThread, if_pos rfl]
      · rw [← hid, he, hget]
        rfl
    · exact Or.inl ⟨e, he, hid⟩
  · exact Covered.spawn hfree (Or.inr hthread)

theorem coverage_next {s t : System} {a : Action} (hs : Coverage s) (hok : Spares s a) (h : next s a = some t) :
    Coverage t := by
  cases a with
  | request tid sessionId => exact coverage_spawn hs h
  | sealEpisode tid work => exact coverage_spawn hs h
  | deliver tid metadata => exact coverage_deliver hs h
  | call tid outcome =>
    obtain ⟨th, hth, -⟩ := Option.map_eq_some_iff.mp h
    exact coverage_call hs hok hth h
  | crash tid => exact coverage_crash hs hok h

theorem CoveredWithout.of_covered {s : System} {tid : ℕ} {rest : Option Thread} {g : Stores} {acked : List ℕ}
    {id : String} (hevents : g.events = s.stores.events) (hrest : rest.bind Thread.owes = none)
    (h : Covered { s with stores := g, acked := acked, threads := setThread tid rest s.threads } id) :
    CoveredWithout s tid id := by
  rcases h with ⟨e, he, hid⟩ | ⟨other, th, hth, howes⟩
  · refine Or.inl ⟨e, ?_, hid⟩
    rw [← hevents]
    exact he
  · rw [get?_setThread] at hth
    split_ifs at hth with hne
    · rw [hth, Option.bind_some, howes] at hrest
      cases hrest
    · exact Or.inr ⟨other, th, hne, hth, howes⟩

theorem coverage_next_iff {s t : System} {a : Action} (hs : Coverage s) (h : next s a = some t) :
    Coverage t ↔ Spares s a := by
  refine ⟨fun ht => ?_, fun hok => coverage_next hs hok h⟩
  cases a with
  | call tid outcome =>
    intro th hth id howes hgives hp
    rw [Option.mem_def] at hth howes
    have hgiven := givenUp_call hgives
    rw [next, hth, Option.map_some, Option.some.injEq] at h
    subst h
    exact .of_covered hgiven.events hgiven.owes (ht.covered id (hgiven.stays id howes hp))
  | crash tid =>
    intro th hth id howes hp
    rw [Option.mem_def] at hth howes
    have ht' : t = { s with threads := setThread tid none s.threads } := by
      simp only [next] at h
      split at h
      · exact (Option.some.inj h).symm
      · cases h
    subst ht'
    exact .of_covered rfl rfl (ht.covered id hp)
  | _ => trivial

theorem coverage_reached_iff {s u : System} {actions : List Action} (hs : Coverage s)
    (h : run next s actions = some u) :
    (∀ before t, before <+: actions → run next s before = some t → Coverage t) ↔ Along next Spares s actions :=
  reached_iff_along (p := fun _ => True) (fun _ _ _ hs _ ht => coverage_next_iff hs ht) hs (fun _ _ => trivial) h

theorem running_of_owes {th : Thread} {id : String} (h : th.owes = some id) : th.running = true := by
  cases th with
  | complete sessionId step => cases step <;> first | rfl | cases h
  | sealing work step => rfl
  | process msgId event metadata step => cases step <;> first | rfl | cases h

theorem Coverage.noStuck {s : System} (h : Coverage s) : NoStuck s := by
  intro hquiet id hp
  rcases h.covered id hp with hwaits | ⟨tid, th, hth, howes⟩
  · exact hwaits
  · have hstill := hquiet th (OrderedDict.mem_values.mpr ⟨tid, hth⟩)
    rw [running_of_owes howes] at hstill
    cases hstill

theorem coverage_start {projects : List String} {g : Stores} (h : ∀ id, ¬ Processing g id) :
    Coverage (start projects g) :=
  ⟨Nat.zero_le _, fun id hp => absurd hp (h id)⟩

theorem no_stuck_episode {projects : List String} {g : Stores} {actions : List Action} {s : System}
    (hg : ∀ id, ¬ Processing g id) (hspares : Along next Spares (start projects g) actions)
    (h : run next (start projects g) actions = some s) : NoStuck s :=
  (invariant_along Coverage (fun _ _ _ hs hok ht => coverage_next hs hok ht) (coverage_start hg) hspares h).noStuck

def Proceeds (s : System) : Action → Prop
  | .call tid outcome => ∀ th ∈ s.threads.get? tid, ¬ th.GivesUp s.projects outcome s.stores
  | .crash tid => ∀ th ∈ s.threads.get? tid, th.owes = none
  | _ => True

instance (s : System) (a : Action) : Decidable (Proceeds s a) := by
  cases a <;> unfold Proceeds <;> infer_instance

theorem spares_of_proceeds {s : System} {a : Action} (h : Proceeds s a) : Spares s a := by
  cases a with
  | call tid outcome => exact fun th hth id _ hgives => absurd hgives (h th hth)
  | crash tid =>
    intro th hth id howes
    rw [h th hth] at howes
    cases howes
  | _ => trivial

theorem along_spares {s : System} {actions : List Action} (h : Along next Proceeds s actions) :
    Along next Spares s actions :=
  along_of_invariant (fun _ => True) (fun _ _ _ _ _ _ => trivial) (fun _ _ _ => spares_of_proceeds) trivial h

open ObjectLocations (labProject oneChunkUploaded)

theorem not_processing_oneChunkUploaded (id : String) : ¬ Processing oneChunkUploaded id := by
  intro hp
  have hid : id ∈ ["ep-1"] := hp.mem_keys
  rw [List.mem_singleton] at hid
  subst hid
  exact absurd hp (by decide)

def calls (tid n : ℕ) : List Action := List.replicate n (.call tid .ok)

def ingestOne : List Action :=
  [.request 0 "s-1"] ++ calls 0 7 ++ [.deliver 1 (.obj [])] ++ calls 1 7 ++ [.crash 1]

theorem no_stuck_episode_oneUpload :
    (run next (start [labProject] oneChunkUploaded) ingestOne).isSome ∧
      ∀ s, run next (start [labProject] oneChunkUploaded) ingestOne = some s → NoStuck s :=
  ⟨by decide +kernel, fun _ h =>
    no_stuck_episode not_processing_oneChunkUploaded (along_spares (by decide +kernel)) h⟩

def completeUnpublished : List Action := [.request 0 "s-1"] ++ calls 0 5 ++ [.call 0 (.raises ())] ++ calls 0 1

theorem unpublished_stays_processing :
    ¬ ∀ projects g actions s, (∀ id, ¬ Processing g id) → run next (start projects g) actions = some s → NoStuck s := by
  intro hall
  have hstuck : ∀ s ∈ run next (start [labProject] oneChunkUploaded) completeUnpublished,
      Quiescent s ∧ Processing s.stores "ep-1" ∧ ¬ Undelivered s "ep-1" := by decide +kernel
  have hsome : (run next (start [labProject] oneChunkUploaded) completeUnpublished).isSome := by decide +kernel
  obtain ⟨s, hs⟩ := Option.isSome_iff_exists.mp hsome
  obtain ⟨hquiet, hp, hlost⟩ := hstuck s hs
  exact hlost (hall _ _ _ s not_processing_oneChunkUploaded hs hquiet "ep-1" hp)

end Embedai.IngestPipeline
