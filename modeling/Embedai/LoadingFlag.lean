import Embedai.McapFramesSteps

namespace Embedai.McapFrames

open RunWithConcurrency TransitionSystems

def Hook.latestLoad (h : Hook) : Option Call := (h.calls.filter fun c => c.callback = .loadFrames).getLast?

structure Governs (h : Hook) (j : ℕ) (c : Call) : Prop where
  call : h.calls[j]? = some c
  load : c.callback = .loadFrames
  signal : c.aborted = false
  flag : h.mounted = true → (h.isLoading = true ↔ c.finished = false)
  stale : ∀ (i : ℕ) (d : Call), h.calls[i]? = some d → d.callback = .loadFrames → i = j ∨ (i < j ∧ d.aborted = true)

structure Governed (h : Hook) : Prop where
  idle : h.abortController = none → h.isLoading = false ∧
    ∀ (i : ℕ) (d : Call), h.calls[i]? = some d → d.callback = .preloadFrames
  owner : ∀ j, h.abortController = some j → ∃ c, Governs h j c

variable {h t : Hook} {i j : ℕ} {c : Call}

namespace Hook

theorem isLoading_supersede (hmounted : h.mounted = true) : h.supersede.isLoading = true := by
  have habort : h.abort.mounted = true := by
    unfold abort
    cases h.abortController <;> exact hmounted
  rw [supersede, setIsLoading, if_pos habort]

theorem isLoading_publish (c : Call) (h : Hook) :
    (h.publish c).isLoading = if h.mounted = true ∧ c.aborted = false then false else h.isLoading := by
  unfold publish setIsLoading setFrames
  cases c.aborted <;> cases hmounted : h.mounted <;> split_ifs <;> simp_all

end Hook

theorem Governed.controller (hh : Governed h) (hc : h.calls[i]? = some c) (hload : c.callback = .loadFrames)
    (hsignal : c.aborted = false) : h.abortController = some i := by
  cases hcontroller : h.abortController with
  | none =>
    rw [(hh.idle hcontroller).2 i c hc] at hload
    cases hload
  | some j =>
    obtain ⟨d, hd⟩ := hh.owner j hcontroller
    rcases hd.stale i c hc hload with rfl | ⟨-, haborted⟩
    · rfl
    · rw [hsignal] at haborted
      cases haborted

theorem Governed.governs (hh : Governed h) (hcontroller : h.abortController = some i) (hc : h.calls[i]? = some c) :
    Governs h i c := by
  obtain ⟨d, hd⟩ := hh.owner i hcontroller
  have hcall := hd.call
  rw [hc, Option.some.injEq] at hcall
  rw [hcall]
  exact hd

theorem Governed.congr (hh : Governed h) (hcalls : t.calls = h.calls)
    (hcontroller : t.abortController = h.abortController) (hmounted : t.mounted = true → h.mounted = true)
    (hloading : t.isLoading = h.isLoading) : Governed t := by
  refine ⟨fun hnone => ?_, fun j hj => ?_⟩
  · rw [hloading, hcalls]
    exact hh.idle (hcontroller.symm.trans hnone)
  · obtain ⟨c, hc⟩ := hh.owner j (hcontroller.symm.trans hj)
    refine ⟨c, ?_, hc.load, hc.signal, fun h => ?_, ?_⟩
    · rw [hcalls]
      exact hc.call
    · rw [hloading]
      exact hc.flag (hmounted h)
    · rw [hcalls]
      exact hc.stale

theorem Governed.setCall (hh : Governed h) (hc : h.calls[i]? = some c) (c' : Call)
    (hcalls : t.calls = (h.setCall i c').calls) (hcontroller : t.abortController = h.abortController)
    (hmounted : t.mounted = h.mounted) (hloading : t.isLoading = h.isLoading) (hcallback : c'.callback = c.callback)
    (haborted : c'.aborted = c.aborted) (hfinished : h.abortController = some i → c'.finished = c.finished) :
    Governed t := by
  refine ⟨fun hnone => ?_, fun j hj => ?_⟩
  · obtain ⟨hidle, hpreload⟩ := hh.idle (hcontroller.symm.trans hnone)
    rw [hloading, hcalls]
    refine ⟨hidle, Hook.forall_setCall hc (fun j d _ => hpreload j d) ?_⟩
    rw [hcallback]
    exact hpreload i c hc
  · rw [hcontroller] at hj
    have hstale (hg : ∃ d, Governs h j d) : ∀ (k : ℕ) (d : Call), t.calls[k]? = some d → d.callback = .loadFrames →
        k = j ∨ (k < j ∧ d.aborted = true) := by
      obtain ⟨d, hd⟩ := hg
      rw [hcalls]
      refine Hook.forall_setCall hc (fun k e _ => hd.stale k e) fun hload => ?_
      rw [haborted]
      exact hd.stale i c hc (hcallback.symm.trans hload)
    by_cases hi : i = j
    · subst hi
      have hd := hh.governs hj hc
      refine ⟨c', ?_, hcallback.trans hd.load, haborted.trans hd.signal, fun hm => ?_, hstale ⟨c, hd⟩⟩
      · rw [hcalls, Hook.getElem?_setCall hc, if_pos rfl]
      · rw [hloading, hfinished hj]
        exact hd.flag (hmounted.symm.trans hm)
    · obtain ⟨d, hd⟩ := hh.owner j hj
      refine ⟨d, ?_, hd.load, hd.signal, fun hm => ?_, hstale ⟨d, hd⟩⟩
      · rw [hcalls, Hook.getElem?_setCall hc, if_neg (Ne.symm hi)]
        exact hd.call
      · rw [hloading]
        exact hd.flag (hmounted.symm.trans hm)

theorem governed_mount (props : UseMcapFramesOptions) : Governed (.mount props) := by
  refine ⟨fun _ => ⟨rfl, fun i d hd => ?_⟩, fun j hj => ?_⟩
  · cases hd
  · cases hj

theorem governed_load (hh : Governed h) (props : UseMcapFramesOptions) (timestamp : ℚ) :
    Governed (h.supersede.begin .loadFrames props timestamp) := by
  obtain ⟨calls, isLoading, he, hlength, -⟩ := h.supersede_eq
  have hlength : h.supersede.calls.length = h.calls.length := by
    rw [he]
    exact hlength
  have hmounted : h.supersede.mounted = h.mounted := by rw [he]
  have hcontroller : h.supersede.abortController = some h.calls.length := by rw [he]
  have hstale : ∀ (i : ℕ) (d : Call), h.supersede.calls[i]? = some d → d.callback = .loadFrames →
      i = h.calls.length ∨ (i < h.calls.length ∧ d.aborted = true) := by
    intro i d hd hload
    have hlt : i < h.calls.length := hlength ▸ (List.getElem?_eq_some_iff.mp hd).1
    refine .inr ⟨hlt, ?_⟩
    rw [Hook.getElem?_supersede] at hd
    split_ifs at hd with howner
    · -- the call that had the controller is aborted now, the others were before
      obtain ⟨c, -, rfl⟩ := Option.map_eq_some_iff.mp hd
      rfl
    · by_contra hsignal
      exact howner (hh.controller hd hload (Bool.not_eq_true _ ▸ hsignal))
  refine ⟨fun hnone => ?_, fun j hj => ?_⟩
  · cases hcontroller.symm.trans hnone
  · obtain rfl : h.calls.length = j := Option.some.inj (hcontroller.symm.trans hj)
    refine ⟨h.supersede.started .loadFrames props timestamp, ?_, rfl, rfl, fun hm => ?_, ?_⟩
    · rw [Hook.getElem?_begin, if_pos hlength.symm]
    · exact iff_of_true (Hook.isLoading_supersede (hmounted.symm.trans hm)) rfl
    · exact Hook.forall_begin hstale fun _ => .inl hlength

theorem governed_preload (hh : Governed h) (props : UseMcapFramesOptions) (timestamp : ℚ) :
    Governed (h.begin .preloadFrames props timestamp) := by
  refine ⟨fun hnone => ?_, fun j hj => ?_⟩
  · obtain ⟨hidle, hpreload⟩ := hh.idle hnone
    exact ⟨hidle, Hook.forall_begin hpreload rfl⟩
  · obtain ⟨c, hc⟩ := hh.owner j hj
    refine ⟨c, ?_, hc.load, hc.signal, hc.flag, Hook.forall_begin hc.stale fun hload => ?_⟩
    · have hlt : j < h.calls.length := (List.getElem?_eq_some_iff.mp hc.call).1
      rw [Hook.getElem?_begin, if_neg (Nat.ne_of_lt hlt)]
      exact hc.call
    · cases hload

theorem governed_publish (hh : Governed h) (hc : h.calls[i]? = some c) (hload : c.callback = .loadFrames) :
    Governed ((h.setCall i { c with finished := true }).publish c) := by
  have hloading := Hook.isLoading_publish c (h.setCall i { c with finished := true })
  obtain ⟨frames, isLoading, he⟩ := (h.setCall i { c with finished := true }).publish_eq c
  rw [he] at hloading ⊢
  by_cases hsignal : c.aborted = false
  · have hcontroller := hh.controller hc hload hsignal
    have hg := hh.governs hcontroller hc
    refine ⟨fun hnone => ?_, fun j hj => ?_⟩
    · cases hcontroller.symm.trans hnone
    · obtain rfl : i = j := Option.some.inj (hcontroller.symm.trans hj)
      refine ⟨{ c with finished := true }, ?_, hload, hsignal, fun hm => ?_, ?_⟩
      · exact (Hook.getElem?_setCall hc _ i).trans (if_pos rfl)
      · rw [if_pos ⟨hm, hsignal⟩] at hloading
        rw [hloading]
        exact iff_of_false Bool.false_ne_true (Ne.symm Bool.false_ne_true)
      · exact Hook.forall_setCall hc (fun k d _ => hg.stale k d) fun _ => .inl rfl
  · rw [if_neg fun hboth => hsignal hboth.2] at hloading
    refine hh.setCall hc { c with finished := true } rfl rfl rfl hloading rfl rfl fun hcontroller => ?_
    exact absurd (hh.governs hcontroller hc).signal hsignal

theorem governed_step {a : Action} (hh : Governed h) (hstep : step h a = some t) : Governed t := by
  cases step_sound hstep with
  | render props => exact hh.congr rfl rfl id rfl
  | loadNone => exact hh
  | load props timestamp => exact governed_load hh props timestamp
  | preloadNone => exact hh
  | preload props timestamp => exact governed_preload hh props timestamp
  | fetched hr hc => exact hh.setCall hc _ rfl rfl rfl rfl rfl rfl fun _ => rfl
  | failed hr hc => exact hh.setCall hc _ rfl rfl rfl rfl rfl rfl fun _ => rfl
  | remove hc => exact hh.setCall hc _ rfl rfl rfl rfl rfl rfl fun _ => rfl
  | race hc => exact hh.setCall hc _ rfl rfl rfl rfl rfl rfl fun _ => rfl
  | all hc => exact hh.setCall hc _ rfl rfl rfl rfl rfl rfl fun _ => rfl
  | publish hc _ _ hload => exact governed_publish hh hc hload
  | finish hc _ _ hpreload =>
    refine hh.setCall hc _ rfl rfl rfl rfl rfl rfl fun hcontroller => ?_
    have hload := (hh.governs hcontroller hc).load
    rw [hpreload] at hload
    cases hload
  | unmount => exact hh.congr rfl rfl (fun hm => absurd hm Bool.false_ne_true) rfl

theorem Governs.latestLoad (hg : Governs h j c) : h.latestLoad = some c := by
  obtain ⟨hj, hc⟩ := List.getElem?_eq_some_iff.mp hg.call
  have hsplit : h.calls = h.calls.take j ++ [c] ++ h.calls.drop (j + 1) := by
    rw [← hc, List.append_assoc, List.singleton_append, ← List.drop_eq_getElem_cons hj, List.take_append_drop]
  have hrest : (h.calls.drop (j + 1)).filter (fun d => d.callback = .loadFrames) = [] := by
    apply List.filter_eq_nil_iff.mpr
    intro d hd hload
    obtain ⟨k, hk⟩ := List.mem_iff_getElem?.mp hd
    rw [List.getElem?_drop] at hk
    rcases hg.stale _ d hk (of_decide_eq_true hload) with hlast | ⟨hbefore, -⟩ <;> omega
  have hself : [c].filter (fun d => d.callback = .loadFrames) = [c] := by simp [hg.load]
  rw [Hook.latestLoad, hsplit, List.filter_append, List.filter_append, hrest, hself, List.append_nil,
    List.getLast?_concat]

theorem Governed.latestLoad (hh : Governed h) (hnone : h.abortController = none) : h.latestLoad = none := by
  have hloads : h.calls.filter (fun d => d.callback = .loadFrames) = [] := by
    apply List.filter_eq_nil_iff.mpr
    intro d hd hload
    obtain ⟨k, hk⟩ := List.mem_iff_getElem?.mp hd
    have hpreload := (hh.idle hnone).2 k d hk
    rw [of_decide_eq_true hload] at hpreload
    cases hpreload
  rw [Hook.latestLoad, hloads]
  rfl

theorem isLoading_iff_latestLoad {props : UseMcapFramesOptions} {as : List Action}
    (h : run step (.mount props) as = some t) (hmounted : t.mounted = true) :
    t.isLoading = true ↔ ∃ c ∈ t.latestLoad, c.finished = false := by
  have hgoverned : Governed t := invariant_run Governed (fun _ _ _ => governed_step) (governed_mount props) h
  cases hcontroller : t.abortController with
  | none =>
    rw [(hgoverned.idle hcontroller).1, hgoverned.latestLoad hcontroller]
    refine iff_of_false Bool.false_ne_true ?_
    rintro ⟨c, hc, -⟩
    cases hc
  | some j =>
    obtain ⟨c, hc⟩ := hgoverned.owner j hcontroller
    rw [hc.latestLoad]
    simp only [Option.mem_some_iff, exists_eq_left']
    exact hc.flag hmounted

def overlapping : List Action :=
  [.loadFrames (front "ep-1") 0, .loadFrames (front "ep-1") 1000000000, .settle 0 0 true, .remove 0 0, .resume 0,
    .finish 0]

theorem isLoading_iff_latestLoad_overlapping :
    ∃ t, run step (.mount (front "ep-1")) overlapping = some t ∧ t.isLoading = true ∧
      ∃ c ∈ t.latestLoad, c.finished = false := by
  have hrun : (run step (.mount (front "ep-1")) overlapping).any (fun t => t.mounted && t.isLoading) := by
    decide +kernel
  obtain ⟨t, ht, hflags⟩ := (Option.any_eq_true _ _).mp hrun
  obtain ⟨hmounted, hloading⟩ := (Bool.and_eq_true _ _).mp hflags
  exact ⟨t, ht, hloading, (isLoading_iff_latestLoad ht hmounted).mp hloading⟩

end Embedai.McapFrames
