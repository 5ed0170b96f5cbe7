import Embedai.McapFramesSteps

namespace Embedai.McapFrames

open RunWithConcurrency TransitionSystems

def KeepsUrl (h : Hook) : Action → Prop
  | .settle i task true => h.mounted ∧ ∀ r ∈ h.requests, r.call = i → r.task = task →
    h.cache.get? (cacheKey r.options.topic r.options.timestamp) = none
  | _ => True

instance (h : Hook) : DecidablePred (KeepsUrl h)
  | .settle i task true => inferInstanceAs (Decidable (h.mounted ∧ ∀ r ∈ h.requests, r.call = i → r.task = task →
      h.cache.get? (cacheKey r.options.topic r.options.timestamp) = none))
  | .settle _ _ false => inferInstanceAs (Decidable True)
  | .render _ | .loadFrames .. | .preloadFrames .. | .remove .. | .resume _ | .finish _ | .unmount =>
    inferInstanceAs (Decidable True)

def Tracked (h : Hook) : Prop :=
  ∀ blobUrl ∈ h.created, if h.mounted then ∃ key, h.cache.get? key = some blobUrl else blobUrl ∈ h.revoked

structure Numbered (h : Hook) : Prop where
  fits : h.Fits
  serial : ∀ blobUrl ∈ h.created, blobUrl.serial < h.created.length
  cache : ∀ key blobUrl, h.cache.get? key = some blobUrl → blobUrl ∈ h.created
  revoked : ∀ blobUrl ∈ h.revoked, blobUrl ∈ h.created

structure SameUrls (h t : Hook) : Prop where
  mounted : t.mounted = h.mounted
  cache : t.cache = h.cache
  created : t.created = h.created
  revoked : t.revoked = h.revoked

theorem SameUrls.tracked {h t : Hook} (hsame : SameUrls h t) : Tracked t ↔ Tracked h := by
  unfold Tracked
  rw [hsame.created, hsame.mounted, hsame.cache, hsame.revoked]

theorem urls_step {h t : Hook} {a : Action} (hstep : step h a = some t) :
    (∃ r c, r ∈ h.requests ∧ a = .settle r.call r.task true ∧ t = h.fetched r c) ∨
    (a = .unmount ∧ h.mounted ∧ t = { h with mounted := false, revoked := h.cache.values }) ∨
    (SameUrls h t ∧ KeepsUrl h a) := by
  cases step_sound hstep with
  | @fetched r c hr hc => exact .inl ⟨r, c, hr, rfl, rfl⟩
  | unmount hmounted => exact .inr (.inl ⟨rfl, hmounted, rfl⟩)
  | load props timestamp =>
    obtain ⟨calls, isLoading, he, -, -⟩ := h.supersede_eq
    rw [he]
    exact .inr (.inr ⟨⟨rfl, rfl, rfl, rfl⟩, trivial⟩)
  | publish =>
    obtain ⟨frames, isLoading, he⟩ := Hook.publish_eq _ _
    rw [he]
    exact .inr (.inr ⟨⟨rfl, rfl, rfl, rfl⟩, trivial⟩)
  | _ => exact .inr (.inr ⟨⟨rfl, rfl, rfl, rfl⟩, trivial⟩)

theorem numbered_mount (props : UseMcapFramesOptions) : Numbered (Hook.mount props) :=
  ⟨Hook.fits_mount props, nofun, nofun, nofun⟩

theorem Numbered.fresh {h : Hook} (hh : Numbered h) {blobUrl : BlobUrl} (hmem : blobUrl ∈ h.created)
    (episodeId : String) (options : FrameOptions) : blobUrl ≠ ⟨h.created.length, episodeId, options⟩ := by
  rintro rfl
  exact Nat.lt_irrefl _ (hh.serial _ hmem)

theorem numbered_step {h t : Hook} {a : Action} (hh : Numbered h) (hstep : step h a = some t) : Numbered t := by
  have hfits := fits_step hh.fits hstep
  rcases urls_step hstep with ⟨r, c, hr, -, rfl⟩ | ⟨-, -, rfl⟩ | ⟨hsame, -⟩
  · refine ⟨hfits, fun blobUrl hmem => ?_, fun key blobUrl hurl => ?_, fun blobUrl hmem => ?_⟩
    · change blobUrl.serial < (h.created ++ [_]).length
      rw [List.length_append, List.length_singleton]
      rcases List.mem_append.mp hmem with hold | hnew
      · exact (hh.serial blobUrl hold).trans (Nat.lt_succ_self _)
      · rw [List.mem_singleton.mp hnew]
        exact Nat.lt_succ_self _
    · change (h.cache.set _ _).get? key = some blobUrl at hurl
      rw [OrderedDict.get?_set] at hurl
      split_ifs at hurl
      · cases hurl
        exact List.mem_append_right _ (List.mem_singleton_self _)
      · exact List.mem_append_left _ (hh.cache key blobUrl hurl)
    · exact List.mem_append_left _ (hh.revoked blobUrl hmem)
  · refine ⟨hfits, hh.serial, hh.cache, fun blobUrl hmem => ?_⟩
    obtain ⟨key, hurl⟩ := OrderedDict.mem_values.mp hmem
    exact hh.cache key blobUrl hurl
  · refine ⟨hfits, ?_, ?_, ?_⟩
    · rw [hsame.created]
      exact hh.serial
    · rw [hsame.cache, hsame.created]
      exact hh.cache
    · rw [hsame.revoked, hsame.created]
      exact hh.revoked

theorem tracked_fetched {h : Hook} {r : FrameRequest} (hh : Numbered h) (c : Call) :
    Tracked (h.fetched r c) ↔
      Tracked h ∧ h.mounted ∧ h.cache.get? (cacheKey r.options.topic r.options.timestamp) = none := by
  let key := cacheKey r.options.topic r.options.timestamp
  let blobUrl : BlobUrl := ⟨h.created.length, r.episodeId, r.options⟩
  have hfresh (old : BlobUrl) (hold : old ∈ h.created) : old ≠ blobUrl := hh.fresh hold _ _
  have hget (key' : String) : (h.cache.set key blobUrl).get? key' =
      if key' = key then some blobUrl else h.cache.get? key' := OrderedDict.get?_set ..
  have htracked : Tracked (h.fetched r c) ↔ ∀ old ∈ h.created ++ [blobUrl],
      if h.mounted then ∃ key', (h.cache.set key blobUrl).get? key' = some old else old ∈ h.revoked := Iff.rfl
  rw [htracked]
  constructor
  · intro hall
    have hmounted : h.mounted = true := by
      by_contra hunmounted
      have hrevoked := hall blobUrl (List.mem_append_right _ (List.mem_singleton_self _))
      rw [if_neg hunmounted] at hrevoked
      exact hfresh blobUrl (hh.revoked blobUrl hrevoked) rfl
    have hkept (old : BlobUrl) (hold : old ∈ h.created) : ∃ key', key' ≠ key ∧ h.cache.get? key' = some old := by
      have hcached := hall old (List.mem_append_left _ hold)
      rw [if_pos hmounted] at hcached
      obtain ⟨key', hkey'⟩ := hcached
      rw [hget] at hkey'
      split_ifs at hkey' with hne
      · exact absurd (Option.some.inj hkey').symm (hfresh old hold)
      · exact ⟨key', hne, hkey'⟩
    refine ⟨fun old hold => ?_, hmounted, ?_⟩
    · obtain ⟨key', -, hkey'⟩ := hkept old hold
      rw [if_pos hmounted]
      exact ⟨key', hkey'⟩
    · -- an entry of the key would be that of a URL that stays cached, which is under the key too
      by_contra hsome
      obtain ⟨old, hold⟩ := Option.ne_none_iff_exists'.mp hsome
      obtain ⟨key', hne, hkey'⟩ := hkept old (hh.cache key old hold)
      exact hne ((hh.fits.cache key' old hkey').symm.trans (hh.fits.cache key old hold))
  · rintro ⟨hall, hmounted, hnone⟩ old hmem
    rw [if_pos hmounted]
    rcases List.mem_append.mp hmem with hold | hnew
    · have hcached := hall old hold
      rw [if_pos hmounted] at hcached
      obtain ⟨key', hkey'⟩ := hcached
      refine ⟨key', ?_⟩
      rw [hget, if_neg, hkey']
      rintro rfl
      rw [hnone] at hkey'
      cases hkey'
    · rw [List.mem_singleton.mp hnew]
      exact ⟨key, (hget key).trans (if_pos rfl)⟩

theorem tracked_step {h t : Hook} {a : Action} (hh : Numbered h) (hstep : step h a = some t) :
    Tracked t ↔ Tracked h ∧ KeepsUrl h a := by
  rcases urls_step hstep with ⟨r, c, hr, rfl, rfl⟩ | ⟨rfl, hmounted, rfl⟩ | ⟨hsame, hkeeps⟩
  · rw [tracked_fetched hh]
    refine and_congr_right fun _ => and_congr_right fun _ => ⟨fun hnone r' hr' hcall htask => ?_, fun hall => ?_⟩
    · -- a task has asked for one topic
      obtain ⟨d, hd, hmade⟩ := hh.fits.requests r hr
      obtain ⟨d', hd', hmade'⟩ := hh.fits.requests r' hr'
      rw [hcall, hd, Option.some.injEq] at hd'
      subst hd'
      have htopic := hmade'.topic
      rw [htask, hmade.topic, Option.some.injEq] at htopic
      rw [← htopic, hmade'.timestamp, ← hmade.timestamp]
      exact hnone
    · exact hall r hr rfl rfl
  · refine Iff.trans (forall₂_congr fun blobUrl _ => ?_) (and_iff_left trivial).symm
    rw [if_pos hmounted]
    exact OrderedDict.mem_values
  · exact hsame.tracked.trans (and_iff_left hkeeps).symm

theorem urls_revoked (props : UseMcapFramesOptions) (as : List Action) (t : Hook)
    (hrun : run step (Hook.mount props) as = some t) (hunmounted : t.mounted = false) :
    (∀ blobUrl ∈ t.created, blobUrl ∈ t.revoked) ↔ Along step KeepsUrl (Hook.mount props) as := by
  have htracked : Tracked t ↔ ∀ blobUrl ∈ t.created, blobUrl ∈ t.revoked := by
    unfold Tracked
    simp only [hunmounted, Bool.false_eq_true, if_false]
  rw [← htracked]
  exact iff_along Numbered Tracked (fun _ _ _ => numbered_step) (fun _ _ _ => tracked_step) (numbered_mount props)
    (fun _ hmem => absurd hmem List.not_mem_nil) hrun

def loadFront : Action := .loadFrames (front "ep-1") 0

theorem urls_revoked_oneFrame :
    ∃ t, run step (Hook.mount (front "ep-1")) [loadFront, .settle 0 0 true, .unmount] = some t ∧
      ∀ blobUrl ∈ t.created, blobUrl ∈ t.revoked := by
  have hrun : (run step (Hook.mount (front "ep-1")) [loadFront, .settle 0 0 true, .unmount]).any
      (fun t => !t.mounted) := by decide +kernel
  obtain ⟨t, ht, hunmounted⟩ := (Option.any_eq_true _ _).mp hrun
  rw [Bool.not_eq_true'] at hunmounted
  exact ⟨t, ht, (urls_revoked (front "ep-1") _ t ht hunmounted).mpr (by decide +kernel)⟩

def Leaks (t : Hook) : Prop :=
  t.mounted = false ∧ t.requests = [] ∧ ¬ ∀ blobUrl ∈ t.created, blobUrl ∈ t.revoked

instance (t : Hook) : Decidable (Leaks t) :=
  inferInstanceAs (Decidable (_ ∧ _ ∧ ¬ ∀ blobUrl ∈ t.created, blobUrl ∈ t.revoked))

theorem overwritten_url_leaks :
    (∃ t, run step (Hook.mount (front "ep-1"))
      [loadFront, loadFront, .settle 0 0 true, .settle 1 0 true, .unmount] = some t ∧ Leaks t) ∧
    ∃ t, run step (Hook.mount (front "ep-1")) [loadFront, .unmount, .settle 0 0 true] = some t ∧ Leaks t := by
  have htwice : (run step (Hook.mount (front "ep-1"))
      [loadFront, loadFront, .settle 0 0 true, .settle 1 0 true, .unmount]).any (fun t => Leaks t) := by decide +kernel
  have hlate : (run step (Hook.mount (front "ep-1")) [loadFront, .unmount, .settle 0 0 true]).any
      (fun t => Leaks t) := by decide +kernel
  obtain ⟨t, ht, htleaks⟩ := (Option.any_eq_true _ _).mp htwice
  obtain ⟨u, hu, huleaks⟩ := (Option.any_eq_true _ _).mp hlate
  exact ⟨⟨t, ht, of_decide_eq_true htleaks⟩, u, hu, of_decide_eq_true huleaks⟩

end Embedai.McapFrames
