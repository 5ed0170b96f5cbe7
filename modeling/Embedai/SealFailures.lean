import Embedai.StreamDurability

namespace Embedai.StreamServer

open Gateway Handlers

def Orphan (g : Stores) (id : String) : Prop :=
  ∃ ep, g.episodes.get? id = some ep ∧ ep.status = .processing ∧
    ¬ ∃ path, ep.storagePath = some path ∧ (g.objects path).isSome

structure SealUndone (buf buf' : FrameBuffer) (g t : Stores) : Prop where
  frames : buf'.frames = buf.frames
  episodes : ∀ id, Orphan t id → Orphan g id

def CreationRefused (calls : SealCalls) (g : Stores) : Prop :=
  calls.fails .createEpisodeFromStream = true ∨ calls.episodeId ∈ g.episodes.keys

variable {calls : SealCalls} {sessionId : String} {data : List UInt8} {g t : Stores} {e : SealError}

theorem createEpisodeFromStream_eq_none {id projectId filename format : String} {sizeBytes : ℤ} :
    createEpisodeFromStream id projectId filename format sizeBytes sessionId g = none ↔ id ∈ g.episodes.keys := by
  simp only [createEpisodeFromStream, dite_eq_left_iff, reduceCtorEq, imp_false,
    not_not]

theorem orphan_of_created {ep : Episode} {id : String} (hrow : t.episodes.get? id = some ep)
    (hstatus : ep.status = .processing) (hpath : ep.storagePath = none) : Orphan t id := by
  refine ⟨ep, hrow, hstatus, ?_⟩
  rintro ⟨path, hsome, -⟩
  rw [hpath] at hsome
  cases hsome

theorem not_orphan_of_fresh {id : String} (h : id ∉ g.episodes.keys) : ¬ Orphan g id := by
  rintro ⟨ep, hrow, -⟩
  exact h (OrderedDict.mem_keys.mpr ⟨ep, hrow⟩)

theorem storeEpisode_error (h : answer (storeEpisode calls sessionId data) g = (.error e, t)) :
    (t = g ∧ CreationRefused calls g) ∨
      (¬ CreationRefused calls g ∧ ¬ Orphan g calls.episodeId ∧ Orphan t calls.episodeId) := by
  simp only [storeEpisode, answer_bind_eq_error, answer_attempt_eq_error, answer_attempt_eq_ok, answer_pure,
    answer_modify, createEpisodeFromStream_eq_some, createEpisodeFromStream_eq_none] at h
  rcases h with ⟨hrefused, -, rfl⟩ | ⟨_, s, ⟨hcreate, hfresh, rfl⟩, h⟩
  · exact Or.inl ⟨rfl, hrefused⟩
  · have haccepted : ¬ CreationRefused calls g := by simp [CreationRefused, hcreate, hfresh]
    have hrow := fun ep => (OrderedDict.get?_append g.episodes _ calls.episodeId ep hfresh).trans (if_pos rfl)
    refine Or.inr ⟨haccepted, not_orphan_of_fresh hfresh, ?_⟩
    rcases h with ⟨-, -, rfl⟩ | ⟨_, s, ⟨-, hput⟩, h⟩
    · exact orphan_of_created (hrow _) rfl rfl
    · cases hput
      rcases h with ⟨-, -, rfl⟩ | ⟨_, s, -, h⟩
      · exact orphan_of_created (hrow _) rfl rfl
      · simp at h

variable {marshal : StreamFrame → Option (List UInt8)} {buf : FrameBuffer}

theorem serialize_eq_none (sorted : SeqSort) :
    buf.serialize marshal sorted = none ↔ ∃ f ∈ buf.frames, marshal f = none := by
  constructor
  · intro hnone
    by_contra hall
    have hsorted : ∀ f ∈ sorted.sort buf.frames, (marshal f).isSome := by
      intro f hf
      rw [(sorted.perm buf.frames).mem_iff] at hf
      exact Option.isSome_iff_ne_none.mpr fun hf' => hall ⟨f, hf, hf'⟩
    obtain ⟨data, hdata⟩ := encode_isSome hsorted
    rw [FrameBuffer.serialize, hdata] at hnone
    cases hnone
  · rintro ⟨f, hf, hnone⟩
    cases hdata : buf.serialize marshal sorted with
    | none => rfl
    | some data =>
      obtain ⟨parts, hparts, -⟩ := Option.map_eq_some_iff.mp hdata
      obtain ⟨part, -, hpart⟩ := ListMaps.exists_mem_mapM hparts ((sorted.perm buf.frames).mem_iff.mpr hf)
      rw [record, hnone] at hpart
      cases hpart

theorem failed_seal_undone (marshal : StreamFrame → Option (List UInt8)) (sorted : SeqSort) (calls : SealCalls)
    (buf buf' : FrameBuffer) (sessionId : String) (g t : Stores) (e : SealError)
    (h : sealEpisode marshal sorted calls buf sessionId g = (.error e, buf', t)) :
    SealUndone buf buf' g t ↔
      (∃ f ∈ buf.frames, marshal f = none) ∨ (buf.frames = [] ∧ CreationRefused calls g) := by
  rw [← serialize_eq_none sorted]
  unfold sealEpisode at h
  cases hdata : buf.serialize marshal sorted with
  | none =>
    rw [hdata] at h
    cases h
    exact ⟨fun _ => Or.inl rfl, fun _ => ⟨rfl, fun _ h => h⟩⟩
  | some data =>
    rw [hdata, Prod.mk.injEq, Prod.mk.injEq] at h
    obtain ⟨herror, rfl, ht⟩ := h
    have hsome : ¬ (some data = none) := nofun
    rw [or_iff_right hsome]
    rcases storeEpisode_error (Prod.ext herror ht) with ⟨rfl, hrefused⟩ | ⟨haccepted, hbefore, hafter⟩
    · exact ⟨fun hundone => ⟨hundone.frames.symm, hrefused⟩, fun h => ⟨h.1.symm, fun _ h => h⟩⟩
    · exact ⟨fun hundone => absurd (hundone.episodes _ hafter) hbefore, fun h => absurd h.2 haccepted⟩

def oneFrame : FrameBuffer := ⟨[frameAt 1 7 [1, 2, 3] false], window, 1⟩

def brokenStorage : SealCalls := ⟨fun c => c = .putObject, "e", 0⟩

theorem failed_seal_undone_oneFrame :
    sealEpisode (fun _ => none) mergeSeqSort workingCalls oneFrame "s-1" emptyStores =
        (.error .serialize, oneFrame, emptyStores) ∧
      SealUndone oneFrame oneFrame emptyStores emptyStores := by
  have hseal : sealEpisode (fun _ => none) mergeSeqSort workingCalls oneFrame "s-1" emptyStores =
      (.error .serialize, oneFrame, emptyStores) := by
    simp [sealEpisode, FrameBuffer.serialize, encode, record, mergeSeqSort, oneFrame]
  exact ⟨hseal, (failed_seal_undone _ _ _ _ _ _ _ _ _ hseal).mpr (Or.inl ⟨_, List.mem_singleton_self _, rfl⟩)⟩

theorem failed_seal_loses_oneFrame :
    ∃ buf t, sealEpisode protoMarshal mergeSeqSort brokenStorage oneFrame "s-1" emptyStores =
        (.error .putObject, buf, t) ∧
      buf.frames = [] ∧ Orphan t "e" ∧ ¬ SealUndone oneFrame buf emptyStores t := by
  have hdata : oneFrame.serialize protoMarshal mergeSeqSort =
      record protoMarshal (frameAt 1 7 [1, 2, 3] false) := by
    simp [FrameBuffer.serialize, encode, record, protoMarshal, mergeSeqSort, oneFrame]
  obtain ⟨t, hseal, hrow⟩ : ∃ t, sealEpisode protoMarshal mergeSeqSort brokenStorage oneFrame "s-1" emptyStores =
      (.error .putObject, oneFrame.reset, t) ∧ ∃ ep, t.episodes.get? "e" = some ep ∧ ep.status = .processing ∧
        ep.storagePath = none := by
    rw [sealEpisode, hdata]
    exact ⟨_, rfl, _, rfl, rfl, rfl⟩
  obtain ⟨ep, hrow, hstatus, hpath⟩ := hrow
  refine ⟨oneFrame.reset, t, hseal, rfl, orphan_of_created hrow hstatus hpath, fun hundone => ?_⟩
  cases hundone.frames

end Embedai.StreamServer
