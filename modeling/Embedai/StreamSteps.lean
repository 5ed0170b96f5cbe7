import Embedai.StreamServer

namespace Embedai.StreamServer

open Gateway Handlers

theorem createEpisodeFromStream_eq_some {id projectId filename format sessionId : String} {sizeBytes : ℤ}
    {g t : Stores} {u : Unit} :
    createEpisodeFromStream id projectId filename format sizeBytes sessionId g = some (u, t) ↔
      ∃ h : id ∉ g.episodes.keys, t = { g with
        episodes := g.episodes.append id ⟨projectId, filename, format, sizeBytes, .processing, none,
          .obj [("recording_session_id", .str sessionId)]⟩ h } := by
  simp only [createEpisodeFromStream, Option.dite_none_left_eq_some, Option.some.injEq, Prod.mk.injEq, true_and,
    @eq_comm _ t]

def sealedEpisode (calls : SealCalls) (sessionId : String) (data : List UInt8) : Episode :=
  ⟨"", streamFilename sessionId calls.unixNano, "mcap", data.length, .processing,
    nullIfEmpty (streamPath calls.episodeId), .obj [("recording_session_id", .str sessionId)]⟩

structure Stored (calls : SealCalls) (sessionId : String) (data : List UInt8) (g t : Stores) : Prop where
  fresh : calls.episodeId ∉ g.episodes.keys
  episodes : ∀ id, t.episodes.get? id =
    if id = calls.episodeId then some (sealedEpisode calls sessionId data) else g.episodes.get? id
  objects : t.objects = Function.update g.objects (streamPath calls.episodeId) (some data)
  sessions : t.sessions = g.sessions
  events : t.events = if calls.fails .publish then g.events
    else g.events ++ [⟨calls.episodeId, streamPath calls.episodeId, "mcap"⟩]

theorem stored_of_ok {calls : SealCalls} {sessionId id : String} {data : List UInt8} {g t : Stores}
    (h : answer (storeEpisode calls sessionId data) g = (.ok id, t)) :
    id = calls.episodeId ∧ Stored calls sessionId data g t := by
  simp only [storeEpisode, answer_bind_eq_ok, answer_attempt_eq_ok, answer_pure, answer_modify,
    createEpisodeFromStream_eq_some, Prod.mk.injEq, Except.ok.injEq] at h
  obtain ⟨_, _, ⟨-, hfresh, rfl⟩, _, _, ⟨-, hput⟩, _, _, ⟨-, hupdate⟩, _, _, ⟨-, rfl⟩, rfl, rfl⟩ := h
  cases hput
  cases hupdate
  refine ⟨rfl, hfresh, ?_, ?_, ?_, ?_⟩
  · intro id
    by_cases hid : id = calls.episodeId <;> cases calls.fails .publish <;>
      simp [publishEpisodeIngested, OrderedDict.get?_modify, OrderedDict.get?_append, hid, sealedEpisode]
  all_goals cases calls.fails .publish <;> rfl

def SealCalls.Work (calls : SealCalls) (g : Stores) : Prop :=
  calls.fails .createEpisodeFromStream = false ∧ calls.fails .putObject = false ∧
    calls.fails .updateEpisodeStatus = false ∧ calls.episodeId ∉ g.episodes.keys

theorem storeEpisode_of_work {calls : SealCalls} {g : Stores} (sessionId : String) (data : List UInt8)
    (h : calls.Work g) : ∃ t, answer (storeEpisode calls sessionId data) g = (.ok calls.episodeId, t) := by
  obtain ⟨hc, hp, hu, hfresh⟩ := h
  simp only [storeEpisode, answer_bind_eq_ok, answer_attempt_eq_ok, answer_pure, answer_modify,
    createEpisodeFromStream_eq_some, Prod.mk.injEq]
  exact ⟨_, (), _, ⟨hc, hfresh, rfl⟩, (), _, ⟨hp, rfl⟩, (), _, ⟨hu, rfl⟩, (), _, ⟨trivial, rfl⟩, trivial, rfl⟩

variable {marshal : StreamFrame → Option (List UInt8)}

theorem encode_isSome {frames : List StreamFrame} (h : ∀ f ∈ frames, (marshal f).isSome) :
    ∃ data, encode marshal frames = some data := by
  have hparts : ∃ parts, frames.mapM (record marshal) = some parts := by
    induction frames with
    | nil => exact ⟨[], rfl⟩
    | cons f frames ih =>
      obtain ⟨data, hdata⟩ := Option.isSome_iff_exists.mp (h f (List.mem_cons_self ..))
      obtain ⟨parts, hparts⟩ := ih (fun g hg => h g (List.mem_cons_of_mem _ hg))
      refine ⟨(lengthPrefix data.length ++ data) :: parts, ?_⟩
      rw [List.mapM_cons, record, hdata, hparts]
      rfl
  obtain ⟨parts, hparts⟩ := hparts
  exact ⟨parts.flatten, by rw [encode, hparts]; rfl⟩

theorem sealEpisode_of_work {calls : SealCalls} {buf : FrameBuffer} {g : Stores} (sorted : SeqSort) (sessionId : String)
    (hframes : ∀ f ∈ buf.frames, (marshal f).isSome) (h : calls.Work g) :
    ∃ data t, sealEpisode marshal sorted calls buf sessionId g = (.ok calls.episodeId, buf.reset, t) ∧
      buf.serialize marshal sorted = some data ∧ Stored calls sessionId data g t := by
  have hsorted : ∀ f ∈ sorted.sort buf.frames, (marshal f).isSome :=
    fun f hf => hframes f ((sorted.perm buf.frames).mem_iff.mp hf)
  obtain ⟨data, hdata⟩ := encode_isSome hsorted
  obtain ⟨t, ht⟩ := storeEpisode_of_work sessionId data h
  refine ⟨data, t, ?_, hdata, (stored_of_ok ht).2⟩
  rw [sealEpisode, FrameBuffer.serialize, hdata]
  simp only [ht]

end Embedai.StreamServer
