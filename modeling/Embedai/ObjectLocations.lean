import Embedai.StreamSteps
import Embedai.UploadSteps

/-!
Where the gateway stores an episode, and where each reader looks for it. The gateway, the pipeline and the dataset
service have their bucket configured; the export worker's loader takes it from the path.
-/

namespace Embedai.ObjectLocations

open Gateway Handlers StreamServer

structure Location where
  bucket : String
  key : String
  deriving DecidableEq

def storedAt (bucket destPath : String) : Location := ⟨bucket, destPath⟩

def downloadTemp (bucket storagePath : String) : Location := ⟨bucket, storagePath⟩

def downloadToFile (bucket storagePath : String) : Location := ⟨bucket, storagePath⟩

def partitionSlash (s : String) : String × String :=
  (String.ofList (s.toList.takeWhile (· ≠ '/')), String.ofList ((s.toList.dropWhile (· ≠ '/')).drop 1))

/-- An empty path is not looked up. -/
def loadLocation (storagePath : String) : Option Location :=
  if storagePath = "" then none else some ⟨(partitionSlash storagePath).1, (partitionSlash storagePath).2⟩

def ReadersAgree (bucket path : String) : Prop :=
  downloadTemp bucket path = storedAt bucket path ∧ downloadToFile bucket path = storedAt bucket path ∧
    loadLocation path = some (storedAt bucket path)

instance (bucket path : String) : Decidable (ReadersAgree bucket path) :=
  inferInstanceAs (Decidable (_ ∧ _ ∧ _))

def Located (g : Stores) (episodeId path : String) : Prop :=
  ∃ ep, g.episodes.get? episodeId = some ep ∧ ep.storagePath = some path ∧ (g.objects path).isSome

theorem length_partitionSlash {s : String} (h : s ≠ "") : (partitionSlash s).2.toList.length < s.toList.length := by
  have hpos : 0 < s.toList.length := List.length_pos_of_ne_nil (fun hn => h (String.toList_eq_nil_iff.mp hn))
  have hle : (s.toList.dropWhile (· ≠ '/')).length ≤ s.toList.length := (List.dropWhile_sublist _).length_le
  rw [partitionSlash, String.toList_ofList, List.length_drop]
  omega

theorem loadLocation_ne (bucket path : String) : loadLocation path ≠ some (storedAt bucket path) := by
  unfold loadLocation
  split_ifs with h
  · exact nofun
  · intro he
    rw [Option.some.injEq, storedAt, Location.mk.injEq] at he
    have hlt := length_partitionSlash h
    rw [he.2] at hlt
    omega

theorem located_complete {fails : Call → Bool} {sessionId : String} {g t : Stores} {r : CompleteResponse}
    (h : answer (complete fails sessionId) g = (.ok r, t)) : Located t r.episodeId r.storagePath := by
  obtain ⟨sess, ep, parts, ⟨-, -, -, hep, -⟩, -, rfl, rfl⟩ := complete_eq_ok.mp h
  refine ⟨placeEpisode (storagePath sess.episodeId ep.filename) ep, ?_, ?_, ?_⟩
  · simp only [closeUpload, OrderedDict.get?_modify, if_true, hep, Option.map_some]
  · rw [placeEpisode, storagePath, String.append_assoc]
    exact nullIfEmpty_episodes sess.episodeId ("/" ++ ep.filename)
  · simp only [closeUpload, Function.update_self, Option.isSome_some]

theorem located_seal {calls : SealCalls} {sessionId id : String} {data : List UInt8} {g t : Stores}
    (h : answer (storeEpisode calls sessionId data) g = (.ok id, t)) : Located t id (streamPath id) := by
  obtain ⟨rfl, hstored⟩ := stored_of_ok h
  refine ⟨sealedEpisode calls sessionId data, ?_, ?_, ?_⟩
  · rw [hstored.episodes, if_pos rfl]
  · exact nullIfEmpty_episodes calls.episodeId "/stream.bin"
  · rw [hstored.objects, Function.update_self, Option.isSome_some]

theorem readers_disagree (bucket : String) :
    (∀ fails sessionId g r t, answer (complete fails sessionId) g = (.ok r, t) →
      Located t r.episodeId r.storagePath ∧ ¬ ReadersAgree bucket r.storagePath) ∧
    (∀ calls sessionId data g id t, answer (storeEpisode calls sessionId data) g = (.ok id, t) →
      Located t id (streamPath id) ∧ ¬ ReadersAgree bucket (streamPath id)) ∧
    ∀ id filename, ¬ ReadersAgree bucket (storagePath id filename) ∧ ¬ ReadersAgree bucket (streamPath id) := by
  have hnone : ∀ path, ¬ ReadersAgree bucket path := fun path h => loadLocation_ne bucket path h.2.2
  refine ⟨?_, ?_, ?_⟩
  · intro fails sessionId g r t h
    exact ⟨located_complete h, hnone _⟩
  · intro calls sessionId data g id t h
    exact ⟨located_seal h, hnone _⟩
  · intro id filename
    exact ⟨hnone _, hnone _⟩

def labProject : String := "00000000-0000-0000-0000-000000000002"

def oneChunkUploaded : Stores :=
  { emptyStores with
    episodes :=
      OrderedDict.empty.append "ep-1" ⟨labProject, "run.mcap", "mcap", 1, .uploading, none, .obj []⟩
        List.not_mem_nil
    sessions := OrderedDict.empty.append "s-1" ⟨"ep-1", 1, 1, uploadChunkSize, "", .inProgress, 0⟩ List.not_mem_nil
    objects := fun key => if key = chunkKey "s-1" 0 then some [7] else none }

theorem complete_oneChunkUploaded :
    ∃ t, answer (complete (fun _ => false) "s-1") oneChunkUploaded =
      (.ok ⟨"ep-1", storagePath "ep-1" "run.mcap", "processing"⟩, t) :=
  ⟨_, complete_eq_ok.mpr ⟨_, _, [[7]], ⟨rfl, rfl, rfl, rfl, rfl⟩, ⟨rfl, rfl, rfl, rfl, rfl⟩, rfl, rfl⟩⟩

def sealCalls : SealCalls := ⟨fun _ => false, "ep-2", 1⟩

theorem readers_disagree_twoEpisodes :
    (∃ t, Located t "ep-1" "episodes/ep-1/run.mcap" ∧ ¬ ReadersAgree "episodes" "episodes/ep-1/run.mcap") ∧
      ∃ t, Located t "ep-2" "episodes/ep-2/stream.bin" ∧ ¬ ReadersAgree "episodes" "episodes/ep-2/stream.bin" := by
  obtain ⟨t, ht⟩ := complete_oneChunkUploaded
  have hworks : sealCalls.Work emptyStores := ⟨rfl, rfl, rfl, List.not_mem_nil⟩
  obtain ⟨u, hu⟩ := storeEpisode_of_work "" [7] hworks
  exact ⟨⟨t, (readers_disagree "episodes").1 _ _ _ _ t ht⟩, u, (readers_disagree "episodes").2.1 _ _ _ _ _ u hu⟩

theorem loader_misses_upload :
    ¬ ∀ bucket id filename, ReadersAgree bucket (storagePath id filename) ∧ ReadersAgree bucket (streamPath id) := by
  intro h
  exact absurd (h "episodes" "ep-1" "run.mcap").1 (by decide)

end Embedai.ObjectLocations
