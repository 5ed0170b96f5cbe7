import Embedai.UploadHandler

namespace Embedai.Gateway

open Handlers

theorem checkInProgress_eq_ok {sess : UploadSession} {u : Unit} :
    checkInProgress sess = .ok u ↔ sess.status = .inProgress := by
  unfold checkInProgress
  split <;> simp [*]

theorem checkInRange_eq_ok {sess : UploadSession} {k : ℕ} {u : Unit} :
    checkInRange sess k = .ok u ↔ (k : ℤ) < sess.totalChunks := by
  unfold checkInRange
  split <;> simp <;> omega

theorem checkReceived_eq_ok {sess : UploadSession} {u : Unit} :
    checkReceived sess = .ok u ↔ sess.receivedChunks = sess.totalChunks := by
  unfold checkReceived
  split <;> simp [*]

theorem getUploadSession_eq_some {id : String} {g t : Stores} {sess : UploadSession} :
    getUploadSession id g = some (sess, t) ↔ g.sessions.get? id = some sess ∧ g = t := by
  simp [getUploadSession]

def countChunk (sess : UploadSession) : UploadSession := { sess with receivedChunks := sess.receivedChunks + 1 }

def storeChunk (sessionId : String) (k : ℕ) (body : List UInt8) (g : Stores) : Stores :=
  { g with
    objects := Function.update g.objects (chunkKey sessionId k) (some body)
    sessions := g.sessions.modify sessionId countChunk }

theorem uploadChunk_eq_ok {fails : Call → Bool} {sessionId n : String} {body : List UInt8} {g t : Stores} {k : ℕ} :
    answer (uploadChunk fails sessionId n body) g = (.ok k, t) ↔
      (chunkNumber n = .ok k ∧ ∃ sess, g.sessions.get? sessionId = some sess ∧ sess.status = .inProgress ∧
        (k : ℤ) < sess.totalChunks) ∧
      (fails .getUploadSession = false ∧ fails .uploadChunk = false ∧ fails .incrementReceivedChunks = false) ∧
      t = storeChunk sessionId k body g := by
  simp only [uploadChunk, answer_bind_eq_ok, answer_require_eq_ok, answer_attempt_eq_ok, answer_pure,
    getUploadSession_eq_some, checkInProgress_eq_ok, checkInRange_eq_ok, Prod.mk.injEq, Except.ok.injEq]
  constructor
  · rintro ⟨k', _, ⟨hn, rfl⟩, sess, _, ⟨hf, hs, rfl⟩, _, _, ⟨hst, rfl⟩, _, _, ⟨hr, rfl⟩, _, _, ⟨hp, hput⟩, _, _,
      ⟨hi, hinc⟩, rfl, rfl⟩
    cases hput
    cases hinc
    exact ⟨⟨hn, sess, hs, hst, hr⟩, ⟨hf, hp, hi⟩, rfl⟩
  · rintro ⟨⟨hn, sess, hs, hst, hr⟩, ⟨hf, hp, hi⟩, rfl⟩
    exact ⟨k, g, ⟨hn, rfl⟩, sess, g, ⟨hf, hs, rfl⟩, (), g, ⟨hst, rfl⟩, (), g, ⟨hr, rfl⟩, (), _, ⟨hp, rfl⟩, (), _,
      ⟨hi, rfl⟩, rfl, rfl⟩

theorem bindInit_eq_ok {req : InitRequest} {u : Unit} :
    bindInit req = .ok u ↔
      req.filename ≠ "" ∧ 1 ≤ req.sizeBytes ∧ (req.format = "mcap" ∨ req.format = "hdf5") := by
  have hsize : (if req.sizeBytes = 0 then [fieldError "SizeBytes" "required"]
      else if req.sizeBytes < 1 then [fieldError "SizeBytes" "min"] else []) = [] ↔ 1 ≤ req.sizeBytes := by
    split_ifs <;> simp <;> omega
  have hformat : (if req.format = "" then [fieldError "Format" "required"]
      else if req.format = "mcap" ∨ req.format = "hdf5" then [] else [fieldError "Format" "oneof"]) = [] ↔
        req.format = "mcap" ∨ req.format = "hdf5" := by
    split_ifs with hempty <;> simp [*]
  unfold bindInit
  split <;> simp_all [fieldErrors]

theorem createEpisode_eq_some {id projectId filename format : String} {sizeBytes : ℤ} {g t : Stores} {u : Unit} :
    createEpisode id projectId filename format sizeBytes g = some (u, t) ↔
      ∃ h : id ∉ g.episodes.keys, t = { g with
        episodes := g.episodes.append id ⟨projectId, filename, format, sizeBytes, .uploading, none, .obj []⟩ h } := by
  simp only [createEpisode, Option.dite_none_left_eq_some, Option.some.injEq, Prod.mk.injEq, true_and, @eq_comm _ t]

theorem createUploadSession_eq_some {id episodeId checksum : String} {totalChunks chunkSize expiresAt : ℤ}
    {g t : Stores} {u : Unit} :
    createUploadSession id episodeId totalChunks chunkSize checksum expiresAt g = some (u, t) ↔
      ∃ h : id ∉ g.sessions.keys, t = { g with
        sessions := g.sessions.append id
          ⟨episodeId, totalChunks, 0, chunkSize, checksum, .inProgress, expiresAt⟩ h } := by
  simp only [createUploadSession, Option.dite_none_left_eq_some, Option.some.injEq, Prod.mk.injEq, true_and,
    @eq_comm _ t]

theorem totalChunks_pos {sizeBytes : ℤ} (h : 1 ≤ sizeBytes) : 1 ≤ totalChunks sizeBytes := by
  have hpos : 0 < Float64.ofInt sizeBytes := Float64.ofInt_pos (by omega)
  unfold totalChunks uploadChunkSize
  omega

def openedEpisode (jwtProjectId : String) (req : InitRequest) : Episode :=
  ⟨if req.projectId = "" then jwtProjectId else req.projectId, req.filename, req.format, req.sizeBytes, .uploading,
    none, .obj []⟩

def openedSession (req : InitRequest) (episodeId : String) (now : ℤ) : UploadSession :=
  ⟨episodeId, totalChunks req.sizeBytes, 0, uploadChunkSize, req.checksum, .inProgress, now + 24 * 3600 * 10 ^ 9⟩

def openUpload (jwtProjectId : String) (req : InitRequest) (episodeId sessionId : String) (now : ℤ) (g : Stores)
    (he : episodeId ∉ g.episodes.keys) (hs : sessionId ∉ g.sessions.keys) : Stores :=
  { g with
    episodes := g.episodes.append episodeId (openedEpisode jwtProjectId req) he
    sessions := g.sessions.append sessionId (openedSession req episodeId now) hs }

theorem get?_sessions_openUpload {jwtProjectId : String} {req : InitRequest} {episodeId sessionId : String} {now : ℤ}
    {g : Stores} (he : episodeId ∉ g.episodes.keys) (hs : sessionId ∉ g.sessions.keys) :
    (openUpload jwtProjectId req episodeId sessionId now g he hs).sessions.get? sessionId =
      some (openedSession req episodeId now) := by
  rw [openUpload, OrderedDict.get?_append, if_pos rfl]

theorem get?_episodes_openUpload {jwtProjectId : String} {req : InitRequest} {episodeId sessionId : String} {now : ℤ}
    {g : Stores} (he : episodeId ∉ g.episodes.keys) (hs : sessionId ∉ g.sessions.keys) :
    (openUpload jwtProjectId req episodeId sessionId now g he hs).episodes.get? episodeId =
      some (openedEpisode jwtProjectId req) := by
  rw [openUpload, OrderedDict.get?_append, if_pos rfl]

theorem init_eq_ok {fails : Call → Bool} {jwtProjectId : String} {req : InitRequest} {episodeId sessionId : String}
    {now : ℤ} {g t : Stores} {r : InitResponse} :
    answer (init fails jwtProjectId req episodeId sessionId now) g = (.ok r, t) ↔
      bindInit req = .ok () ∧ (fails .createEpisode = false ∧ fails .createUploadSession = false) ∧
      r = ⟨episodeId, sessionId, uploadChunkSize, totalChunks req.sizeBytes⟩ ∧
      ∃ he hs, t = openUpload jwtProjectId req episodeId sessionId now g he hs := by
  simp only [init, answer_bind_eq_ok, answer_require_eq_ok, answer_attempt_eq_ok, answer_pure,
    createEpisode_eq_some, createUploadSession_eq_some, Prod.mk.injEq, Except.ok.injEq]
  constructor
  · rintro ⟨_, _, ⟨hb, rfl⟩, _, _, ⟨hf, he, rfl⟩, _, _, ⟨hf', hs, rfl⟩, rfl, rfl⟩
    exact ⟨hb, ⟨hf, hf'⟩, rfl, he, hs, rfl⟩
  · rintro ⟨hb, ⟨hf, hf'⟩, rfl, he, hs, rfl⟩
    exact ⟨(), g, ⟨hb, rfl⟩, (), _, ⟨hf, he, rfl⟩, (), _, ⟨hf', hs, rfl⟩, rfl, rfl⟩

theorem getEpisode_eq_some {id : String} {g t : Stores} {ep : Episode} :
    getEpisode id g = some (ep, t) ↔ g.episodes.get? id = some ep ∧ g = t := by
  simp [getEpisode]

theorem assembleChunks_eq_some {sessionId dest : String} {totalChunks : ℤ} {g t : Stores} {u : Unit} :
    assembleChunks sessionId totalChunks dest g = some (u, t) ↔
      ∃ parts, ((List.range totalChunks.toNat).map (chunkKey sessionId)).mapM g.objects = some parts ∧
        t = { g with objects := Function.update g.objects dest (some parts.flatten) } := by
  rw [assembleChunks, composeObject, Option.bind_eq_some_iff]
  simp only [putObject, Option.some.injEq, Prod.mk.injEq, true_and, @eq_comm _ t]

def closeSession (sess : UploadSession) : UploadSession := { sess with status := .completed }

def placeEpisode (path : String) (ep : Episode) : Episode :=
  { ep with status := .processing, storagePath := nullIfEmpty path }

def closeUpload (sessionId episodeId path format : String) (content : List UInt8) (unpublished : Bool) (g : Stores) :
    Stores :=
  { episodes := g.episodes.modify episodeId (placeEpisode path)
    sessions := g.sessions.modify sessionId closeSession
    objects := Function.update g.objects path (some content)
    events := if unpublished then g.events else g.events ++ [⟨episodeId, path, format⟩] }

theorem complete_eq_ok {fails : Call → Bool} {sessionId : String} {g t : Stores} {r : CompleteResponse} :
    answer (complete fails sessionId) g = (.ok r, t) ↔
      ∃ sess ep parts,
        (g.sessions.get? sessionId = some sess ∧ sess.status = .inProgress ∧ sess.receivedChunks = sess.totalChunks ∧
          g.episodes.get? sess.episodeId = some ep ∧
          ((List.range sess.totalChunks.toNat).map (chunkKey sessionId)).mapM g.objects = some parts) ∧
        (fails .getUploadSession = false ∧ fails .getEpisode = false ∧ fails .assembleChunks = false ∧
          fails .completeSession = false ∧ fails .updateEpisodeStatus = false) ∧
        r = ⟨sess.episodeId, storagePath sess.episodeId ep.filename, "processing"⟩ ∧
        t = closeUpload sessionId sess.episodeId (storagePath sess.episodeId ep.filename) ep.format parts.flatten
          (fails .publish) g := by
  simp only [complete, answer_bind_eq_ok, answer_require_eq_ok, answer_attempt_eq_ok, answer_pure, answer_modify,
    getUploadSession_eq_some, getEpisode_eq_some, assembleChunks_eq_some, checkInProgress_eq_ok, checkReceived_eq_ok,
    Prod.mk.injEq, Except.ok.injEq]
  constructor
  · rintro ⟨sess, _, ⟨hf, hs, rfl⟩, _, _, ⟨hst, rfl⟩, _, _, ⟨hr, rfl⟩, ep, _, ⟨hf', he, rfl⟩, _, _,
      ⟨ha, parts, hparts, rfl⟩, _, _, ⟨hc, hcomplete⟩, _, _, ⟨hu, hupdate⟩, _, _, ⟨-, rfl⟩, rfl, rfl⟩
    cases hcomplete
    cases hupdate
    refine ⟨sess, ep, parts, ⟨hs, hst, hr, he, hparts⟩, ⟨hf, hf', ha, hc, hu⟩, rfl, ?_⟩
    cases fails .publish <;> rfl
  · rintro ⟨sess, ep, parts, ⟨hs, hst, hr, he, hparts⟩, ⟨hf, hf', ha, hc, hu⟩, rfl, rfl⟩
    refine ⟨sess, g, ⟨hf, hs, rfl⟩, (), g, ⟨hst, rfl⟩, (), g, ⟨hr, rfl⟩, ep, g, ⟨hf', he, rfl⟩, (), _,
      ⟨ha, parts, hparts, rfl⟩, (), _, ⟨hc, rfl⟩, (), _, ⟨hu, rfl⟩, (), _, ⟨trivial, rfl⟩, rfl, ?_⟩
    cases fails .publish <;> rfl

end Embedai.Gateway
