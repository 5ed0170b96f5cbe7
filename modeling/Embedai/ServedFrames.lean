import Embedai.DatasetVersions
import Embedai.FrameSearch
import Embedai.McapCacheDownloads
import Embedai.UploadedRows

namespace Embedai.ServedFrames

open DatasetService (CurrentUser HttpError parseId)
open FrameExtractor (FrameResult Imaging Typestore extractFrame getTimeRange)
open Handlers (except_bind_eq_ok)
open McapCache (Config DistinctNames Named Stage)
open TransitionSystems
open UploadThreads (SoundRows Upload)

variable {Img : Type}

/-- The reader of the mcap library, and what the extractor decodes images with. -/
structure Reader (Img : Type) where
  read : List UInt8 → Except String Mcap.File
  typestore : Typestore
  cv2 : Imaging Img

def extractFrameSync (reader : Reader Img) (data : List UInt8) (topic : String) (timestamp : ℤ) :
    Except String (Option FrameResult) := do
  let file ← reader.read data
  let mcapStartTimeNs : ℤ := match getTimeRange file with
    | some timeRange => timeRange.1
    | none => 0
  return extractFrame reader.typestore reader.cv2 file topic timestamp 100000000 mcapStartTimeNs

structure FrameRequest where
  user : CurrentUser
  episodeId : Uuid
  topic : String
  timestamp : ℤ

/-- What `get_frame` reads of the row; the database keeps the project's id as a UUID. -/
def storedFile (g : Gateway.Stores) (request : FrameRequest) : Except HttpError String := do
  let projectId ← parseId request.user.projectId
  match g.episodes.get? request.episodeId.text with
  | none => .error ⟨404, "episode not found"⟩
  | some ep =>
    if Uuid.parse ep.projectId ≠ some projectId then .error ⟨404, "episode not found"⟩
    else if ep.format ≠ "mcap" then .error ⟨400, "only MCAP format supported"⟩
    else match ep.storagePath with
      | none => .error ⟨400, "episode file not available"⟩
      | some path => if path = "" then .error ⟨400, "episode file not available"⟩ else .ok path

def frameAnswer : Except String (Option FrameResult) → Except HttpError FrameResult
  | .error exc => .error ⟨500, "frame extraction failed: " ++ exc⟩
  | .ok none => .error ⟨404, "no frame found at specified time"⟩
  | .ok (some frame) => .ok frame

/-- `files` has the bytes of the files in the cache directory; a request has the number of its call of the cache. -/
structure State where
  uploads : UploadThreads.System
  cache : McapCache.State
  files : String → List UInt8
  requests : ℕ → Option FrameRequest
  answers : ℕ → Option (Except HttpError FrameResult)

def start (projects : List String) : State :=
  { uploads := UploadThreads.start projects
    cache := McapCache.initial
    files := fun _ => []
    requests := fun _ => none
    answers := fun _ => none }

/-- `written` is how many bytes of the object a download has written when it is looked at, and `exc` the text of a
failure to get the file or to open it. -/
inductive Action
  | upload (a : UploadThreads.Action)
  | getFrame (request : FrameRequest) (now : ℚ)
  | cache (a : McapCache.Action) (written : ℕ)
  | extractFrame (t : ℕ) (exc : String)

/-- The files after a step of the cache. Only an object that exists can be downloaded. -/
def download (cfg : Config) (s : State) (written : ℕ) : McapCache.Action → Option (String → List UInt8)
  | .downloadWrites t => (s.cache.calls t).bind fun c => (s.uploads.stores.objects c.storagePath).map fun data =>
      Function.update s.files (cfg.tmpPath c.episodeId) (data.take written)
  | .downloadSucceeds t => (s.cache.calls t).bind fun c => (s.uploads.stores.objects c.storagePath).map fun data =>
      Function.update s.files (cfg.tmpPath c.episodeId) data
  | _ => some s.files

/-- The answer of a request whose call of the cache is over. The file is read in the step that opens it. -/
def answer? (reader : Reader Img) (s : State) (request : FrameRequest) (exc : String) :
    Stage → Option (Except HttpError FrameResult)
  | .returned path =>
    let data := if path ∈ s.cache.disk then some (s.files path) else none
    match data with
    | some data => some (frameAnswer (extractFrameSync reader data request.topic request.timestamp))
    | none => some (frameAnswer (.error exc))
  | .raised => some (.error ⟨500, "failed to retrieve episode file: " ++ exc⟩)
  | _ => none

def answerFrame (reader : Reader Img) (s : State) (t : ℕ) (exc : String) : Option State :=
  (s.requests t).bind fun request => (s.cache.calls t).bind fun c =>
    if s.answers t = none then
      (answer? reader s request exc c.stage).map fun answer =>
        { s with answers := Function.update s.answers t (some answer) }
    else none

/-- A request that is refused for its row makes no call of the cache. -/
def next (cfg : Config) (reader : Reader Img) (s : State) : Action → Option State
  | .upload a => (UploadThreads.next s.uploads a).map fun uploads => { s with uploads }
  | .getFrame request now =>
    match storedFile s.uploads.stores request with
    | .error _ => some s
    | .ok path => (McapCache.next cfg s.cache (.getOrDownload request.episodeId.text path now)).map fun cache =>
        { s with cache, requests := Function.update s.requests s.cache.nextCall (some request) }
  | .cache a written =>
    if a.requests? = none then
      (download cfg s written a).bind fun files => (McapCache.next cfg s.cache a).map fun cache =>
        { s with cache, files }
    else none
  | .extractFrame t exc => answerFrame reader s t exc

def Action.episodeId? : Action → Option String
  | getFrame request _ => some request.episodeId.text
  | _ => none

def requested (actions : List Action) : List String := actions.filterMap Action.episodeId?

def OpensQuietly (s : State) : Action → Prop
  | .extractFrame t _ => ∀ c ∈ s.cache.calls t, ¬ s.cache.Downloading c.episodeId
  | _ => True

instance (s : State) : (a : Action) → Decidable (OpensQuietly s a)
  | .extractFrame t _ => inferInstanceAs (Decidable (∀ c ∈ s.cache.calls t, ¬ s.cache.Downloading c.episodeId))
  | .upload _ | .getFrame _ _ | .cache _ _ => isTrue trivial

structure Truthful (reader : Reader Img) (u : Upload) (request : FrameRequest) (answer : Except HttpError FrameResult) :
    Prop where
  project : ∃ projectId, Uuid.parse request.user.projectId = some projectId ∧
    Uuid.parse u.jwtProjectId = some projectId
  format : Gateway.fileFormat u.file.name = "mcap"
  frame : answer = frameAnswer (extractFrameSync reader u.file.content request.topic request.timestamp) ∨
    ∃ detail, answer = .error ⟨500, detail⟩

structure Asked (s : UploadThreads.System) (request : FrameRequest) (c : McapCache.Call) : Prop where
  episodeId : c.episodeId = request.episodeId.text
  issued : request.episodeId ∈ s.issued
  upload : ∀ tid u, s.uploads.get? tid = some u → u.episodeId = request.episodeId →
    u.Ready s.stores ∧ c.storagePath = u.path ∧ Gateway.fileFormat u.file.name = "mcap" ∧
      ∃ projectId, Uuid.parse request.user.projectId = some projectId ∧ Uuid.parse u.jwtProjectId = some projectId

structure Served (cfg : Config) (reader : Reader Img) (ids : List String) (s : State) : Prop where
  uploads : SoundRows s.uploads
  fresh : s.cache.FreshCalls
  named : Named cfg ids s.cache
  disk : ∀ path ∈ s.cache.disk, ∃ t c, s.cache.calls t = some c ∧ path = cfg.tmpPath c.episodeId
  calls : ∀ t c, s.cache.calls t = some c → ∃ request, s.requests t = some request
  asked : ∀ t request, s.requests t = some request → ∃ c, s.cache.calls t = some c ∧ Asked s.uploads request c
  contents : ∀ tid u, s.uploads.uploads.get? tid = some u → ∀ t c, s.cache.calls t = some c →
    c.episodeId = u.episodeId.text → cfg.tmpPath c.episodeId ∈ s.cache.disk → ¬ s.cache.Downloading c.episodeId →
      s.files (cfg.tmpPath c.episodeId) = u.file.content
  answered : ∀ t answer, s.answers t = some answer → ∃ request, s.requests t = some request
  answers : ∀ t request answer, s.requests t = some request → s.answers t = some answer →
    ∀ tid u, s.uploads.uploads.get? tid = some u → u.episodeId = request.episodeId → Truthful reader u request answer

variable {cfg : Config} {reader : Reader Img} {ids : List String} {s s' : State}

theorem storedFile_eq_ok {g : Gateway.Stores} {request : FrameRequest} {path : String}
    (h : storedFile g request = .ok path) :
    ∃ projectId ep, Uuid.parse request.user.projectId = some projectId ∧
      g.episodes.get? request.episodeId.text = some ep ∧ Uuid.parse ep.projectId = some projectId ∧
      ep.format = "mcap" ∧ ep.storagePath = some path := by
  obtain ⟨projectId, hproject, h⟩ := except_bind_eq_ok.mp h
  refine ⟨projectId, ?_⟩
  split at h
  · cases h
  · rename_i ep hep
    split_ifs at h with howner hformat
    split at h
    · cases h
    · rename_i stored hstored
      split_ifs at h with hempty
      cases h
      exact ⟨ep, DatasetService.parseId_eq_ok.mp hproject, hep, not_not.mp howner, not_not.mp hformat, hstored⟩

section Uploads

open UploadThreads (row_next soundRows_next upload_cases spawn_eq_some)

variable {u u' : UploadThreads.System} {a : UploadThreads.Action}

theorem issued_next (h : UploadThreads.next u a = some u') : u.issued ⊆ u'.issued := by
  cases a with
  | upload =>
    obtain ⟨-, h⟩ := Option.ite_none_right_eq_some.mp h
    obtain ⟨w, hw, rfl⟩ := Option.map_eq_some_iff.mp h
    obtain ⟨-, rfl⟩ := spawn_eq_some.mp hw
    exact List.subset_append_right ..
  | sealEpisode =>
    obtain ⟨-, rfl⟩ := spawn_eq_some.mp h
    exact List.subset_append_right ..
  | deliver =>
    obtain ⟨_, -, h⟩ := Option.bind_eq_some_iff.mp h
    obtain ⟨-, rfl⟩ := spawn_eq_some.mp h
    exact List.subset_append_right ..
  | call =>
    obtain ⟨_, -, rfl⟩ := Option.map_eq_some_iff.mp h
    exact List.Subset.refl _
  | crash =>
    rw [UploadThreads.next] at h
    split at h
    · cases h
      exact List.Subset.refl _
    · cases h

theorem upload_old {request : FrameRequest} (h : UploadThreads.next u a = some u')
    (hissued : request.episodeId ∈ u.issued) {tid : ℕ} {v : Upload} (hv : u'.uploads.get? tid = some v)
    (hid : v.episodeId = request.episodeId) : u.uploads.get? tid = some v := by
  rcases upload_cases h hv with hold | ⟨hnew, -⟩
  · exact hold
  · exact absurd (hid ▸ hissued) hnew

theorem Asked.next {request : FrameRequest} {c : McapCache.Call} (hu : SoundRows u)
    (h : UploadThreads.next u a = some u') (hasked : Asked u request c) : Asked u' request c := by
  refine ⟨hasked.episodeId, issued_next h hasked.issued, fun tid v hv hid => ?_⟩
  have hold := upload_old h hasked.issued hv hid
  obtain ⟨hready, hrest⟩ := hasked.upload tid v hold hid
  exact ⟨(row_next hu.sound hold h).2 hready, hrest⟩

theorem served_upload (hs : Served cfg reader ids s) (h : UploadThreads.next s.uploads a = some u') :
    Served cfg reader ids { s with uploads := u' } := by
  have hold {t : ℕ} {request : FrameRequest} (hrequest : s.requests t = some request) {tid : ℕ} {v : Upload}
      (hv : u'.uploads.get? tid = some v) (hid : v.episodeId = request.episodeId) :
      s.uploads.uploads.get? tid = some v := by
    obtain ⟨c, -, hasked⟩ := hs.asked t request hrequest
    exact upload_old h hasked.issued hv hid
  refine ⟨soundRows_next hs.uploads h, hs.fresh, hs.named, hs.disk, hs.calls, fun t request hrequest => ?_, ?_,
    hs.answered, ?_⟩
  · obtain ⟨c, hc, hasked⟩ := hs.asked t request hrequest
    exact ⟨c, hc, hasked.next hs.uploads h⟩
  · intro tid v hv t c hc hid
    obtain ⟨request, hrequest⟩ := hs.calls t c hc
    obtain ⟨c', hc', hasked⟩ := hs.asked t request hrequest
    rw [hc, Option.some.injEq] at hc'
    subst hc'
    have hepisode : v.episodeId = request.episodeId := Uuid.text_injective (hid.symm.trans hasked.episodeId)
    exact hs.contents tid v (hold hrequest hv hepisode) t c hc hid
  · intro t request answer hrequest hanswer tid v hv hid
    exact hs.answers t request answer hrequest hanswer tid v (hold hrequest hv hid) hid

end Uploads

section Cache

variable {cache : McapCache.State} {a : McapCache.Action} {written : ℕ} {files : String → List UInt8}

theorem files_of_download (h : download cfg s written a = some files) {path : String}
    (hother : ∀ j d, s.cache.calls j = some d → (a = .downloadWrites j ∨ a = .downloadSucceeds j) →
      cfg.tmpPath d.episodeId ≠ path) : files path = s.files path := by
  cases a with
  | downloadWrites j =>
    obtain ⟨d, hd, h⟩ := Option.bind_eq_some_iff.mp h
    obtain ⟨data, -, rfl⟩ := Option.map_eq_some_iff.mp h
    exact Function.update_of_ne (hother j d hd (.inl rfl)).symm ..
  | downloadSucceeds j =>
    obtain ⟨d, hd, h⟩ := Option.bind_eq_some_iff.mp h
    obtain ⟨data, -, rfl⟩ := Option.map_eq_some_iff.mp h
    exact Function.update_of_ne (hother j d hd (.inr rfl)).symm ..
  | _ =>
    cases h
    rfl

theorem contents_step (hs : Served cfg reader ids s) (hids : DistinctNames cfg ids)
    (hstep : McapCache.Step cfg s.cache a cache) (hfiles : download cfg s written a = some files) {tid : ℕ} {v : Upload}
    (hv : s.uploads.uploads.get? tid = some v) {t : ℕ} {c : McapCache.Call} (hc : s.cache.calls t = some c)
    (hid : c.episodeId = v.episodeId.text) (hdisk : cfg.tmpPath c.episodeId ∈ cache.disk)
    (hquiet : ¬ cache.Downloading c.episodeId) : files (cfg.tmpPath c.episodeId) = v.file.content := by
  have hname {j : ℕ} {d : McapCache.Call} (hd : s.cache.calls j = some d)
      (hpath : cfg.tmpPath d.episodeId = cfg.tmpPath c.episodeId) : d.episodeId = c.episodeId :=
    hids _ (hs.named.call j d hd).1 _ (hs.named.call t c hc).1 (McapCache.tmpPath_inj.mp hpath)
  by_cases hdownloading : ∃ j d, s.cache.calls j = some d ∧ d.episodeId = c.episodeId ∧ d.stage.isDownloading = true
  · obtain ⟨j, d, hd, hde, hstage⟩ := hdownloading
    obtain ⟨d', hd', hadvances⟩ := McapCache.advances_step hs.fresh hstep hd
    rcases hadvances.downloading hstage with hstill | rfl | rfl
    · have hlt := (McapCache.freshCalls_step hs.fresh hstep).lt hd'
      exact absurd ⟨j, hlt, d', hd', hadvances.episodeId.trans hde, hstill⟩ hquiet
    · obtain ⟨request, hrequest⟩ := hs.calls j d hd
      obtain ⟨d₀, hd₀, hasked⟩ := hs.asked j request hrequest
      rw [hd, Option.some.injEq] at hd₀
      subst hd₀
      have hepisode : v.episodeId = request.episodeId :=
        Uuid.text_injective ((hde.trans hid).symm.trans hasked.episodeId)
      obtain ⟨hready, hpath, -⟩ := hasked.upload tid v hv hepisode
      obtain ⟨d₀, hd₀, hfiles⟩ := Option.bind_eq_some_iff.mp hfiles
      rw [hd, Option.some.injEq] at hd₀
      subst hd₀
      obtain ⟨data, hdata, rfl⟩ := Option.map_eq_some_iff.mp hfiles
      rw [hpath, hready.object, Option.some.injEq] at hdata
      rw [hde, Function.update_self, hdata]
    · exact absurd (hde ▸ hdisk) (McapCache.not_mem_disk_of_fails hstep hd)
  · have hother : ∀ j d, s.cache.calls j = some d → (a = .downloadWrites j ∨ a = .downloadSucceeds j) →
        cfg.tmpPath d.episodeId ≠ cfg.tmpPath c.episodeId := by
      intro j d hd ha hpath
      exact hdownloading ⟨j, d, hd, hname hd hpath, McapCache.downloading_of_writes hstep ha hd⟩
    rw [files_of_download hfiles hother]
    refine hs.contents tid v hv t c hc hid ?_ ?_
    · rcases McapCache.disk_origin hstep hdisk with hold | ⟨j, d, hd, hpath, ha⟩
      · exact hold
      · exact absurd hpath.symm (hother j d hd ha)
    · rintro ⟨j, -, d, hd, hde, hstage⟩
      exact hdownloading ⟨j, d, hd, hde, hstage⟩

theorem file_origin (hs : Served cfg reader ids s) (hstep : McapCache.Step cfg s.cache a cache) {path : String}
    (hpath : path ∈ cache.disk) : ∃ t c, s.cache.calls t = some c ∧ path = cfg.tmpPath c.episodeId := by
  rcases McapCache.disk_origin hstep hpath with hold | ⟨t, c, hc, hpath, -⟩
  · exact hs.disk path hold
  · exact ⟨t, c, hc, hpath⟩

theorem disk_step (hs : Served cfg reader ids s) (hstep : McapCache.Step cfg s.cache a cache) :
    ∀ path ∈ cache.disk, ∃ t c, cache.calls t = some c ∧ path = cfg.tmpPath c.episodeId := by
  intro path hpath
  obtain ⟨t, c, hc, rfl⟩ := file_origin hs hstep hpath
  obtain ⟨c', hc', hadvances⟩ := McapCache.advances_step hs.fresh hstep hc
  exact ⟨t, c', hc', by rw [hadvances.episodeId]⟩

theorem Asked.advances {u : UploadThreads.System} {request : FrameRequest} {t : ℕ} {c c' : McapCache.Call}
    (h : Asked u request c) (hadvances : McapCache.Advances a t c c') : Asked u request c' := by
  refine ⟨hadvances.episodeId.trans h.episodeId, h.issued, fun tid v hv hid => ?_⟩
  obtain ⟨hready, hpath, hrest⟩ := h.upload tid v hv hid
  exact ⟨hready, hadvances.storagePath.trans hpath, hrest⟩

theorem served_cache (hs : Served cfg reader ids s) (hids : DistinctNames cfg ids) (ha : a.requests? = none)
    (hfiles : download cfg s written a = some files) (h : McapCache.next cfg s.cache a = some cache) :
    Served cfg reader ids { s with cache, files } := by
  have hstep := McapCache.step_of_next h
  have hcall {t : ℕ} {c : McapCache.Call} (hc : cache.calls t = some c) :
      ∃ c₀, s.cache.calls t = some c₀ ∧ McapCache.Advances a t c₀ c := by
    rcases McapCache.call_origin hstep hc with ⟨c₀, hc₀⟩ | ⟨-, now, rfl⟩
    · obtain ⟨c', hc', hadvances⟩ := McapCache.advances_step hs.fresh hstep hc₀
      rw [hc, Option.some.injEq] at hc'
      exact ⟨c₀, hc₀, hc' ▸ hadvances⟩
    · cases ha
  refine ⟨hs.uploads, McapCache.freshCalls_step hs.fresh hstep, McapCache.named_step hs.named ?_ hstep,
    disk_step hs hstep, fun t c hc => ?_, fun t request hrequest => ?_, ?_, hs.answered, hs.answers⟩
  · intro e he
    obtain ⟨b, hb, hbe⟩ := List.mem_filterMap.mp he
    rw [List.mem_singleton.mp hb, ha] at hbe
    cases hbe
  · obtain ⟨c₀, hc₀, -⟩ := hcall hc
    exact hs.calls t c₀ hc₀
  · obtain ⟨c, hc, hasked⟩ := hs.asked t request hrequest
    obtain ⟨c', hc', hadvances⟩ := McapCache.advances_step hs.fresh hstep hc
    exact ⟨c', hc', hasked.advances hadvances⟩
  · intro tid v hv t c hc hid hdisk hquiet
    obtain ⟨c₀, hc₀, hadvances⟩ := hcall hc
    rw [hadvances.episodeId] at hid hdisk hquiet ⊢
    exact contents_step hs hids hstep hfiles hv hc₀ hid hdisk hquiet

end Cache

section Requests

theorem asked_of_storedFile {u : UploadThreads.System} {request : FrameRequest} {path : String} {stage : Stage}
    (hu : SoundRows u) (h : storedFile u.stores request = .ok path) :
    Asked u request ⟨request.episodeId.text, path, stage⟩ := by
  obtain ⟨projectId, ep, hproject, hep, howner, hformat, hpath⟩ := storedFile_eq_ok h
  have hissued : request.episodeId ∈ u.issued := by
    obtain ⟨e, he, hid⟩ := hu.sound.known.episodes _ (OrderedDict.mem_keys.mpr ⟨ep, hep⟩)
    rw [Uuid.text_injective hid]
    exact he
  refine ⟨rfl, hissued, fun tid v hv hid => ?_⟩
  rw [← hid] at hep
  have hhonest := hu.rows tid v hv ep hep
  have hready : v.Ready u.stores := by
    rcases hhonest.storagePath with hnone | hready
    · rw [hpath] at hnone
      cases hnone
    · exact hready
  obtain ⟨ep', hep', hplaced⟩ := hready.row
  rw [hep, Option.some.injEq] at hep'
  subst hep'
  rw [hpath, Option.some.injEq] at hplaced
  rw [hhonest.format] at hformat
  rw [hhonest.projectId] at howner
  exact ⟨hready, hplaced, hformat, projectId, hproject, howner⟩

theorem served_getFrame {request : FrameRequest} {now : ℚ} (hs : Served cfg reader ids s) (hids : DistinctNames cfg ids)
    (hid : request.episodeId.text ∈ ids) (h : next cfg reader s (.getFrame request now) = some s') :
    Served cfg reader ids s' := by
  rw [next] at h
  split at h
  · cases h
    exact hs
  · rename_i path hpath
    obtain ⟨cache, hnext, rfl⟩ := Option.map_eq_some_iff.mp h
    have hstep := McapCache.step_of_next hnext
    have hold {t : ℕ} {c : McapCache.Call} (hc : s.cache.calls t = some c) : t ≠ s.cache.nextCall :=
      (hs.fresh.lt hc).ne
    have hrequest {t : ℕ} {r : FrameRequest} (hr : s.requests t = some r) :
        t ≠ s.cache.nextCall := by
      obtain ⟨c, hc, -⟩ := hs.asked t r hr
      exact hold hc
    have hnamed : Named cfg ids cache := by
      refine McapCache.named_step hs.named (fun e he => ?_) hstep
      rw [McapCache.requested, List.filterMap_cons, List.filterMap_nil] at he
      rw [List.mem_singleton.mp he]
      exact hid
    refine ⟨hs.uploads, McapCache.freshCalls_step hs.fresh hstep, hnamed, disk_step hs hstep, fun t c hc => ?_,
      fun t r hr => ?_, ?_, fun t answer hanswer => ?_, fun t r answer hr hanswer => ?_⟩
    · rcases McapCache.call_origin hstep hc with ⟨c₀, hc₀⟩ | ⟨rfl, -⟩
      · obtain ⟨r, hr⟩ := hs.calls t c₀ hc₀
        exact ⟨r, (Function.update_of_ne (hold hc₀) ..).trans hr⟩
      · exact ⟨request, Function.update_self ..⟩
    · dsimp only at hr
      by_cases ht : t = s.cache.nextCall
      · subst ht
        rw [Function.update_self, Option.some.injEq] at hr
        subst hr
        obtain ⟨stage, hc⟩ := McapCache.call_getOrDownload hstep
        exact ⟨_, hc, asked_of_storedFile hs.uploads hpath⟩
      · rw [Function.update_of_ne ht] at hr
        obtain ⟨c, hc, hasked⟩ := hs.asked t r hr
        obtain ⟨c', hc', hadvances⟩ := McapCache.advances_step hs.fresh hstep hc
        exact ⟨c', hc', hasked.advances hadvances⟩
    · intro tid v hv t c hc he hdisk hquiet
      -- a file that is there belongs to an earlier call for the same episode
      obtain ⟨t₀, c₀, hc₀, hname⟩ := file_origin hs hstep hdisk
      have hsame : c.episodeId = c₀.episodeId :=
        hids _ (hnamed.call t c hc).1 _ (hs.named.call t₀ c₀ hc₀).1 (McapCache.tmpPath_inj.mp hname)
      have hfiles : download cfg s 0 (.getOrDownload request.episodeId.text path now) = some s.files := rfl
      rw [hsame] at he hdisk hquiet ⊢
      exact contents_step hs hids hstep hfiles hv hc₀ he hdisk hquiet
    · obtain ⟨r, hr⟩ := hs.answered t answer hanswer
      exact ⟨r, (Function.update_of_ne (hrequest hr) ..).trans hr⟩
    · obtain ⟨r', hr'⟩ := hs.answered t answer hanswer
      dsimp only at hr
      rw [Function.update_of_ne (hrequest hr')] at hr
      exact hs.answers t r answer hr hanswer

theorem answer_truthful {t : ℕ} {request : FrameRequest} {c : McapCache.Call} {exc : String}
    {answer : Except HttpError FrameResult} (hs : Served cfg reader ids s) (hquiet : ¬ s.cache.Downloading c.episodeId)
    (hc : s.cache.calls t = some c) (hasked : Asked s.uploads request c)
    (hanswer : answer? reader s request exc c.stage = some answer) {tid : ℕ} {u : Upload}
    (hu : s.uploads.uploads.get? tid = some u) (hid : u.episodeId = request.episodeId) :
    Truthful reader u request answer := by
  obtain ⟨-, -, hformat, hproject⟩ := hasked.upload tid u hu hid
  refine ⟨hproject, hformat, ?_⟩
  cases hstage : c.stage with
  | returned path =>
    rw [hstage, answer?] at hanswer
    have hpath := (hs.named.call t c hc).2 path hstage
    by_cases hdisk : path ∈ s.cache.disk
    · have hcontent : s.files path = u.file.content := by
        have he : c.episodeId = u.episodeId.text := by rw [hasked.episodeId, hid]
        rw [hpath] at hdisk ⊢
        exact hs.contents tid u hu t c hc he hdisk hquiet
      simp only [hdisk, if_true, Option.some.injEq] at hanswer
      rw [← hanswer, hcontent]
      exact .inl rfl
    · simp only [hdisk, if_false, Option.some.injEq] at hanswer
      exact .inr ⟨_, hanswer.symm⟩
  | raised =>
    rw [hstage, answer?, Option.some.injEq] at hanswer
    exact .inr ⟨_, hanswer.symm⟩
  | acquiring | checking | downloading | downloaded | failed =>
    rw [hstage] at hanswer
    cases hanswer

theorem served_extractFrame {t : ℕ} {exc : String} (hs : Served cfg reader ids s)
    (hquiet : OpensQuietly s (.extractFrame t exc)) (h : answerFrame reader s t exc = some s') :
    Served cfg reader ids s' := by
  obtain ⟨request, hrequest, h⟩ := Option.bind_eq_some_iff.mp h
  obtain ⟨c, hc, h⟩ := Option.bind_eq_some_iff.mp h
  obtain ⟨-, h⟩ := Option.ite_none_right_eq_some.mp h
  obtain ⟨answer, hanswer, rfl⟩ := Option.map_eq_some_iff.mp h
  refine { hs with answered := ?_, answers := ?_ }
  · intro j answered hj
    dsimp only at hj
    by_cases hjt : j = t
    · exact ⟨request, hjt ▸ hrequest⟩
    · rw [Function.update_of_ne hjt] at hj
      exact hs.answered j answered hj
  · intro j r answered hr hj tid u hu hid
    dsimp only at hj
    by_cases hjt : j = t
    · subst hjt
      rw [Function.update_self, Option.some.injEq] at hj
      rw [hrequest, Option.some.injEq] at hr
      subst hj hr
      obtain ⟨c', hc', hasked⟩ := hs.asked j request hrequest
      rw [hc, Option.some.injEq] at hc'
      subst hc'
      exact answer_truthful hs (hquiet c hc) hc hasked hanswer hu hid
    · rw [Function.update_of_ne hjt] at hj
      exact hs.answers j r answered hr hj tid u hu hid

end Requests

section Runs

theorem served_start (cfg : Config) (reader : Reader Img) (ids projects : List String) :
    Served cfg reader ids (start projects) := by
  refine ⟨UploadThreads.soundRows_start projects, fun _ _ => rfl, ⟨?_, ?_⟩, ?_, ?_, ?_, ?_, ?_, ?_⟩
  · intro e entry h
    cases h
  · intro t c h
    cases h
  · intro path h
    exact absurd h (Finset.notMem_empty _)
  · intro t c h
    cases h
  · intro t request h
    cases h
  · intro tid u hu t c h
    cases h
  · intro t answer h
    cases h
  · intro t request answer h
    cases h

theorem served_step {a : Action} (hs : Served cfg reader ids s) (hids : DistinctNames cfg ids)
    (ha : ∀ e ∈ requested [a], e ∈ ids) (hquiet : OpensQuietly s a) (h : next cfg reader s a = some s') :
    Served cfg reader ids s' := by
  cases a with
  | upload a =>
    obtain ⟨u', hu', rfl⟩ := Option.map_eq_some_iff.mp h
    exact served_upload hs hu'
  | getFrame request now => exact served_getFrame hs hids (ha _ (List.mem_singleton_self _)) h
  | cache a written =>
    obtain ⟨ha, h⟩ := Option.ite_none_right_eq_some.mp h
    obtain ⟨files, hfiles, h⟩ := Option.bind_eq_some_iff.mp h
    obtain ⟨cache, hcache, rfl⟩ := Option.map_eq_some_iff.mp h
    exact served_cache hs hids ha hfiles hcache
  | extractFrame t exc => exact served_extractFrame hs hquiet h

/-- What `get_frame` answers for an uploaded episode is the answer for the bytes of the uploaded file, or a 500, when no
file is opened in the middle of a download. The refusals for the row (404 and 400) are not among the answers. -/
theorem served_frames {cfg : Config} {reader : Reader Img} {projects : List String} {actions : List Action} {s : State}
    (hids : DistinctNames cfg (requested actions))
    (hquiet : Along (next cfg reader) OpensQuietly (start projects) actions)
    (h : run (next cfg reader) (start projects) actions = some s) {tid t : ℕ} {u : Upload} {request : FrameRequest}
    {answer : Except HttpError FrameResult} (hu : s.uploads.uploads.get? tid = some u)
    (hrequest : s.requests t = some request) (hid : u.episodeId = request.episodeId)
    (hanswer : s.answers t = some answer) : Truthful reader u request answer := by
  have hreq : ∀ a ∈ actions, ∀ e ∈ requested [a], e ∈ requested actions := by
    intro a ha e he
    obtain ⟨b, hb, hbe⟩ := List.mem_filterMap.mp he
    exact List.mem_filterMap.mpr ⟨b, List.mem_singleton.mp hb ▸ ha, hbe⟩
  have hok := (along_of_mem hreq).and hquiet
  have hs : Served cfg reader (requested actions) s :=
    invariant_along (Served cfg reader (requested actions))
      (fun s a t hs hok hn => served_step hs hids hok.1 hok.2 hn) (served_start cfg reader _ projects) hok h
  exact hs.answers t request answer hrequest hanswer tid u hu hid

def emptyMcap : List UInt8 :=
  let magic : List UInt8 := [0x89, 0x4d, 0x43, 0x41, 0x50, 0x30, 0x0d, 0x0a]
  let header : List UInt8 := [0x01, 0x08] ++ List.replicate 15 0
  let footer : List UInt8 := [0x02, 0x14] ++ List.replicate 27 0
  magic ++ header ++ footer ++ magic

def emptyReader : Reader Unit where
  read := fun data => if data = emptyMcap then .ok ⟨none, []⟩ else .error "not a valid MCAP file"
  typestore := FrameExtractor.compressedStore
  cv2 := FrameExtractor.withoutCv2

def emptyRun : Upload := ⟨⟨"run.mcap", emptyMcap⟩, by decide, (Uuid.mk 7).text, ⟨1⟩, ⟨2⟩, 0⟩

/-- `safeId` has the hash of the id of `emptyRun`. -/
def emptyRunConfig : Config := { McapCache.serviceConfig with safeId := fun _ => "7ac1b8d7010bb6cd3a3e84e7f90136b8" }

def firstFrame : FrameRequest := ⟨⟨"u-1", (Uuid.mk 7).text⟩, ⟨1⟩, "/camera", 0⟩

def askedWhileProcessed : List Action :=
  .upload (.upload 0 emptyRun) :: List.replicate 11 (.upload (.call 0 .ok)) ++
    [.getFrame firstFrame 0, .cache (.acquire 0) 0, .cache (.doubleCheck 0 0) 0, .cache (.downloadWrites 0) 31,
      .upload (.deliver 1 (.obj [])), .upload (.call 1 .ok), .cache (.downloadSucceeds 0) 0, .cache (.store 0 0) 0,
      .extractFrame 0 ""]

theorem served_frames_askedWhileProcessed :
    ∃ s answer, run (next emptyRunConfig emptyReader) (start []) askedWhileProcessed = some s ∧
      s.answers 0 = some answer ∧ Truthful emptyReader emptyRun firstFrame answer := by
  obtain ⟨s, answer, hs, hu, hrequest, hanswer⟩ : ∃ s answer,
      run (next emptyRunConfig emptyReader) (start []) askedWhileProcessed = some s ∧
        s.uploads.uploads.get? 0 = some emptyRun ∧ s.requests 0 = some firstFrame ∧ s.answers 0 = some answer :=
    ⟨_, _, rfl, rfl, rfl, rfl⟩
  exact ⟨s, answer, hs, hanswer, served_frames (by decide +kernel) (by decide +kernel) hs hu hrequest rfl hanswer⟩

end Runs

end Embedai.ServedFrames
