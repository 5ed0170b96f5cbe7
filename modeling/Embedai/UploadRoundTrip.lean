import Mathlib.Data.Rat.Floor
import Embedai.ListMaps
import Embedai.UploadSteps

namespace Embedai.Gateway

open Handlers

theorem flatten_slices {α : Type} (xs : List α) (size m : ℕ) :
    ((List.range m).map (fun i => (xs.drop (i * size)).take size)).flatten = xs.take (m * size) := by
  induction m with
  | zero => simp
  | succ m ih =>
    rw [List.range_succ, List.map_append, List.flatten_append, ih, List.map_singleton, List.flatten_singleton,
      Nat.succ_mul, List.take_add]

theorem totalChunks_eq_ceil {n : ℕ} (h : n ≤ 2 ^ 53) : totalChunks n = ⌈(n : ℚ) / 2 ^ 26⌉ := by
  have hceil := Rat.ceil_intCast_div_natCast n (2 ^ 26)
  rw [totalChunks, Float64.ofInt_of_le h]
  push_cast at hceil
  exact hceil.symm

theorem length_le_chunks (n : ℕ) (h : n ≤ 2 ^ 53) : n ≤ (totalChunks n).toNat * 2 ^ 26 := by
  rw [totalChunks, Float64.ofInt_of_le h, uploadChunkSize]
  omega

def piece (file : File) (i : ℕ) : List UInt8 := (file.content.drop (i * 2 ^ 26)).take (2 ^ 26)

theorem slice_eq_piece {file : File} {i : ℕ} (hsize : file.content.length ≤ 2 ^ 53)
    (hi : (i : ℤ) < totalChunks file.content.length) :
    file.slice (Float64.ofInt (i * uploadChunkSize))
      (Float64.ofInt (Float64.ofInt (i * uploadChunkSize) + uploadChunkSize)) = piece file i := by
  have hbound : i * 2 ^ 26 < file.content.length := by
    rw [totalChunks, Float64.ofInt_of_le hsize, uploadChunkSize] at hi
    omega
  have hfirst : Float64.ofInt (i * uploadChunkSize) = ((i * 2 ^ 26 : ℕ) : ℤ) := by
    rw [← Float64.ofInt_of_le (show i * 2 ^ 26 ≤ 2 ^ 53 by omega)]
    rfl
  have hlast : Float64.ofInt (((i * 2 ^ 26 : ℕ) : ℤ) + uploadChunkSize) = ((i * 2 ^ 26 + 2 ^ 26 : ℕ) : ℤ) := by
    rw [← Float64.ofInt_of_le (show i * 2 ^ 26 + 2 ^ 26 ≤ 2 ^ 53 by omega)]
    rfl
  rw [hfirst, hlast, File.slice, piece, Int.toNat_natCast, Int.toNat_natCast, Nat.add_sub_cancel_left]

theorem mem_fileFormat (name : String) : fileFormat name = "mcap" ∨ fileFormat name = "hdf5" := by
  unfold fileFormat
  split <;> simp

structure Uploading (file : File) (sessionId : String) (first : UploadSession) (g : Stores) (n : ℕ) (t : Stores) :
    Prop where
  row : t.sessions.get? sessionId = some { first with receivedChunks := (n : ℤ) }
  objects : ∀ i < n, t.objects (chunkKey sessionId i) = some (piece file i)
  episodes : t.episodes = g.episodes
  events : t.events = g.events

theorem uploading_zero {file : File} {sessionId : String} {first : UploadSession} {g : Stores}
    (hrow : g.sessions.get? sessionId = some first) (hreceived : first.receivedChunks = 0) :
    Uploading file sessionId first g 0 g where
  row := by
    rw [hrow]
    cases first
    simpa using hreceived
  objects := fun i hi => absurd hi (Nat.not_lt_zero i)
  episodes := rfl
  events := rfl

theorem uploading_storeChunk {file : File} {sessionId : String} {first : UploadSession} {g t : Stores} {n : ℕ}
    (h : Uploading file sessionId first g n t) :
    Uploading file sessionId first g (n + 1) (storeChunk sessionId n (piece file n) t) where
  row := by
    simp only [storeChunk, OrderedDict.get?_modify, if_true, h.row, Option.map_some, countChunk, Int.natCast_add,
      Int.natCast_one]
  objects := by
    intro i hi
    simp only [storeChunk, Function.update_apply]
    split
    · rename_i hkey
      rw [chunkKey_injective sessionId hkey]
    · rename_i hkey
      apply h.objects
      have hne : i ≠ n := fun he => hkey (congrArg _ he)
      omega
  episodes := h.episodes
  events := h.events

variable {file : File} {sessionId : String}

theorem uploadChunk_piece {first : UploadSession} {g t : Stores} {n : ℕ}
    (hsize : file.content.length ≤ 2 ^ 53) (hstatus : first.status = .inProgress)
    (htotal : first.totalChunks = totalChunks file.content.length) (h : Uploading file sessionId first g n t)
    (hn : (n : ℤ) < first.totalChunks) :
    answer (uploadChunk (fun _ => false) sessionId (toString n) (piece file n)) t =
      (.ok n, storeChunk sessionId n (piece file n) t) := by
  have hnumber : chunkNumber (toString n) = .ok n := by
    rw [totalChunks, Float64.ofInt_of_le hsize, uploadChunkSize] at htotal
    rw [chunkNumber, Decimal.atoi_toString (by omega)]
  exact uploadChunk_eq_ok.mpr ⟨⟨hnumber, _, h.row, hstatus, hn⟩, ⟨rfl, rfl, rfl⟩, rfl⟩

theorem uploadChunks_range' (episodeId : String) {first : UploadSession} {g t : Stores} {n m : ℕ}
    (hsize : file.content.length ≤ 2 ^ 53) (hstatus : first.status = .inProgress)
    (htotal : first.totalChunks = totalChunks file.content.length) (h : Uploading file sessionId first g n t)
    (hm : ((n + m : ℕ) : ℤ) ≤ first.totalChunks) :
    ∃ u, answer (uploadChunks (fun _ _ => false) file ⟨episodeId, sessionId, uploadChunkSize, first.totalChunks⟩
        (List.range' n m)) t = (.ok ((List.range' n m).map (fun i => ⟨i + 1, first.totalChunks⟩)), u) ∧
      Uploading file sessionId first g (n + m) u := by
  induction m generalizing n t with
  | zero => exact ⟨t, rfl, h⟩
  | succ m ih =>
    have hn : (n : ℤ) < first.totalChunks := by omega
    obtain ⟨u, hanswer, hu⟩ := ih (uploading_storeChunk h) (by omega)
    refine ⟨u, ?_, by rwa [Nat.add_right_comm, Nat.add_assoc] at hu⟩
    rw [List.range'_succ, uploadChunks, slice_eq_piece hsize (htotal ▸ hn)]
    rw [answer_bind_of_ok (uploadChunk_piece hsize hstatus htotal h hn), answer_bind_of_ok hanswer]
    rfl

theorem parts_eq_content (hsize : file.content.length ≤ 2 ^ 53) :
    ((List.range (totalChunks file.content.length).toNat).map (piece file)).flatten = file.content := by
  rw [show piece file = fun i => (file.content.drop (i * 2 ^ 26)).take (2 ^ 26) from rfl, flatten_slices]
  exact List.take_of_length_le (length_le_chunks _ hsize)

theorem chunkKey_ne_storagePath (i : ℕ) (episodeId filename : String) :
    chunkKey sessionId i ≠ storagePath episodeId filename := by
  intro h
  have hlist := congrArg String.toList h
  simp [chunkKey, storagePath] at hlist

theorem objects_deleteChunks {totalChunks : ℤ} {fails : ℕ → Bool} {g : Stores} {key : String}
    (h : ∀ i, chunkKey sessionId i ≠ key) :
    (deleteChunks sessionId totalChunks fails g).objects key = g.objects key := by
  unfold deleteChunks
  generalize List.range totalChunks.toNat = l
  induction l generalizing g with
  | nil => rfl
  | cons i l ih =>
    rw [List.foldl_cons, ih]
    split
    · rfl
    · exact Function.update_of_ne (h i).symm _ _

def initRequest (file : File) : InitRequest :=
  ⟨file.name, Float64.ofInt file.content.length, fileFormat file.name, "", ""⟩

theorem init_file {jwtProjectId episodeId : String} {now : ℤ} {g : Stores} (hname : file.name ≠ "")
    (hpos : 1 ≤ file.content.length) (hsize : file.content.length ≤ 2 ^ 53) (he : episodeId ∉ g.episodes.keys)
    (hs : sessionId ∉ g.sessions.keys) :
    answer (init (fun _ => false) jwtProjectId (initRequest file) episodeId sessionId now) g =
      (.ok ⟨episodeId, sessionId, uploadChunkSize, totalChunks file.content.length⟩,
        openUpload jwtProjectId (initRequest file) episodeId sessionId now g he hs) := by
  have hsizeBytes : (initRequest file).sizeBytes = file.content.length := Float64.ofInt_of_le hsize
  have hbind : bindInit (initRequest file) = .ok () := by
    apply bindInit_eq_ok.mpr
    refine ⟨hname, ?_, mem_fileFormat file.name⟩
    rw [hsizeBytes]
    omega
  apply init_eq_ok.mpr
  exact ⟨hbind, ⟨rfl, rfl⟩, by rw [hsizeBytes], he, hs, rfl⟩

theorem complete_uploading {first : UploadSession} {ep : Episode} {g t : Stores} {n : ℕ}
    (h : Uploading file sessionId first g n t) (hstatus : first.status = .inProgress)
    (hn : (n : ℤ) = first.totalChunks) (hep : g.episodes.get? first.episodeId = some ep) :
    answer (complete (fun _ => false) sessionId) t =
      (.ok ⟨first.episodeId, storagePath first.episodeId ep.filename, "processing"⟩,
        closeUpload sessionId first.episodeId (storagePath first.episodeId ep.filename) ep.format
          ((List.range first.totalChunks.toNat).map (piece file)).flatten false t) := by
  apply complete_eq_ok.mpr
  refine ⟨_, ep, (List.range first.totalChunks.toNat).map (piece file), ⟨h.row, hstatus, hn, ?_, ?_⟩,
    ⟨rfl, rfl, rfl, rfl, rfl⟩, rfl, rfl⟩
  · rwa [h.episodes]
  · apply ListMaps.mapM_map_of_forall
    intro i hi
    apply h.objects
    have hi : i < first.totalChunks.toNat := List.mem_range.mp hi
    omega

structure RoundTrip (file : File) (episodeId sessionId : String) (sent : ℕ) (g t : Stores) : Prop where
  session : ∃ sess, t.sessions.get? sessionId = some sess ∧ sess.status = .completed ∧
    sess.totalChunks = ⌈(file.content.length : ℚ) / 2 ^ 26⌉ ∧ sess.receivedChunks = sess.totalChunks ∧
    (sent : ℤ) = sess.totalChunks
  episode : ∃ ep key, t.episodes.get? episodeId = some ep ∧ ep.status = .processing ∧ ep.storagePath = some key ∧
    t.objects key = some file.content ∧
    (∀ totalChunks fails, (deleteChunks sessionId totalChunks fails t).objects key = some file.content) ∧
    t.events = g.events ++ [⟨episodeId, key, ep.format⟩]

theorem roundTrip_closeUpload {first : UploadSession} {ep : Episode} {g t : Stores} {n : ℕ}
    (h : Uploading file sessionId first g n t) (hsize : file.content.length ≤ 2 ^ 53)
    (htotal : first.totalChunks = totalChunks file.content.length) (hn : (n : ℤ) = first.totalChunks)
    (hep : g.episodes.get? first.episodeId = some ep) :
    RoundTrip file first.episodeId sessionId n g
      (closeUpload sessionId first.episodeId (storagePath first.episodeId ep.filename) ep.format file.content false
        t) where
  session := by
    refine ⟨closeSession { first with receivedChunks := (n : ℤ) }, ?_, rfl, ?_, hn, hn⟩
    · rw [closeUpload, OrderedDict.get?_modify, if_pos rfl, h.row]
      rfl
    · exact htotal.trans (totalChunks_eq_ceil hsize)
  episode := by
    have hobject : (closeUpload sessionId first.episodeId (storagePath first.episodeId ep.filename) ep.format
        file.content false t).objects (storagePath first.episodeId ep.filename) = some file.content :=
      Function.update_self ..
    refine ⟨placeEpisode (storagePath first.episodeId ep.filename) ep, _, ?_, rfl, ?_, hobject, ?_, ?_⟩
    · rw [closeUpload, OrderedDict.get?_modify, if_pos rfl, h.episodes, hep]
      rfl
    · rw [placeEpisode, storagePath, String.append_assoc, nullIfEmpty_episodes]
    · intro totalChunks fails
      rwa [objects_deleteChunks (fun i => chunkKey_ne_storagePath i _ _)]
    · rw [closeUpload, h.events]
      rfl

theorem uploadEpisodeFile_roundTrip (jwtProjectId : String) (file : File) (episodeId sessionId : String) (now : ℤ)
    (g : Stores) (hname : file.name ≠ "") (hpos : 1 ≤ file.content.length) (hsize : file.content.length ≤ 2 ^ 53)
    (he : episodeId ∉ g.episodes.keys) (hs : sessionId ∉ g.sessions.keys) :
    ∃ progress t,
      answer (uploadEpisodeFile (fun _ => false) (fun _ => false) (fun _ _ => false) jwtProjectId file episodeId
        sessionId now) g = (.ok (episodeId, progress), t) ∧
      RoundTrip file episodeId sessionId progress.length g t := by
  have htotal : (openedSession (initRequest file) episodeId now).totalChunks = totalChunks file.content.length :=
    congrArg totalChunks (Float64.ofInt_of_le hsize)
  have hpositive : 1 ≤ totalChunks file.content.length := totalChunks_pos (by omega)
  have hn : (((totalChunks file.content.length).toNat : ℕ) : ℤ) =
      (openedSession (initRequest file) episodeId now).totalChunks := by
    rw [htotal]
    omega
  have hrow : (openUpload jwtProjectId (initRequest file) episodeId sessionId now g he hs).sessions.get? sessionId =
      some (openedSession (initRequest file) episodeId now) := get?_sessions_openUpload he hs
  have hep : (openUpload jwtProjectId (initRequest file) episodeId sessionId now g he hs).episodes.get? episodeId =
      some (openedEpisode jwtProjectId (initRequest file)) := get?_episodes_openUpload he hs
  obtain ⟨t, hchunks, ht⟩ := uploadChunks_range' (n := 0) (m := (totalChunks file.content.length).toNat) episodeId
    hsize rfl htotal (uploading_zero hrow rfl) (by omega)
  rw [Nat.zero_add] at ht
  have hcomplete := complete_uploading ht rfl hn hep
  have hround := roundTrip_closeUpload ht hsize htotal hn hep
  rw [htotal, parts_eq_content hsize] at hcomplete
  rw [htotal, ← List.range_eq_range'] at hchunks
  refine ⟨_, _, answer_bind_eq_ok.mpr ⟨_, _, init_file hname hpos hsize he hs, answer_bind_eq_ok.mpr ⟨_, _, hchunks,
    answer_bind_eq_ok.mpr ⟨_, _, hcomplete, rfl⟩⟩⟩, ?_⟩
  rw [List.length_map, List.length_range]
  exact ⟨hround.session, hround.episode⟩

def longRecording : File := ⟨"run.mcap", List.replicate (2 ^ 26) 1 ++ List.replicate (2 ^ 26) 2 ++ [3]⟩

theorem length_longRecording : longRecording.content.length = 2 ^ 26 + 2 ^ 26 + 1 := by
  rw [longRecording, List.length_append, List.length_append, List.length_replicate, List.length_replicate,
    List.length_singleton]

theorem uploadEpisodeFile_roundTrip_threeChunks :
    totalChunks longRecording.content.length = 3 ∧ ∃ progress t,
      answer (uploadEpisodeFile (fun _ => false) (fun _ => false) (fun _ _ => false) "p" longRecording "e" "s" 0)
        emptyStores = (.ok ("e", progress), t) ∧
      RoundTrip longRecording "e" "s" progress.length emptyStores t := by
  have hlength := length_longRecording
  have hchunks : totalChunks longRecording.content.length = 3 := by
    rw [hlength]
    decide
  refine ⟨hchunks, uploadEpisodeFile_roundTrip "p" longRecording "e" "s" 0 emptyStores ?_ ?_ ?_ ?_ ?_⟩
  · exact fun h => absurd (congrArg String.length h) (by decide)
  · omega
  · omega
  · decide
  · decide

end Embedai.Gateway
