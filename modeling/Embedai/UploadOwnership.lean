import Embedai.IngestSteps
import Embedai.UploadThreads

namespace Embedai.UploadThreads

open Gateway Handlers StreamServer TracedHandlers
open IngestPipeline (Thread CompleteStep SealWork)
open UploadRequests (eq_of_chunkKey eq_of_episodeKey chunkKey_ne_episodeKey)
open Uuid (slash_not_mem_text)

namespace Upload

variable (u : Upload) (g t : Stores)

def events : List IngestEvent := g.events.filter (fun e => e.episodeId = u.episodeId.text)

def event : IngestEvent := ⟨u.episodeId.text, u.path, fileFormat u.file.name⟩

def opened : Episode := openedEpisode u.jwtProjectId (initRequest u.file)

def session (received : ℕ) : UploadSession :=
  { openedSession (initRequest u.file) u.episodeId.text u.now with receivedChunks := received }

def chunks : ℕ := u.response.totalChunks.toNat

structure Sent (received stored : ℕ) : Prop where
  episode : g.episodes.get? u.episodeId.text = some u.opened
  session : g.sessions.get? u.sessionId.text = some (u.session received)
  chunks : ∀ i < stored, g.objects (chunkKey u.sessionId.text i) = some (piece u.file i)
  events : u.events g = []

structure Assembled : Prop where
  episode : g.episodes.get? u.episodeId.text = some u.opened
  object : g.objects u.path = some u.file.content
  events : u.events g = []

structure Placed : Prop where
  episode : ∃ status metadata, (status = .processing ∨ status = .ready) ∧ g.episodes.get? u.episodeId.text =
    some { placeEpisode u.path u.opened with status := status, metadata := metadata }
  object : g.objects u.path = some u.file.content

def Kept : Prop := u.events g = [] ∨ u.events g = [u.event] ∧ u.Placed g

structure Same : Prop where
  episode : t.episodes.get? u.episodeId.text = g.episodes.get? u.episodeId.text
  session : t.sessions.get? u.sessionId.text = g.sessions.get? u.sessionId.text
  chunks : ∀ i, t.objects (chunkKey u.sessionId.text i) = g.objects (chunkKey u.sessionId.text i)
  object : t.objects u.path = g.objects u.path
  events : u.events t = u.events g

inductive At : Option Job → Prop
  | createEpisode (episode : g.episodes.get? u.episodeId.text = none)
      (session : g.sessions.get? u.sessionId.text = none) (events : u.events g = []) :
      At (some (.upload u .createEpisode))
  | createUploadSession (episode : g.episodes.get? u.episodeId.text = some u.opened)
      (session : g.sessions.get? u.sessionId.text = none) (events : u.events g = []) :
      At (some (.upload u .createUploadSession))
  | getUploadSession {i : ℕ} (hi : i < u.chunks) (h : u.Sent g i i) : At (some (.upload u (.getUploadSession i)))
  | uploadChunk {i : ℕ} (hi : i < u.chunks) (h : u.Sent g i i) : At (some (.upload u (.uploadChunk i i)))
  | incrementReceivedChunks {i : ℕ} (hi : i < u.chunks) (h : u.Sent g i (i + 1)) :
      At (some (.upload u (.incrementReceivedChunks i)))
  | getSession (h : u.Sent g u.chunks u.chunks) : At (some (.thread (.complete u.sessionId.text .getUploadSession)))
  | getEpisode (h : u.Sent g u.chunks u.chunks) :
      At (some (.thread (.complete u.sessionId.text (.getEpisode (u.session u.chunks)))))
  | assembleChunks (h : u.Sent g u.chunks u.chunks) :
      At (some (.thread (.complete u.sessionId.text (.assembleChunks (u.session u.chunks) u.opened))))
  | completeSession (h : u.Assembled g) :
      At (some (.thread (.complete u.sessionId.text (.completeSession (u.session u.chunks) u.opened))))
  | updateEpisodeStatus (h : u.Assembled g) :
      At (some (.thread (.complete u.sessionId.text (.updateEpisodeStatus (u.session u.chunks) u.opened))))
  | publish (h : u.Placed g) (events : u.events g = []) :
      At (some (.thread (.complete u.sessionId.text (.publish (u.session u.chunks) u.opened))))
  | deleteChunks {chunkN : ℕ} (h : u.Kept g) :
      At (some (.thread (.complete u.sessionId.text (.deleteChunks (u.session u.chunks) chunkN))))
  | finished (h : u.Kept g) : At none

end Upload

inductive Changes (episodeId : Uuid) (sessionId : Option Uuid) (g : Stores) : Stores → Prop
  | nothing : Changes episodeId sessionId g g
  | createEpisode {row : Episode} (h : episodeId.text ∉ g.episodes.keys) :
      Changes episodeId sessionId g { g with episodes := g.episodes.append episodeId.text row h }
  | createSession {id : Uuid} {row : UploadSession} (hid : sessionId = some id) (h : id.text ∉ g.sessions.keys) :
      Changes episodeId sessionId g { g with sessions := g.sessions.append id.text row h }
  | episode (f : Episode → Episode) :
      Changes episodeId sessionId g { g with episodes := g.episodes.modify episodeId.text f }
  | session {id : Uuid} (hid : sessionId = some id) (f : UploadSession → UploadSession) :
      Changes episodeId sessionId g { g with sessions := g.sessions.modify id.text f }
  | chunk {id : Uuid} (hid : sessionId = some id) (i : ℕ) (data : Option (List UInt8)) :
      Changes episodeId sessionId g { g with objects := Function.update g.objects (chunkKey id.text i) data }
  | object (rest : String) (data : Option (List UInt8)) :
      Changes episodeId sessionId g
        { g with objects := Function.update g.objects ("episodes/" ++ episodeId.text ++ "/" ++ rest) data }
  | publish (path format : String) :
      Changes episodeId sessionId g (publishEpisodeIngested episodeId.text path format g)

structure Known (issued : List Uuid) (g : Stores) : Prop where
  episodes : ∀ id ∈ g.episodes.keys, ∃ e ∈ issued, id = e.text
  sessions : ∀ id ∈ g.sessions.keys, ∃ e ∈ issued, id = e.text
  events : ∀ event ∈ g.events, ∃ e ∈ issued, event.episodeId = e.text

variable {u v : Upload} {g t : Stores} {job : Job} {rest : Option Job} {projects : List String}

section Frames

theorem Upload.Same.refl (u : Upload) (g : Stores) : u.Same g g := ⟨rfl, rfl, fun _ => rfl, rfl, rfl⟩

theorem Upload.Sent.same {received stored : ℕ} (h : u.Sent g received stored) (hsame : u.Same g t) :
    u.Sent t received stored :=
  ⟨hsame.episode.trans h.episode, hsame.session.trans h.session, fun i hi => (hsame.chunks i).trans (h.chunks i hi),
    hsame.events.trans h.events⟩

theorem Upload.Assembled.same (h : u.Assembled g) (hsame : u.Same g t) : u.Assembled t :=
  ⟨hsame.episode.trans h.episode, hsame.object.trans h.object, hsame.events.trans h.events⟩

theorem Upload.Placed.same (h : u.Placed g) (hsame : u.Same g t) : u.Placed t := by
  obtain ⟨status, metadata, hstatus, hrow⟩ := h.episode
  exact ⟨⟨status, metadata, hstatus, hsame.episode.trans hrow⟩, hsame.object.trans h.object⟩

theorem Upload.Kept.same (h : u.Kept g) (hsame : u.Same g t) : u.Kept t :=
  h.imp hsame.events.trans fun h => ⟨hsame.events.trans h.1, h.2.same hsame⟩

theorem Upload.At.same {job : Option Job} (h : u.At g job) (hsame : u.Same g t) : u.At t job := by
  cases h with
  | createEpisode hepisode hsession hevents =>
    exact .createEpisode (hsame.episode.trans hepisode) (hsame.session.trans hsession) (hsame.events.trans hevents)
  | createUploadSession hepisode hsession hevents =>
    exact .createUploadSession (hsame.episode.trans hepisode) (hsame.session.trans hsession)
      (hsame.events.trans hevents)
  | getUploadSession hi h => exact .getUploadSession hi (h.same hsame)
  | uploadChunk hi h => exact .uploadChunk hi (h.same hsame)
  | incrementReceivedChunks hi h => exact .incrementReceivedChunks hi (h.same hsame)
  | getSession h => exact .getSession (h.same hsame)
  | getEpisode h => exact .getEpisode (h.same hsame)
  | assembleChunks h => exact .assembleChunks (h.same hsame)
  | completeSession h => exact .completeSession (h.same hsame)
  | updateEpisodeStatus h => exact .updateEpisodeStatus (h.same hsame)
  | publish h hevents => exact .publish (h.same hsame) (hsame.events.trans hevents)
  | deleteChunks h => exact .deleteChunks (h.same hsame)
  | finished h => exact .finished (h.same hsame)

theorem chunkKey_ne_path (i : ℕ) (sessionId : String) : chunkKey sessionId i ≠ u.path :=
  chunkKey_ne_storagePath i _ _

theorem Upload.Same.put {key : String} (data : Option (List UInt8)) (hchunk : ∀ i, chunkKey u.sessionId.text i ≠ key)
    (hpath : u.path ≠ key) : u.Same g { g with objects := Function.update g.objects key data } :=
  ⟨rfl, rfl, fun i => Function.update_of_ne (hchunk i) .., Function.update_of_ne hpath .., rfl⟩

theorem Changes.same {episodeId : Uuid} {sessionId : Option Uuid} (h : Changes episodeId sessionId g t)
    (hepisode : u.episodeId ≠ episodeId) (hsession : sessionId ≠ some u.sessionId) : u.Same g t := by
  have htext : u.episodeId.text ≠ episodeId.text := fun he => hepisode (Uuid.text_injective he)
  have hother {id : Uuid} (hid : sessionId = some id) : u.sessionId ≠ id := by
    rintro rfl
    exact hsession hid
  cases h with
  | nothing => exact .refl u g
  | createEpisode hid =>
    exact ⟨(OrderedDict.get?_append _ _ _ _ hid).trans (if_neg htext), rfl, fun _ => rfl, rfl, rfl⟩
  | createSession hid hfresh =>
    have htext : u.sessionId.text ≠ _ := fun he => hother hid (Uuid.text_injective he)
    exact ⟨rfl, (OrderedDict.get?_append _ _ _ _ hfresh).trans (if_neg htext), fun _ => rfl, rfl, rfl⟩
  | episode f => exact ⟨(OrderedDict.get?_modify ..).trans (if_neg htext), rfl, fun _ => rfl, rfl, rfl⟩
  | session hid f =>
    have htext : u.sessionId.text ≠ _ := fun he => hother hid (Uuid.text_injective he)
    exact ⟨rfl, (OrderedDict.get?_modify ..).trans (if_neg htext), fun _ => rfl, rfl, rfl⟩
  | @chunk id hid i data =>
    refine .put data (fun j he => hother hid (Uuid.text_injective ?_)) (chunkKey_ne_path i id.text).symm
    exact eq_of_chunkKey (slash_not_mem_text _) (slash_not_mem_text _) he
  | object rest data =>
    refine .put data (fun i => chunkKey_ne_episodeKey _ _ _ i) (fun he => htext ?_)
    exact eq_of_episodeKey (slash_not_mem_text _) (slash_not_mem_text _) he
  | publish path format =>
    refine ⟨rfl, rfl, fun _ => rfl, rfl, ?_⟩
    rw [Upload.events, publishEpisodeIngested, List.filter_append, List.filter_cons_of_neg (by simpa using htext.symm),
      List.filter_nil, List.append_nil]
    rfl

theorem Known.mono {issued issued' : List Uuid} (h : Known issued g) (hsub : issued ⊆ issued') : Known issued' g :=
  ⟨fun id hid => (h.episodes id hid).imp fun _ he => ⟨hsub he.1, he.2⟩,
    fun id hid => (h.sessions id hid).imp fun _ he => ⟨hsub he.1, he.2⟩,
    fun e he => (h.events e he).imp fun _ hid => ⟨hsub hid.1, hid.2⟩⟩

theorem Changes.known {episodeId : Uuid} {sessionId : Option Uuid} {issued : List Uuid} (h : Known issued g)
    (hchanges : Changes episodeId sessionId g t) (hepisode : episodeId ∈ issued)
    (hsession : ∀ id, sessionId = some id → id ∈ issued) : Known issued t := by
  cases hchanges with
  | nothing => exact h
  | createEpisode hid =>
    refine ⟨fun id hmem => ?_, h.sessions, h.events⟩
    rw [OrderedDict.keys_append, List.mem_append, List.mem_singleton] at hmem
    rcases hmem with hmem | rfl
    · exact h.episodes id hmem
    · exact ⟨episodeId, hepisode, rfl⟩
  | @createSession sid _ hid hfresh =>
    refine ⟨h.episodes, fun id hmem => ?_, h.events⟩
    rw [OrderedDict.keys_append, List.mem_append, List.mem_singleton] at hmem
    rcases hmem with hmem | rfl
    · exact h.sessions id hmem
    · exact ⟨sid, hsession sid hid, rfl⟩
  | episode f =>
    refine ⟨fun id hmem => h.episodes id ?_, h.sessions, h.events⟩
    rwa [OrderedDict.keys_modify] at hmem
  | session hid f =>
    refine ⟨h.episodes, fun id hmem => h.sessions id ?_, h.events⟩
    rwa [OrderedDict.keys_modify] at hmem
  | chunk => exact ⟨h.episodes, h.sessions, h.events⟩
  | object => exact ⟨h.episodes, h.sessions, h.events⟩
  | publish path format =>
    refine ⟨h.episodes, h.sessions, fun event hmem => ?_⟩
    rw [publishEpisodeIngested, List.mem_append, List.mem_singleton] at hmem
    rcases hmem with hmem | rfl
    · exact h.events event hmem
    · exact ⟨episodeId, hepisode, rfl⟩

end Frames

section Own

theorem chunks_eq (u : Upload) : (u.chunks : ℤ) = totalChunks u.file.content.length ∧
    u.response.totalChunks = u.chunks := by
  have htotal : u.response.totalChunks = totalChunks u.file.content.length :=
    congrArg totalChunks (Float64.ofInt_of_le u.size)
  have hnonneg : 0 ≤ totalChunks u.file.content.length := by
    rw [totalChunks, Float64.ofInt_of_le u.size, uploadChunkSize]
    omega
  rw [Upload.chunks, htotal, Int.toNat_of_nonneg hnonneg]
  exact ⟨rfl, rfl⟩

theorem chunk_eq_piece {i : ℕ} (hi : i < u.chunks) : u.chunk i = piece u.file i := by
  refine slice_eq_piece u.size ?_
  rw [← (chunks_eq u).1]
  exact Int.ofNat_lt.mpr hi

theorem chunkNumber_toString {i : ℕ} (hi : i < u.chunks) : chunkNumber (toString i) = .ok i := by
  have hchunks := (chunks_eq u).1
  have hsize := u.size
  rw [totalChunks, Float64.ofInt_of_le hsize, uploadChunkSize] at hchunks
  rw [chunkNumber, Decimal.atoi_toString (by omega)]

theorem pieces_eq_content (u : Upload) : ((List.range u.chunks).map (piece u.file)).flatten = u.file.content := by
  rw [← parts_eq_content u.size, ← (chunks_eq u).1, Int.toNat_natCast]

theorem createdRow_eq (u : Upload) : u.opened = ⟨u.jwtProjectId, u.file.name, fileFormat u.file.name,
    (initRequest u.file).sizeBytes, .uploading, none, .obj []⟩ := by
  rw [Upload.opened, openedEpisode, initRequest, if_pos rfl]

theorem Upload.At.request {i : ℕ} (hi : i ≤ u.chunks) (h : u.Sent g i i) : u.At g (some (u.request i)) := by
  unfold Upload.request
  split_ifs with hlt
  · exact .getUploadSession hlt h
  · have hall : i = u.chunks := le_antisymm hi (not_lt.mp hlt)
    exact .getSession (hall ▸ h)

theorem Upload.Kept.deleteFrom (h : u.Kept g) (chunkN : ℕ) :
    u.At g ((IngestPipeline.deleteFrom u.sessionId.text (u.session u.chunks) chunkN).map .thread) := by
  unfold IngestPipeline.deleteFrom
  split_ifs
  · exact .deleteChunks h
  · exact .finished h

theorem Upload.At.kept {rest : Option Job} (h : u.At g rest) : u.Kept g := by
  cases h with
  | createEpisode _ _ hevents => exact .inl hevents
  | createUploadSession _ _ hevents => exact .inl hevents
  | getUploadSession _ h => exact .inl h.events
  | uploadChunk _ h => exact .inl h.events
  | incrementReceivedChunks _ h => exact .inl h.events
  | getSession h => exact .inl h.events
  | getEpisode h => exact .inl h.events
  | assembleChunks h => exact .inl h.events
  | completeSession h => exact .inl h.events
  | updateEpisodeStatus h => exact .inl h.events
  | publish _ hevents => exact .inl hevents
  | deleteChunks h => exact h
  | finished h => exact h

theorem Upload.Sent.storeChunk {i : ℕ} (h : u.Sent g i i) :
    u.Sent { g with objects := Function.update g.objects (chunkKey u.sessionId.text i) (some (piece u.file i)) } i
      (i + 1) := by
  refine ⟨h.episode, h.session, fun j hj => ?_, h.events⟩
  rcases Nat.lt_succ_iff_lt_or_eq.mp hj with hlt | rfl
  · have hne : j ≠ i := hlt.ne
    exact (Function.update_of_ne (fun he => hne (chunkKey_injective _ he)) ..).trans (h.chunks j hlt)
  · exact Function.update_self ..

theorem Upload.Sent.countChunk {i : ℕ} (h : u.Sent g i (i + 1)) :
    u.Sent { g with sessions := g.sessions.modify u.sessionId.text Gateway.countChunk } (i + 1) (i + 1) := by
  refine ⟨h.episode, ?_, h.chunks, h.events⟩
  rw [OrderedDict.get?_modify, if_pos rfl, h.session, Option.map_some, Gateway.countChunk, Upload.session,
    Upload.session, Int.natCast_add, Int.natCast_one]

theorem Upload.Sent.assemble (h : u.Sent g u.chunks u.chunks) :
    u.Assembled { g with objects := Function.update g.objects u.path (some u.file.content) } :=
  ⟨h.episode, Function.update_self .., h.events⟩

theorem Upload.Sent.parts (h : u.Sent g u.chunks u.chunks) :
    ((List.range (u.session u.chunks).totalChunks.toNat).map (chunkKey u.sessionId.text)).mapM g.objects =
      some ((List.range u.chunks).map (piece u.file)) :=
  ListMaps.mapM_map_of_forall fun i hi => h.chunks i (List.mem_range.mp hi)

theorem Upload.Assembled.place (h : u.Assembled g) :
    u.Placed { g with episodes := g.episodes.modify u.episodeId.text (placeEpisode u.path) } := by
  refine ⟨⟨.processing, u.opened.metadata, .inl rfl, ?_⟩, h.object⟩
  rw [OrderedDict.get?_modify, if_pos rfl, h.episode, Option.map_some]
  rfl

theorem Upload.Placed.published (h : u.Placed g) (hevents : u.events g = []) :
    u.Kept (publishEpisodeIngested u.episodeId.text u.path (fileFormat u.file.name) g) := by
  refine .inr ⟨?_, h.episode, h.object⟩
  rw [Upload.events, publishEpisodeIngested, List.filter_append, List.filter_cons_of_pos (by simp), List.filter_nil]
  change u.events g ++ _ = _
  rw [hevents]
  rfl

theorem Upload.Kept.removeChunk (h : u.Kept g) (chunkN : ℕ) :
    u.Kept (removeObject (chunkKey u.sessionId.text chunkN) g) := by
  have hobject : (removeObject (chunkKey u.sessionId.text chunkN) g).objects u.path = g.objects u.path :=
    Function.update_of_ne (chunkKey_ne_path chunkN u.sessionId.text).symm none g.objects
  exact h.imp id fun h => ⟨h.1, h.2.episode, hobject.trans h.2.object⟩

theorem Upload.At.answer (h : u.At g (some job)) (hanswer : job.answer projects g = some (rest, t)) :
    u.At t rest ∧ Changes u.episodeId (some u.sessionId) g t := by
  cases h with
  | createEpisode hepisode hsession hevents =>
    obtain ⟨⟨_, t⟩, hcall, he⟩ := Option.map_eq_some_iff.mp hanswer
    cases he
    obtain ⟨hfresh, rfl⟩ := createEpisode_eq_some.mp hcall
    refine ⟨.createUploadSession ?_ hsession hevents, .createEpisode hfresh⟩
    rw [OrderedDict.get?_append, if_pos rfl, createdRow_eq]
  | createUploadSession hepisode hsession hevents =>
    obtain ⟨⟨_, t⟩, hcall, he⟩ := Option.map_eq_some_iff.mp hanswer
    cases he
    obtain ⟨hfresh, rfl⟩ := createUploadSession_eq_some.mp hcall
    refine ⟨.request (Nat.zero_le _) ⟨hepisode, ?_, fun i hi => absurd hi (Nat.not_lt_zero i), hevents⟩,
      .createSession rfl hfresh⟩
    rw [OrderedDict.get?_append, if_pos rfl]
    rfl
  | @getUploadSession i hi h =>
    simp only [Job.answer, uploadCall, chunkNumber_toString hi, Option.map_eq_some_iff, Prod.exists,
      getUploadSession_eq_some] at hanswer
    obtain ⟨sess, t, ⟨hsession, rfl⟩, he⟩ := hanswer
    cases h.session.symm.trans hsession
    have hrange : (u.session i).status = .inProgress ∧ (i : ℤ) < (u.session i).totalChunks := by
      refine ⟨rfl, ?_⟩
      change (i : ℤ) < u.response.totalChunks
      rw [(chunks_eq u).2]
      exact Int.ofNat_lt.mpr hi
    rw [if_pos hrange] at he
    cases he
    exact ⟨.uploadChunk hi h, .nothing⟩
  | @uploadChunk i hi h =>
    cases hanswer
    refine ⟨?_, .chunk rfl i _⟩
    rw [chunk_eq_piece hi]
    exact .incrementReceivedChunks hi h.storeChunk
  | incrementReceivedChunks hi h =>
    cases hanswer
    exact ⟨.request hi h.countChunk, .session rfl _⟩
  | getSession h =>
    simp only [Job.answer, Thread.answer, IngestPipeline.completeCall, Option.map_eq_some_iff, Prod.exists,
      getUploadSession_eq_some, Prod.mk.injEq] at hanswer
    obtain ⟨_, _, ⟨sess, _, ⟨hsession, rfl⟩, rfl, rfl⟩, rfl, rfl⟩ := hanswer
    cases h.session.symm.trans hsession
    have hreceived : (u.session u.chunks).status = .inProgress ∧
        (u.session u.chunks).receivedChunks = (u.session u.chunks).totalChunks := ⟨rfl, (chunks_eq u).2.symm⟩
    rw [if_pos hreceived]
    exact ⟨.getEpisode h, .nothing⟩
  | getEpisode h =>
    simp only [Job.answer, Thread.answer, IngestPipeline.completeCall, Option.map_eq_some_iff, Prod.exists,
      getEpisode_eq_some, Prod.mk.injEq] at hanswer
    obtain ⟨_, _, ⟨ep, _, ⟨hepisode, rfl⟩, rfl, rfl⟩, rfl, rfl⟩ := hanswer
    cases h.episode.symm.trans hepisode
    exact ⟨.assembleChunks h, .nothing⟩
  | assembleChunks h =>
    simp only [Job.answer, Thread.answer, IngestPipeline.completeCall, Option.map_eq_some_iff, Prod.exists,
      assembleChunks_eq_some, Prod.mk.injEq] at hanswer
    obtain ⟨_, _, ⟨_, _, ⟨parts, hparts, rfl⟩, rfl, rfl⟩, rfl, rfl⟩ := hanswer
    cases h.parts.symm.trans hparts
    rw [pieces_eq_content]
    exact ⟨.completeSession h.assemble, .object _ _⟩
  | completeSession h =>
    cases hanswer
    exact ⟨.updateEpisodeStatus ⟨h.episode, h.object, h.events⟩, .session rfl _⟩
  | updateEpisodeStatus h =>
    cases hanswer
    exact ⟨.publish h.place h.events, .episode _⟩
  | publish h hevents =>
    cases hanswer
    exact ⟨(h.published hevents).deleteFrom 0, .publish _ _⟩
  | @deleteChunks chunkN h =>
    cases hanswer
    exact ⟨(h.removeChunk chunkN).deleteFrom (chunkN + 1), .chunk rfl chunkN none⟩

theorem Upload.At.onError (h : u.At g (some job)) (hkept : u.Kept t) : u.At t job.onError := by
  cases h with
  | publish | deleteChunks => exact hkept.deleteFrom _
  | _ => exact .finished hkept

theorem Upload.At.call (h : u.At g (some job)) (outcome : Outcome Unit) :
    u.At (job.call projects outcome g).2 (job.call projects outcome g).1 ∧
      Changes u.episodeId (some u.sessionId) g (job.call projects outcome g).2 := by
  unfold Job.call
  cases hanswer : job.answer projects g with
  | none => cases outcome <;> exact ⟨h.onError h.kept, .nothing⟩
  | some p =>
    obtain ⟨hat, hchanges⟩ := h.answer hanswer
    cases outcome with
    | ok => exact ⟨hat, hchanges⟩
    | raises => exact ⟨h.onError h.kept, .nothing⟩
    | raisesLate => exact ⟨h.onError hat.kept, hchanges⟩

end Own

section Others

theorem seal_answer {work : SealWork} {id : Uuid} {step : IngestPipeline.SealStep} (hwork : work.episodeId = id.text)
    {rest : Option Thread} (hanswer : IngestPipeline.sealCall work g step = some (rest, t)) :
    Changes id none g t ∧ ∀ th, rest = some th → ∃ step, th = .sealing work step := by
  cases step with
  | createEpisode =>
    obtain ⟨⟨_, t⟩, hcall, he⟩ := Option.map_eq_some_iff.mp hanswer
    cases he
    obtain ⟨hfresh, rfl⟩ := createEpisodeFromStream_eq_some.mp hcall
    refine ⟨?_, fun th hth => ⟨.putObject, (Option.some.inj hth).symm⟩⟩
    obtain ⟨episodeId, sessionId, unixNano, data⟩ := work
    cases hwork
    exact .createEpisode hfresh
  | putObject =>
    cases hanswer
    have hkey : streamPath work.episodeId = "episodes/" ++ id.text ++ "/" ++ "stream.bin" := by
      rw [streamPath, hwork, String.append_assoc, String.append_assoc, String.append_assoc]
      rfl
    rw [hkey]
    exact ⟨.object _ _, fun th hth => ⟨.updateEpisodeStatus, (Option.some.inj hth).symm⟩⟩
  | updateEpisodeStatus =>
    cases hanswer
    refine ⟨?_, fun th hth => ⟨.publish, (Option.some.inj hth).symm⟩⟩
    rw [hwork]
    exact .episode _
  | publish =>
    cases hanswer
    refine ⟨?_, by simp⟩
    rw [hwork]
    exact .publish _ _

structure Marks (f : Episode → Episode) : Prop where
  row : ∀ ep, ∃ status metadata, (status = .processing ∨ status = .ready) ∧
    f ep = { ep with status := status, metadata := metadata }

theorem process_answer {msgId : ℕ} {event : IngestEvent} {metadata : Json} {step : IngestPipeline.ProcessStep}
    {rest : Option Thread}
    (hanswer : IngestPipeline.processCall projects msgId event metadata g step = some (rest, t)) :
    (t = g ∨ ∃ f, Marks f ∧ t = { g with episodes := g.episodes.modify event.episodeId f }) ∧
      ∀ th, rest = some th → ∃ step, th = .process msgId event metadata step := by
  cases step with
  | updateEpisodeStatus =>
    cases hanswer
    exact ⟨.inr ⟨_, ⟨fun ep => ⟨.processing, ep.metadata, .inl rfl, rfl⟩⟩, rfl⟩,
      fun th hth => ⟨_, (Option.some.inj hth).symm⟩⟩
  | updateEpisodeReady =>
    cases hanswer
    exact ⟨.inr ⟨_, ⟨fun ep => ⟨.ready, metadata, .inr rfl, rfl⟩⟩, rfl⟩, fun th hth => ⟨_, (Option.some.inj hth).symm⟩⟩
  | download | getEpisodeProject =>
    obtain ⟨_, -, he⟩ := Option.map_eq_some_iff.mp hanswer
    cases he
    exact ⟨.inl rfl, fun th hth => ⟨_, (Option.some.inj hth).symm⟩⟩
  | extract =>
    rw [IngestPipeline.processCall, Option.ite_none_right_eq_some] at hanswer
    cases hanswer.2
    exact ⟨.inl rfl, fun th hth => ⟨_, (Option.some.inj hth).symm⟩⟩
  | score | thumbnail =>
    cases hanswer
    exact ⟨.inl rfl, fun th hth => ⟨_, (Option.some.inj hth).symm⟩⟩
  | ack =>
    cases hanswer
    exact ⟨.inl rfl, by simp⟩

theorem Upload.At.unpublished_or {job : Option Job} (h : u.At g job) : u.events g = [] ∨ job = none ∨
    ∃ chunkN, job = some (.thread (.complete u.sessionId.text (.deleteChunks (u.session u.chunks) chunkN))) := by
  cases h with
  | createEpisode _ _ hevents => exact .inl hevents
  | createUploadSession _ _ hevents => exact .inl hevents
  | getUploadSession _ h => exact .inl h.events
  | uploadChunk _ h => exact .inl h.events
  | incrementReceivedChunks _ h => exact .inl h.events
  | getSession h => exact .inl h.events
  | getEpisode h => exact .inl h.events
  | assembleChunks h => exact .inl h.events
  | completeSession h => exact .inl h.events
  | updateEpisodeStatus h => exact .inl h.events
  | publish _ hevents => exact .inl hevents
  | deleteChunks => exact .inr (.inr ⟨_, rfl⟩)
  | finished => exact .inr (.inl rfl)

theorem Upload.At.published {job : Option Job} (h : u.At g job) (hevents : u.events g ≠ []) (hkept : u.Kept t) :
    u.At t job := by
  rcases h.unpublished_or.resolve_left hevents with rfl | ⟨chunkN, rfl⟩
  · exact .finished hkept
  · exact .deleteChunks hkept

theorem Upload.At.worker {event : IngestEvent} {f : Episode → Episode} {job : Option Job} (h : u.At g job)
    (hevent : event ∈ g.events) (hf : Marks f) :
    u.At { g with episodes := g.episodes.modify event.episodeId f } job := by
  by_cases hid : event.episodeId = u.episodeId.text
  · have hmem : event ∈ u.events g := List.mem_filter.mpr ⟨hevent, decide_eq_true hid⟩
    refine h.published (List.ne_nil_of_mem hmem) (h.kept.imp (fun hk => hk) fun hk => ⟨hk.1, ?_, hk.2.object⟩)
    obtain ⟨_, _, -, hrow⟩ := hk.2.episode
    obtain ⟨status, metadata, hstatus, hf⟩ := hf.row _
    refine ⟨status, metadata, hstatus, ?_⟩
    rw [OrderedDict.get?_modify, if_pos hid.symm, hrow, Option.map_some, hf]
  · exact h.same ⟨(OrderedDict.get?_modify ..).trans (if_neg (Ne.symm hid)), rfl, fun _ => rfl, rfl, rfl⟩

end Others

end Embedai.UploadThreads
