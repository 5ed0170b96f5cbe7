import Embedai.UploadedObjects

namespace Embedai.UploadThreads

open Gateway Handlers StreamServer TracedHandlers TransitionSystems
open IngestPipeline (Thread)

structure Upload.Ready (u : Upload) (g : Stores) : Prop where
  row : ∃ ep, g.episodes.get? u.episodeId.text = some ep ∧ ep.storagePath = some u.path
  object : g.objects u.path = some u.file.content

structure Upload.Honest (u : Upload) (g : Stores) (ep : Episode) : Prop where
  projectId : ep.projectId = u.jwtProjectId
  format : ep.format = fileFormat u.file.name
  storagePath : ep.storagePath = none ∨ u.Ready g

def Upload.RowHonest (u : Upload) (g : Stores) : Prop :=
  ∀ ep, g.episodes.get? u.episodeId.text = some ep → u.Honest g ep

variable {u : Upload} {g t : Stores} {job : Job} {rest : Option Job} {projects : List String}

section Rows

theorem Upload.Ready.congr (h : u.Ready g)
    (hrow : t.episodes.get? u.episodeId.text = g.episodes.get? u.episodeId.text)
    (hobject : t.objects u.path = g.objects u.path) : u.Ready t := by
  obtain ⟨⟨ep, hep, hpath⟩, hcontent⟩ := h
  exact ⟨⟨ep, hrow.trans hep, hpath⟩, hobject.trans hcontent⟩

theorem Upload.RowHonest.congr (h : u.RowHonest g)
    (hrow : t.episodes.get? u.episodeId.text = g.episodes.get? u.episodeId.text)
    (hobject : t.objects u.path = g.objects u.path) : u.RowHonest t := by
  intro ep hep
  have hhonest := h ep (hrow.symm.trans hep)
  exact ⟨hhonest.projectId, hhonest.format, hhonest.storagePath.imp_right fun hr => hr.congr hrow hobject⟩

theorem not_ready_of_opened (h : g.episodes.get? u.episodeId.text = some u.opened) : ¬ u.Ready g := by
  rintro ⟨⟨ep, hep, hpath⟩, -⟩
  rw [h, Option.some.injEq] at hep
  rw [← hep, createdRow_eq] at hpath
  cases hpath

theorem rowHonest_of_opened (h : g.episodes.get? u.episodeId.text = some u.opened) : u.RowHonest g := by
  intro ep hep
  rw [h, Option.some.injEq, createdRow_eq] at hep
  subst hep
  exact ⟨rfl, rfl, .inl rfl⟩

theorem storagePath_placed (u : Upload) (ep : Episode) : (placeEpisode u.path ep).storagePath = some u.path := by
  rw [placeEpisode, Upload.path, storagePath, String.append_assoc]
  exact nullIfEmpty_episodes u.episodeId.text ("/" ++ u.file.name)

theorem Upload.Placed.ready (h : u.Placed g) : u.Ready g := by
  obtain ⟨status, metadata, -, hrow⟩ := h.episode
  exact ⟨⟨_, hrow, storagePath_placed u u.opened⟩, h.object⟩

theorem Upload.Placed.rowHonest (h : u.Placed g) : u.RowHonest g := by
  obtain ⟨status, metadata, -, hrow⟩ := h.episode
  intro ep hep
  rw [hrow, Option.some.injEq] at hep
  subst hep
  exact ⟨congrArg Episode.projectId (createdRow_eq u), congrArg Episode.format (createdRow_eq u), .inr h.ready⟩

def Upload.KeepsRow (u : Upload) (g t : Stores) : Prop := (u.RowHonest g → u.RowHonest t) ∧ (u.Ready g → u.Ready t)

theorem keeps_of_same (hrow : t.episodes.get? u.episodeId.text = g.episodes.get? u.episodeId.text)
    (hobject : t.objects u.path = g.objects u.path) : u.KeepsRow g t :=
  ⟨fun h => h.congr hrow hobject, fun h => h.congr hrow hobject⟩

theorem keeps_of_opened (hg : ¬ u.Ready g) (ht : t.episodes.get? u.episodeId.text = some u.opened) : u.KeepsRow g t :=
  ⟨fun _ => rowHonest_of_opened ht, fun h => absurd h hg⟩

theorem Upload.At.keepsRow (h : u.At g (some job)) (hanswer : job.answer projects g = some (rest, t)) :
    u.KeepsRow g t := by
  have hat := (h.answer hanswer).1
  cases h with
  | createEpisode hepisode hsession hevents =>
    obtain ⟨⟨_, t⟩, hcall, he⟩ := Option.map_eq_some_iff.mp hanswer
    cases he
    cases hat with
    | createUploadSession hrow =>
      refine keeps_of_opened (fun hready => ?_) hrow
      obtain ⟨ep, hep, -⟩ := hready.row
      rw [hepisode] at hep
      cases hep
  | createUploadSession hepisode hsession hevents =>
    obtain ⟨⟨_, t⟩, hcall, he⟩ := Option.map_eq_some_iff.mp hanswer
    cases he
    obtain ⟨hfresh, rfl⟩ := createUploadSession_eq_some.mp hcall
    exact keeps_of_same rfl rfl
  | @getUploadSession i hi h =>
    simp only [Job.answer, uploadCall, chunkNumber_toString hi, Option.map_eq_some_iff, Prod.exists,
      getUploadSession_eq_some] at hanswer
    obtain ⟨sess, _, ⟨-, rfl⟩, he⟩ := hanswer
    cases he
    exact keeps_of_same rfl rfl
  | @uploadChunk i hi h =>
    cases hanswer
    exact keeps_of_same rfl
      (Function.update_of_ne (chunkKey_ne_path i u.sessionId.text).symm (some (u.chunk i)) g.objects)
  | incrementReceivedChunks hi h =>
    cases hanswer
    exact keeps_of_same rfl rfl
  | getSession h =>
    simp only [Job.answer, Thread.answer, IngestPipeline.completeCall, Option.map_eq_some_iff, Prod.exists,
      getUploadSession_eq_some, Prod.mk.injEq] at hanswer
    obtain ⟨_, _, ⟨_, _, ⟨-, rfl⟩, -, rfl⟩, -, rfl⟩ := hanswer
    exact keeps_of_same rfl rfl
  | getEpisode h =>
    simp only [Job.answer, Thread.answer, IngestPipeline.completeCall, Option.map_eq_some_iff, Prod.exists,
      getEpisode_eq_some, Prod.mk.injEq] at hanswer
    obtain ⟨_, _, ⟨_, _, ⟨-, rfl⟩, -, rfl⟩, -, rfl⟩ := hanswer
    exact keeps_of_same rfl rfl
  | assembleChunks h =>
    simp only [Job.answer, Thread.answer, IngestPipeline.completeCall, Option.map_eq_some_iff, Prod.exists,
      assembleChunks_eq_some, Prod.mk.injEq] at hanswer
    obtain ⟨_, _, ⟨_, _, ⟨_, -, rfl⟩, -, rfl⟩, -, rfl⟩ := hanswer
    exact keeps_of_opened (not_ready_of_opened h.episode) h.episode
  | completeSession h =>
    cases hanswer
    exact keeps_of_same rfl rfl
  | updateEpisodeStatus h =>
    cases hanswer
    exact ⟨fun _ => h.place.rowHonest, fun _ => h.place.ready⟩
  | publish h hevents =>
    cases hanswer
    exact keeps_of_same rfl rfl
  | @deleteChunks chunkN h =>
    cases hanswer
    exact keeps_of_same rfl (Function.update_of_ne (chunkKey_ne_path chunkN u.sessionId.text).symm none g.objects)

theorem Upload.KeepsRow.refl (u : Upload) (g : Stores) : u.KeepsRow g g := ⟨id, id⟩

theorem Upload.Same.keepsRow (h : u.Same g t) : u.KeepsRow g t := keeps_of_same h.episode h.object

theorem keeps_marks {f : Episode → Episode} (hf : Marks f) (episodeId : String) :
    u.KeepsRow g { g with episodes := g.episodes.modify episodeId f } := by
  by_cases hid : u.episodeId.text = episodeId
  · have hrow : (g.episodes.modify episodeId f).get? u.episodeId.text = (g.episodes.get? u.episodeId.text).map f := by
      rw [OrderedDict.get?_modify, if_pos hid]
    have hready (h : u.Ready g) : u.Ready { g with episodes := g.episodes.modify episodeId f } := by
      obtain ⟨ep, hep, hpath⟩ := h.row
      obtain ⟨status, metadata, -, hmarked⟩ := hf.row ep
      refine ⟨⟨f ep, hrow.trans (by rw [hep, Option.map_some]), ?_⟩, h.object⟩
      rw [hmarked]
      exact hpath
    refine ⟨fun h ep' hep' => ?_, hready⟩
    obtain ⟨ep, hep, rfl⟩ := Option.map_eq_some_iff.mp (hrow.symm.trans hep')
    obtain ⟨status, metadata, -, hmarked⟩ := hf.row ep
    have hhonest := h ep hep
    rw [hmarked]
    exact ⟨hhonest.projectId, hhonest.format, hhonest.storagePath.imp_right hready⟩
  · exact keeps_of_same ((OrderedDict.get?_modify ..).trans (if_neg hid)) rfl

end Rows

section Runs

variable {s s' : System} {tid : ℕ} {as : List Action}

theorem Upload.At.row_call (h : u.At g (some job)) (outcome : Outcome Unit) :
    u.KeepsRow g (job.call projects outcome g).2 := by
  rcases call_cases projects outcome g job with hcall | ⟨rest, t, hanswer, hcall | hcall⟩
  · rw [hcall]
    exact .refl u g
  · rw [hcall]
    exact h.keepsRow hanswer
  · rw [hcall]
    exact h.keepsRow hanswer

theorem Other.keepsRow (h : Other s.issued s.uploads s.stores.events job) (hu : s.uploads.get? tid = some u)
    (hanswer : job.answer s.projects s.stores = some (rest, t)) : u.KeepsRow s.stores t := by
  cases h with
  | sealing id hid hwork hothers =>
    obtain ⟨⟨rest, t⟩, hseal, he⟩ := Option.map_eq_some_iff.mp hanswer
    cases he
    exact ((seal_answer hwork hseal).1.same (hothers tid u hu) (by simp)).keepsRow
  | process hevent =>
    obtain ⟨⟨rest, t⟩, hprocess, he⟩ := Option.map_eq_some_iff.mp hanswer
    cases he
    rcases (process_answer hprocess).1 with rfl | ⟨f, hf, rfl⟩
    · exact .refl u _
    · exact keeps_marks hf _

theorem row_call (hs : Sound s) (hu : s.uploads.get? tid = some u) {j : ℕ} (hjob : s.jobs.get? j = some job)
    (outcome : Outcome Unit) : u.KeepsRow s.stores (job.call s.projects outcome s.stores).2 := by
  cases hv : s.uploads.get? j with
  | some v =>
    have hat := hs.uploads j v hv
    rw [hjob] at hat
    by_cases hj : tid = j
    · rw [hj, hv, Option.some.injEq] at hu
      exact hu ▸ hat.row_call outcome
    · obtain ⟨hepisode, hsession⟩ := hs.apart tid j u v hu hv hj
      have hchanges : Changes v.episodeId (some v.sessionId) s.stores (job.call s.projects outcome s.stores).2 :=
        (hat.call outcome).2
      exact (hchanges.same hepisode fun he => hsession (Option.some.inj he).symm).keepsRow
  | none =>
    have hother := hs.others j job hv hjob
    rcases call_cases s.projects outcome s.stores job with hcall | ⟨rest, t, hanswer, hcall | hcall⟩
    · rw [hcall]
      exact .refl u _
    · rw [hcall]
      exact hother.keepsRow hu hanswer
    · rw [hcall]
      exact hother.keepsRow hu hanswer

theorem row_next {a : Action} (hs : Sound s) (hu : s.uploads.get? tid = some u) (h : next s a = some s') :
    u.KeepsRow s.stores s'.stores := by
  cases a with
  | upload j v =>
    obtain ⟨-, h⟩ := Option.ite_none_right_eq_some.mp h
    obtain ⟨w, hw, rfl⟩ := Option.map_eq_some_iff.mp h
    obtain ⟨-, rfl⟩ := spawn_eq_some.mp hw
    exact .refl u _
  | sealEpisode =>
    obtain ⟨-, rfl⟩ := spawn_eq_some.mp h
    exact .refl u _
  | deliver =>
    obtain ⟨_, -, h⟩ := Option.bind_eq_some_iff.mp h
    obtain ⟨-, rfl⟩ := spawn_eq_some.mp h
    exact .refl u _
  | call j outcome =>
    obtain ⟨job, hjob, rfl⟩ := Option.map_eq_some_iff.mp h
    exact row_call hs hu hjob outcome
  | crash =>
    rw [next] at h
    split at h
    · cases h
      exact .refl u _
    · cases h

theorem upload_cases {a : Action} (h : next s a = some s') (hu : s'.uploads.get? tid = some u) :
    s.uploads.get? tid = some u ∨
      u.episodeId ∉ s.issued ∧ s'.jobs.get? tid = some (.upload u .createEpisode) := by
  cases a with
  | upload j v =>
    obtain ⟨-, h⟩ := Option.ite_none_right_eq_some.mp h
    obtain ⟨w, hw, rfl⟩ := Option.map_eq_some_iff.mp h
    obtain ⟨⟨-, -, hnodup⟩, rfl⟩ := spawn_eq_some.mp hw
    have hget : (s.uploads.set j v).get? tid = some u := hu
    rw [OrderedDict.get?_set] at hget
    split_ifs at hget with hj
    · cases hget
      subst hj
      simp only [List.cons_append, List.nil_append, List.nodup_cons, List.mem_cons, not_or] at hnodup
      exact .inr ⟨hnodup.1.2, (get?_setJob ..).trans (if_pos rfl)⟩
    · exact .inl hget
  | sealEpisode =>
    obtain ⟨-, rfl⟩ := spawn_eq_some.mp h
    exact .inl hu
  | deliver =>
    obtain ⟨_, -, h⟩ := Option.bind_eq_some_iff.mp h
    obtain ⟨-, rfl⟩ := spawn_eq_some.mp h
    exact .inl hu
  | call j outcome =>
    obtain ⟨job, hjob, rfl⟩ := Option.map_eq_some_iff.mp h
    exact .inl hu
  | crash =>
    rw [next] at h
    split at h
    · cases h
      exact .inl hu
    · cases h

structure SoundRows (s : System) : Prop where
  sound : Sound s
  rows : ∀ tid u, s.uploads.get? tid = some u → u.RowHonest s.stores

theorem soundRows_start (projects : List String) : SoundRows (start projects) :=
  ⟨sound_start projects, fun _ _ h => absurd h (by simp [start, OrderedDict.get?, OrderedDict.empty])⟩

theorem soundRows_next {a : Action} (hs : SoundRows s) (h : next s a = some s') : SoundRows s' := by
  have hsound := sound_next hs.sound h
  refine ⟨hsound, fun tid u hu => ?_⟩
  rcases upload_cases h hu with hold | ⟨-, hjob⟩
  · exact (row_next hs.sound hold h).1 (hs.rows tid u hold)
  · have hat := hsound.uploads tid u hu
    rw [hjob] at hat
    cases hat with
    | createEpisode hepisode =>
      intro ep hep
      rw [hepisode] at hep
      cases hep

end Runs

end Embedai.UploadThreads
