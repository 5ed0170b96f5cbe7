import Embedai.ExportedObjects

namespace Embedai.ExportWorker

open DatasetService Handlers ObjectLocations TracedHandlers

theorem lookup_json {group : List Payload} (h : (group.map Payload.name).Nodup) {p : Payload} (hp : p ∈ group) :
    (group.flatMap Payload.members).lookup (p.name ++ ".json") = some (.json (.arr p.annotations)) := by
  induction group with
  | nil => cases hp
  | cons q group ih =>
    rw [List.map_cons, List.nodup_cons] at h
    have hmcap : (p.name ++ ".json" == q.name ++ ".mcap") = false :=
      beq_eq_false_iff_ne.mpr (mcap_ne_json q.name p.name).symm
    rw [List.flatMap_cons, Payload.members, List.cons_append, List.lookup_cons, hmcap, List.cons_append,
      List.lookup_cons]
    rcases List.mem_cons.mp hp with rfl | hp
    · rw [beq_self_eq_true]
    · have hne : p.name ≠ q.name := by
        intro he
        exact h.1 (he ▸ List.mem_map_of_mem hp)
      have hjson : (p.name ++ ".json" == q.name ++ ".json") = false :=
        beq_eq_false_iff_ne.mpr (fun he => hne ((String.append_left_inj _).mp he))
      rw [hjson, List.nil_append]
      exact ih h.2 hp

theorem recoverSample_members {files : List (String × File)} {ps : List Payload}
    (h : ∀ p ∈ ps, files.lookup (p.name ++ ".json") = some (.json (.arr p.annotations))) :
    (ps.flatMap Payload.members).filterMap (recoverSample files) = ps := by
  induction ps with
  | nil => rfl
  | cons p ps ih =>
    have hmcap : recoverSample files (p.name ++ ".mcap", .bytes p.mcap) = some p := by
      simp only [recoverSample, mcapBase?_mcap, h p (List.mem_cons_self ..)]
    have hjson : recoverSample files (p.name ++ ".json", .json (.arr p.annotations)) = none := by
      simp only [recoverSample, mcapBase?_json]
    rw [List.flatMap_cons, Payload.members, List.cons_append, List.filterMap_cons_some hmcap, List.cons_append,
      List.filterMap_cons_none hjson, List.nil_append, ih (fun q hq => h q (List.mem_cons_of_mem _ hq))]

theorem recoverFiles_members {group : List Payload} (h : (group.map Payload.name).Nodup) :
    recoverFiles (group.flatMap Payload.members) = group :=
  recoverSample_members (fun _ hp => lookup_json h hp)

variable {dumpsLength : Json → ℕ} {settings : Settings} {calls : Calls} {jobId : Uuid} {job : ExportJob}

theorem recoverFiles_plain {files : Files} {result : ExportResult} {objects : List Upload}
    (h : objects = result.shards.zipIdx.filterMap (shardUpload jobId job files) ++ [manifestUpload jobId job result]) :
    recoverFiles (objects.filterMap plainFile) = [] := by
  have hnames : ∀ u ∈ objects, mcapBase? (basename u.location.key) = none := by
    intro u hu
    rw [h] at hu
    rcases List.mem_append.mp hu with hu | hu
    · obtain ⟨shard, -, hupload⟩ := List.mem_filterMap.mp hu
      obtain ⟨content, -, rfl⟩ := Option.map_eq_some_iff.mp hupload
      have hlast : ".tar".toList.getLast? = some 'r' := by decide
      apply mcapBase?_eq_none
      rw [basename_shardKey, String.toList_append, List.getLast?_append, hlast, Option.some_or]
      decide
    · rw [List.mem_singleton.mp hu]
      apply mcapBase?_eq_none
      rw [manifestUpload, manifestLocation, basename_manifestKey]
      decide
  apply List.filterMap_eq_nil_iff.mpr
  intro entry hentry
  obtain ⟨u, hu, hplain⟩ := List.mem_filterMap.mp hentry
  unfold plainFile at hplain
  split at hplain
  · cases hplain
    simp only [recoverSample, hnames u hu]
  · cases hplain

theorem recovered_eq {files : Files} {result : ExportResult} {objects : List Upload} {contents : List Content}
    (h : objects = result.shards.zipIdx.filterMap (shardUpload jobId job files) ++ [manifestUpload jobId job result])
    (hcontents : result.shards.filterMap (fun s => files s.path) = contents) :
    recovered objects = ↑(contents.flatMap (fun content => recoverFiles content.members)) := by
  rw [recovered, recoverFiles_plain h, List.append_nil, h, List.flatMap_append, ← hcontents,
    ← contents_of_shards jobId job, List.flatMap_map]
  congr 1
  exact List.append_nil _

theorem contents_webDataset {outputDir : String} {groups : List (List Payload)} {files : Files}
    (h : ∀ k g, groups[k]? = some g → files (shardPath outputDir (k + 1)) = some (groupContent g)) :
    (groups.mapIdx (groupInfo dumpsLength outputDir)).filterMap (fun s => files s.path) = groups.map groupContent := by
  have hcontent : ∀ p ∈ groups.zipIdx, files (shardPath outputDir (p.2 + 1)) = some (groupContent p.1) :=
    fun p hp => h p.2 p.1 (List.mem_zipIdx_iff_getElem?.mp hp)
  have hgroups : groups.map groupContent = groups.zipIdx.map (fun p => groupContent p.1) := by
    rw [← List.zipIdx_map_fst 0 groups, List.map_map, List.zipIdx_map_fst]
    rfl
  rw [List.mapIdx_eq_zipIdx_map, List.filterMap_map, hgroups]
  exact List.filterMap_eq_map_iff_forall_eq_some.mpr hcontent

theorem recoverFiles_groups {groups : List (List Payload)} (h : (groups.flatten.map Payload.name).Nodup) :
    (groups.map groupContent).flatMap (fun content => recoverFiles content.members) = groups.flatten := by
  rw [List.flatMap_map]
  induction groups with
  | nil => rfl
  | cons g groups ih =>
    rw [List.flatten_cons, List.map_append, List.nodup_append] at h
    rw [List.flatMap_cons, ih h.2.1, List.flatten_cons]
    congr 1
    exact recoverFiles_members h.1

theorem recovered_webDataset {episodeRefs : List EpisodeRef} {w : World} {past : List World} {t : Trace World}
    (hformat : job.format = "webdataset")
    (h : answer (exportSamples dumpsLength settings calls jobId job episodeRefs) ⟨w, past⟩ = (.ok (), t)) :
    ∃ ps, episodeRefs.zipIdx.mapM (fun p => payload (load calls.getObject) p.1 p.2) = .ok ps ∧
      recovered (uploadedSince w t.current) = ↑ps := by
  obtain ⟨result, files, before, hrun, huploads⟩ := uploadedSince_of_ok h
  rw [runExporter, if_pos hformat] at hrun
  obtain ⟨groups, hpayloads, -, hshards, -, hfiles⟩ := webDatasetExport_eq_ok hrun
  refine ⟨groups.flatten, hpayloads, ?_⟩
  have hcontents : result.shards.filterMap (fun s => files s.path) = groups.map groupContent := by
    rw [hshards]
    exact contents_webDataset hfiles
  rw [recovered_eq huploads hcontents, recoverFiles_groups (nodup_names hpayloads)]

theorem recovered_raw {episodeRefs : List EpisodeRef} {w : World} {past : List World} {t : Trace World}
    (hformat : job.format ≠ "webdataset")
    (h : answer (exportSamples dumpsLength settings calls jobId job episodeRefs) ⟨w, past⟩ = (.ok (), t)) :
    recovered (uploadedSince w t.current) = 0 := by
  obtain ⟨result, files, before, hrun, huploads⟩ := uploadedSince_of_ok h
  rw [runExporter, if_neg hformat] at hrun
  obtain ⟨ps, -, hshards, hfiles⟩ := rawExport_eq_ok hrun
  have hcontents : result.shards.filterMap (fun s => files s.path) =
      ps.map (fun p => Content.file (.bytes p.mcap)) := by
    rw [hshards, List.filterMap_map]
    exact List.filterMap_eq_map_iff_forall_eq_some.mpr hfiles
  rw [recovered_eq huploads hcontents, List.flatMap_map]
  have hnone : ps.flatMap (fun p => recoverFiles (Content.file (.bytes p.mcap)).members) = [] :=
    List.flatMap_eq_nil_iff.mpr (fun _ _ => rfl)
  rw [hnone]
  rfl

theorem formats_agree_iff_empty (dumpsLength : Json → ℕ) (settings : Settings) (episodeRefs : List EpisodeRef)
    (calls calls' : Calls) (jobId jobId' : Uuid) (job job' : ExportJob) (w w' : World) (past past' : List World)
    (t t' : Trace World) (hraw : job.format = "raw") (hweb : job'.format = "webdataset")
    (h : answer (exportSamples dumpsLength settings calls jobId job episodeRefs) ⟨w, past⟩ = (.ok (), t))
    (h' : answer (exportSamples dumpsLength settings calls' jobId' job' episodeRefs) ⟨w', past'⟩ = (.ok (), t')) :
    recovered (uploadedSince w t.current) = recovered (uploadedSince w' t'.current) ↔ episodeRefs = [] := by
  have hformat : job.format ≠ "webdataset" := by
    rw [hraw]
    decide
  obtain ⟨ps, hps, hrecovered⟩ := recovered_webDataset hweb h'
  have hlength := length_of_mapM hps
  rw [List.length_zipIdx] at hlength
  rw [recovered_raw hformat h, hrecovered, eq_comm, Multiset.coe_eq_zero, ← List.length_eq_zero_iff, ← hlength,
    List.length_eq_zero_iff]

def rawJob : ExportJob := { pendingJob with format := "raw" }

theorem exportRaw_ok : exportOne rawJob = (.ok (), (exportOne rawJob).2) := Prod.ext rfl rfl

theorem formats_agree_iff_empty_oneSample :
    recovered (uploadedSince oneJob (exportOne rawJob).2.current) =
      recovered (uploadedSince oneJob (exportOne pendingJob).2.current) ↔ [oneSample] = [] :=
  formats_agree_iff_empty _ _ [oneSample] _ _ ⟨5⟩ ⟨5⟩ rawJob pendingJob oneJob oneJob [] [] _ _ rfl rfl exportRaw_ok
    exportOne_ok

theorem raw_misses_samples :
    ¬ ∀ (dumpsLength : Json → ℕ) (settings : Settings) (episodeRefs : List EpisodeRef) (calls : Calls)
      (jobId jobId' : Uuid) (job job' : ExportJob) (w w' : World) (past past' : List World) (t t' : Trace World),
      job.format = "raw" → job'.format = "webdataset" →
      answer (exportSamples dumpsLength settings calls jobId job episodeRefs) ⟨w, past⟩ = (.ok (), t) →
      answer (exportSamples dumpsLength settings calls jobId' job' episodeRefs) ⟨w', past'⟩ = (.ok (), t') →
      recovered (uploadedSince w t.current) = recovered (uploadedSince w' t'.current) := by
  intro hall
  have hsame := hall _ _ [oneSample] _ ⟨5⟩ ⟨5⟩ rawJob pendingJob oneJob oneJob [] [] _ _ rfl rfl exportRaw_ok
    exportOne_ok
  obtain ⟨ps, hps, hrecovered⟩ := recovered_webDataset rfl exportOne_ok
  have hlength := length_of_mapM hps
  rw [recovered_raw (by decide) exportRaw_ok, hrecovered, eq_comm, Multiset.coe_eq_zero] at hsame
  rw [hsame] at hlength
  cases hlength

end Embedai.ExportWorker
