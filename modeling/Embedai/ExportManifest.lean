import Embedai.ExportedObjects

namespace Embedai.ExportWorker

open DatasetService Handlers ObjectLocations TracedHandlers

def shardEntry? : Json → Option ShardInfo
  | .obj fields =>
    match fields.lookup "path", fields.lookup "size_bytes", fields.lookup "sample_count" with
    | some (.str path), some (.int sizeBytes), some (.int sampleCount) =>
      some ⟨path, sizeBytes.toNat, sampleCount.toNat⟩
    | _, _, _ => none
  | _ => none

def manifestEntries : Json → Option (List ShardInfo)
  | .obj fields =>
    match fields.lookup "shards" with
    | some (.arr entries) => entries.mapM shardEntry?
    | _ => none
  | _ => none

def SameBase (e : ShardInfo) (u : Upload) : Prop := basename e.path = basename u.location.key

structure ManifestMatches (dumpsLength : Json → ℕ) (entries : List ShardInfo) (objects : List Upload) : Prop where
  entry : ∀ e ∈ entries, ∃! u, u ∈ objects ∧ SameBase e u
  object : ∀ u ∈ objects, ∃! e, e ∈ entries ∧ SameBase e u
  contents : ∀ e ∈ entries, ∀ u ∈ objects, SameBase e u →
    e.sampleCount = u.content.sampleCount ∧ e.sizeBytes = u.content.payloadBytes dumpsLength

def UploadedManifestMatches (dumpsLength : Json → ℕ) (jobId : Uuid) (job : ExportJob) (objects : List Upload) : Prop :=
  ∃ manifest entries, ⟨manifestLocation jobId job, .file (.json manifest)⟩ ∈ objects ∧
    manifestEntries manifest = some entries ∧
    ManifestMatches dumpsLength entries (objects.filter (fun u => u.location ≠ manifestLocation jobId job))

theorem manifestEntries_buildManifest (episodeRefs : List EpisodeRef) (shards : List ShardInfo) :
    manifestEntries (buildManifest episodeRefs shards) = some shards := by
  have hentries : (shards.map shardEntry).mapM shardEntry? = some shards := by
    induction shards with
    | nil => rfl
    | cons s shards ih =>
      rw [List.map_cons, List.mapM_cons, ih]
      rfl
  exact hentries

variable {dumpsLength : Json → ℕ} {settings : Settings} {calls : Calls} {jobId : Uuid} {job : ExportJob}

theorem filter_uploads (files : Files) (shards : List (ShardInfo × ℕ)) (result : ExportResult) :
    (shards.filterMap (shardUpload jobId job files) ++ [manifestUpload jobId job result]).filter
      (fun u => u.location ≠ manifestLocation jobId job) = shards.filterMap (shardUpload jobId job files) := by
  have hshards : (shards.filterMap (shardUpload jobId job files)).filter
      (fun u => u.location ≠ manifestLocation jobId job) = shards.filterMap (shardUpload jobId job files) :=
    List.filter_eq_self.mpr (fun u hu => decide_eq_true (location_ne_of_shardUpload hu))
  rw [List.filter_append, hshards, List.filter_cons_of_neg (by simp [manifestUpload]), List.filter_nil, List.append_nil]

theorem uploaded_manifest {files : Files} {result : ExportResult} {manifest : Json}
    (h : ⟨manifestLocation jobId job, .file (.json manifest)⟩ ∈
      result.shards.zipIdx.filterMap (shardUpload jobId job files) ++ [manifestUpload jobId job result]) :
    manifest = result.manifest := by
  rcases List.mem_append.mp h with h | h
  · exact absurd rfl (location_ne_of_shardUpload h)
  · have he := List.mem_singleton.mp h
    rw [manifestUpload, Upload.mk.injEq] at he
    simpa using he.2

theorem last_entry_unmatched {outputDir : String} {groups : List (List Payload)} {files : Files}
    (h : groups ≠ []) :
    ∃ e ∈ groups.mapIdx (groupInfo dumpsLength outputDir),
      ∀ u ∈ (groups.mapIdx (groupInfo dumpsLength outputDir)).zipIdx.filterMap (shardUpload jobId job files),
        ¬ SameBase e u := by
  have hpos : 0 < groups.length := List.length_pos_of_ne_nil h
  have hlast : groups.length - 1 < groups.length := by omega
  refine ⟨groupInfo dumpsLength outputDir (groups.length - 1) groups[groups.length - 1], ?_, ?_⟩
  · exact List.mem_mapIdx.mpr ⟨_, hlast, rfl⟩
  · intro u hu hbase
    obtain ⟨shard, hshard, hupload⟩ := List.mem_filterMap.mp hu
    obtain ⟨content, -, rfl⟩ := Option.map_eq_some_iff.mp hupload
    have hindex := (List.mem_zipIdx' hshard).1
    rw [List.length_mapIdx] at hindex
    rw [SameBase, groupInfo, basename_shardPath, basename_shardKey] at hbase
    have hnumber := (String.append_right_inj _).mp ((String.append_left_inj _).mp hbase)
    have hsame := Decimal.zeroPadded_injective 6 hnumber
    omega

theorem not_matches_of_samples {episodeRefs : List EpisodeRef} {w : World} {past : List World} {t : Trace World}
    (hformat : job.format = "webdataset")
    (h : answer (exportSamples dumpsLength settings calls jobId job episodeRefs) ⟨w, past⟩ = (.ok (), t))
    (hrefs : episodeRefs ≠ []) : ¬ UploadedManifestMatches dumpsLength jobId job (uploadedSince w t.current) := by
  obtain ⟨result, files, before, hrun, huploads⟩ := uploadedSince_of_ok h
  rw [runExporter, if_pos hformat] at hrun
  obtain ⟨groups, hpayloads, -, hshards, hmanifest, -⟩ := webDatasetExport_eq_ok hrun
  have hgroups : groups ≠ [] := by
    rintro rfl
    have hlength := length_of_mapM hpayloads
    rw [List.length_zipIdx] at hlength
    exact hrefs (List.length_eq_zero_iff.mp hlength)
  rw [huploads]
  rintro ⟨manifest, entries, hmem, hentries, hmatches⟩
  rw [uploaded_manifest hmem, hmanifest, manifestEntries_buildManifest, Option.some.injEq] at hentries
  subst hentries
  rw [filter_uploads, hshards] at hmatches
  obtain ⟨e, he, hunmatched⟩ := last_entry_unmatched hgroups
  obtain ⟨u, ⟨hu, hbase⟩, -⟩ := hmatches.entry e he
  exact hunmatched u hu hbase

theorem manifest_matches_iff_empty (dumpsLength : Json → ℕ) (settings : Settings) (calls : Calls) (jobId : Uuid)
    (job : ExportJob) (episodeRefs : List EpisodeRef) (w : World) (past : List World) (t : Trace World)
    (hformat : job.format = "webdataset")
    (h : answer (exportSamples dumpsLength settings calls jobId job episodeRefs) ⟨w, past⟩ = (.ok (), t)) :
    UploadedManifestMatches dumpsLength jobId job (uploadedSince w t.current) ↔ episodeRefs = [] := by
  constructor
  · intro hmatches
    by_contra hrefs
    exact not_matches_of_samples hformat h hrefs hmatches
  · rintro rfl
    obtain ⟨result, files, before, hrun, huploads⟩ := uploadedSince_of_ok h
    rw [runExporter, if_pos hformat] at hrun
    obtain ⟨groups, hpayloads, hnonempty, hshards, hmanifest, -⟩ := webDatasetExport_eq_ok hrun
    have hgroups : groups = [] := by
      rw [List.eq_nil_iff_forall_not_mem]
      intro g hg
      have hflatten : groups.flatten = [] := List.length_eq_zero_iff.mp (length_of_mapM hpayloads).symm
      exact hnonempty g hg (List.flatten_eq_nil_iff.mp hflatten g hg)
    rw [hgroups, List.mapIdx_nil] at hshards
    rw [huploads]
    refine ⟨result.manifest, result.shards, List.mem_append_right _ (List.mem_singleton_self _), ?_, ?_⟩
    · rw [hmanifest, manifestEntries_buildManifest]
    · rw [filter_uploads, hshards]
      exact ⟨nofun, nofun, nofun⟩

theorem sampleCount_groupContent (group : List Payload) : (groupContent group).sampleCount = group.length := by
  rw [groupContent, Content.sampleCount, Content.members]
  induction group with
  | nil => rfl
  | cons p group ih =>
    rw [List.flatMap_cons, List.filter_append, List.length_append, ih, List.length_cons, Payload.members,
      List.filter_cons_of_pos (by rw [mcapBase?_mcap]; rfl), List.filter_cons_of_neg (by rw [mcapBase?_json]; nofun)]
    exact Nat.add_comm ..

theorem payloadBytes_groupContent (dumpsLength : Json → ℕ) (group : List Payload) :
    (groupContent group).payloadBytes dumpsLength = (group.map (Payload.size dumpsLength)).sum := by
  rw [groupContent, Content.payloadBytes, Content.members]
  induction group with
  | nil => rfl
  | cons p group ih =>
    rw [List.flatMap_cons, List.map_append, List.sum_append, ih, List.map_cons, List.sum_cons]
    rfl

theorem shard_under_previous_number {episodeRefs : List EpisodeRef} {w : World} {past : List World} {t : Trace World}
    (hformat : job.format = "webdataset")
    (h : answer (exportSamples dumpsLength settings calls jobId job episodeRefs) ⟨w, past⟩ = (.ok (), t)) :
    ∃ manifest entries, ⟨manifestLocation jobId job, .file (.json manifest)⟩ ∈ uploadedSince w t.current ∧
      manifestEntries manifest = some entries ∧ ∀ i e, entries[i]? = some e →
        basename e.path = "shard-" ++ Decimal.zeroPadded 6 (i + 1) ++ ".tar" ∧
        ∃ u ∈ uploadedSince w t.current, u.location = ⟨job.targetBucket, shardKey jobId job i⟩ ∧
          e.sampleCount = u.content.sampleCount ∧ e.sizeBytes = u.content.payloadBytes dumpsLength := by
  obtain ⟨result, files, before, hrun, huploads⟩ := uploadedSince_of_ok h
  rw [runExporter, if_pos hformat] at hrun
  obtain ⟨groups, -, -, hshards, hmanifest, hfiles⟩ := webDatasetExport_eq_ok hrun
  rw [huploads]
  refine ⟨result.manifest, result.shards, List.mem_append_right _ (List.mem_singleton_self _), ?_, ?_⟩
  · rw [hmanifest, manifestEntries_buildManifest]
  · intro i e he
    have hentry := he
    rw [hshards, List.getElem?_mapIdx, Option.map_eq_some_iff] at he
    obtain ⟨group, hgroup, rfl⟩ := he
    refine ⟨basename_shardPath _ _, ⟨⟨job.targetBucket, shardKey jobId job i⟩, groupContent group⟩, ?_, rfl, ?_, ?_⟩
    · refine List.mem_append_left _ (List.mem_filterMap.mpr ⟨(_, i), List.mem_zipIdx_iff_getElem?.mpr hentry, ?_⟩)
      simp only [shardUpload, hfiles i group hgroup, Option.map_some]
    · exact (sampleCount_groupContent group).symm
    · exact (payloadBytes_groupContent dumpsLength group).symm

theorem manifest_matches_iff_empty_oneSample :
    UploadedManifestMatches (fun _ => 2) ⟨5⟩ pendingJob (uploadedSince oneJob (exportOne pendingJob).2.current) ↔
      [oneSample] = [] :=
  manifest_matches_iff_empty _ _ _ ⟨5⟩ pendingJob [oneSample] oneJob [] _ rfl exportOne_ok

theorem shard_numbers_shifted :
    ¬ ∀ (dumpsLength : Json → ℕ) (settings : Settings) (calls : Calls) (jobId : Uuid) (job : ExportJob)
      (episodeRefs : List EpisodeRef) (w : World) (past : List World) (t : Trace World), job.format = "webdataset" →
      answer (exportSamples dumpsLength settings calls jobId job episodeRefs) ⟨w, past⟩ = (.ok (), t) →
      UploadedManifestMatches dumpsLength jobId job (uploadedSince w t.current) := by
  intro hall
  have hmatches := hall _ _ _ ⟨5⟩ pendingJob [oneSample] oneJob [] _ rfl exportOne_ok
  exact not_matches_of_samples rfl exportOne_ok (List.cons_ne_nil oneSample []) hmatches

end Embedai.ExportWorker
