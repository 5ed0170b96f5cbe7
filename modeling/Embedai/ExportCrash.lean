import Mathlib.Algebra.Order.Field.Basic
import Mathlib.Algebra.Order.Ring.Rat
import Mathlib.Tactic.Positivity
import Embedai.ExportJobSteps

namespace Embedai.ExportWorker

open DatasetService Handlers ObjectLocations TracedHandlers

section Consistency

variable (dumpsLength : Json → ℕ) (settings : Settings) (calls : Calls) (jobId : Uuid) (job : ExportJob)

structure PendingJob (w : World) : Prop where
  row : w.jobs.get? jobId = some job
  status : job.status = .pending
  progress : job.progressPct = some 0
  fresh : ∀ u ∈ w.uploads, u.location.bucket = job.targetBucket →
    ¬ (targetPrefix jobId job ++ "/").toList <+: u.location.key.toList

def ManifestPresent (w : World) : Prop := ∃ u ∈ w.uploads, u.location = manifestLocation jobId job

def ShardsUploaded (base w : World) : Prop :=
  ∃ result files, Exported dumpsLength settings calls jobId job (resolvedRefs base job) result files ∧
    ∀ i shard, result.shards[i]? = some shard → ∃ content, files shard.path = some content ∧
      ⟨⟨job.targetBucket, shardKey jobId job i⟩, content⟩ ∈ w.uploads

structure CrashConsistent (base w : World) : Prop where
  manifest : ManifestPresent jobId job w → ShardsUploaded dumpsLength settings calls jobId job base w
  completed : ∀ row, w.jobs.get? jobId = some row → row.status = .completed →
    ManifestPresent jobId job w ∧ row.manifestUrl = some (manifestUrl jobId job) ∧ row.progressPct = some 100
  progress : ∃ commits : List ℚ, w.progressCommits = base.progressCommits ++ commits.map (jobId, ·) ∧
    commits.Pairwise (· ≤ ·) ∧ ∀ value ∈ commits, 0 < value ∧ value ≤ 100

end Consistency

variable {dumpsLength : Json → ℕ} {settings : Settings} {calls : Calls} {jobId : Uuid} {job : ExportJob}
  {episodeRefs : Option (List EpisodeRef)}

theorem exported_isSome {result : ExportResult} {files : Files}
    (h : Exported dumpsLength settings calls jobId job episodeRefs result files) :
    ∀ shard ∈ result.shards, (files shard.path).isSome := by
  obtain ⟨refs, before, -, hrun⟩ := h
  intro shard hshard
  unfold runExporter at hrun
  split_ifs at hrun with hformat
  · obtain ⟨groups, -, -, hshards, -, hfiles⟩ := webDatasetExport_eq_ok hrun
    rw [hshards] at hshard
    obtain ⟨k, hk, rfl⟩ := List.mem_mapIdx.mp hshard
    rw [groupInfo, hfiles k _ (List.getElem?_eq_getElem hk)]
    rfl
  · obtain ⟨ps, -, hshards, hfiles⟩ := rawExport_eq_ok hrun
    rw [hshards] at hshard
    obtain ⟨p, hp, rfl⟩ := List.mem_map.mp hshard
    rw [rawInfo, hfiles p hp]
    rfl

theorem percent_pos {n i : ℕ} (h : i < n) : 0 < percent n i := by
  have hn : (0 : ℚ) < n := by exact_mod_cast Nat.zero_lt_of_lt h
  unfold percent
  positivity

theorem percent_le {n i : ℕ} (h : i < n) : percent n i ≤ 100 := by
  have hn : (0 : ℚ) < n := by exact_mod_cast Nat.zero_lt_of_lt h
  have hi : (i : ℚ) + 1 ≤ n := by exact_mod_cast h
  have hratio : ((i : ℚ) + 1) / n ≤ 1 := (div_le_one hn).mpr hi
  calc percent n i ≤ 1 * 100 := mul_le_mul_of_nonneg_right hratio (by decide)
    _ = 100 := one_mul 100

theorem percent_mono {n i j : ℕ} (h : i ≤ j) : percent n i ≤ percent n j := by
  have hij : (i : ℚ) + 1 ≤ j + 1 := by exact_mod_cast Nat.succ_le_succ h
  unfold percent
  gcongr

structure Rising (commits : List ℚ) : Prop where
  sorted : commits.Pairwise (· ≤ ·)
  bounded : ∀ value ∈ commits, 0 < value ∧ value ≤ 100

theorem rising_shardCommits {result : ExportResult} {done rest : List (ShardInfo × ℕ)}
    (h : result.shards.zipIdx = done ++ rest) : Rising (shardCommits result done) := by
  constructor
  · have hindices : (result.shards.zipIdx.map Prod.snd).Pairwise (· < ·) := by
      rw [List.zipIdx_map_snd]
      exact List.pairwise_lt_range'
    rw [h, List.map_append, List.pairwise_append, List.pairwise_map] at hindices
    rw [shardCommits, List.pairwise_map]
    exact hindices.1.imp (fun hlt => percent_mono hlt.le)
  · intro value hvalue
    obtain ⟨shard, hshard, rfl⟩ := List.mem_map.mp hvalue
    have hmem : shard ∈ result.shards.zipIdx := by
      rw [h]
      exact List.mem_append_left _ hshard
    have hlt := (List.mem_zipIdx' hmem).1
    exact ⟨percent_pos hlt, percent_le hlt⟩

theorem Rising.append_hundred {commits : List ℚ} (h : Rising commits) : Rising (commits ++ [100]) := by
  constructor
  · rw [List.pairwise_append]
    refine ⟨h.sorted, List.pairwise_singleton .., ?_⟩
    intro value hvalue hundred hmem
    rw [List.mem_singleton.mp hmem]
    exact (h.bounded value hvalue).2
  · intro value hvalue
    rcases List.mem_append.mp hvalue with hvalue | hvalue
    · exact h.bounded value hvalue
    · rw [List.mem_singleton.mp hvalue]
      decide

theorem Stage.rising {puts : List Upload} {commits : List ℚ}
    (h : Stage dumpsLength settings calls jobId job episodeRefs puts commits) : Rising commits := by
  cases h with
  | start => exact ⟨.nil, nofun⟩
  | shards hexport hdone => exact rising_shardCommits hdone
  | uploaded hexport hdone => exact rising_shardCommits hdone
  | manifest hexport => exact rising_shardCommits (List.append_nil _).symm
  | completed hexport => exact (rising_shardCommits (List.append_nil _).symm).append_hundred

theorem manifestLocation_not_fresh {w : World} (h : PendingJob jobId job w) : ¬ ManifestPresent jobId job w := by
  rintro ⟨u, hu, hlocation⟩
  apply h.fresh u hu
  · rw [hlocation]
    rfl
  · refine ⟨"manifest.json".toList, ?_⟩
    rw [hlocation, manifestLocation, manifestKey, ← String.toList_append, String.append_assoc]
    rfl

theorem shards_of_stage {puts : List Upload} {commits : List ℚ}
    (h : Stage dumpsLength settings calls jobId job episodeRefs puts commits)
    (hmanifest : ∃ u ∈ puts, u.location = manifestLocation jobId job) :
    ∃ result files, Exported dumpsLength settings calls jobId job episodeRefs result files ∧
      ∀ u ∈ result.shards.zipIdx.filterMap (shardUpload jobId job files), u ∈ puts := by
  obtain ⟨u, hu, hlocation⟩ := hmanifest
  cases h with
  | start => cases hu
  | shards hexport hdone => exact absurd hlocation (location_ne_of_shardUpload hu)
  | uploaded hexport hdone => exact absurd hlocation (location_ne_of_shardUpload hu)
  | manifest hexport => exact ⟨_, _, hexport, fun u hu => List.mem_append_left _ hu⟩
  | completed hexport => exact ⟨_, _, hexport, fun u hu => List.mem_append_left _ hu⟩

theorem shardsUploaded_of_subset {base w : World} {result : ExportResult} {files : Files}
    (hexport : Exported dumpsLength settings calls jobId job (resolvedRefs base job) result files)
    (h : ∀ u ∈ result.shards.zipIdx.filterMap (shardUpload jobId job files), u ∈ w.uploads) :
    ShardsUploaded dumpsLength settings calls jobId job base w := by
  refine ⟨result, files, hexport, ?_⟩
  intro i shard hshard
  have hsome := exported_isSome hexport shard (List.mem_of_getElem? hshard)
  obtain ⟨content, hcontent⟩ := Option.isSome_iff_exists.mp hsome
  refine ⟨content, hcontent, h _ (List.mem_filterMap.mpr ⟨(shard, i), ?_, ?_⟩)⟩
  · rw [List.mem_zipIdx_iff_getElem?]
    exact hshard
  · rw [shardUpload, hcontent, Option.map_some]

theorem crashConsistent_of_reached {base w : World} (hpending : PendingJob jobId job base)
    (h : Reached dumpsLength settings calls jobId job (resolvedRefs base job) base w) :
    CrashConsistent dumpsLength settings calls jobId job base w := by
  have hopen : statusOf base jobId ≠ some .completed := by
    rw [statusOf, hpending.row, Option.map_some, hpending.status]
    decide
  obtain ⟨⟨puts, commits, hstage, hat⟩, hfinal⟩ := h
  refine ⟨?_, ?_, ?_⟩
  · rintro ⟨u, hu, hlocation⟩
    rw [hat.uploads] at hu
    rcases List.mem_append.mp hu with hold | hput
    · exact absurd ⟨u, hold, hlocation⟩ (manifestLocation_not_fresh hpending)
    · obtain ⟨result, files, hexport, hputs⟩ := shards_of_stage hstage ⟨u, hput, hlocation⟩
      apply shardsUploaded_of_subset hexport
      intro v hv
      rw [hat.uploads]
      exact List.mem_append_right _ (hputs v hv)
  · intro row hrow hcompleted
    have hstatus : statusOf w jobId = some .completed := by rw [statusOf, hrow, Option.map_some, hcompleted]
    obtain ⟨result, files, hexport, hfinished, hfields⟩ := hfinal hopen hstatus
    obtain ⟨-, hurl, hprogress⟩ := hfields row hrow
    refine ⟨⟨manifestUpload jobId job result, ?_, rfl⟩, hurl, hprogress⟩
    rw [hfinished.uploads]
    exact List.mem_append_right _ (List.mem_append_right _ (List.mem_singleton_self _))
  · exact ⟨commits, hat.progress, hstage.rising.sorted, hstage.rising.bounded⟩

theorem export_crash_consistent (dumpsLength : Json → ℕ) (settings : Settings) (calls : Calls) (msgId : String)
    (fields : List (String × String)) (jobId : Uuid) (job : ExportJob) (w : World)
    (hid : Uuid.parse ((fields.lookup "job_id").getD "") = some jobId) (hpending : PendingJob jobId job w) :
    ∀ s ∈ (answer (handleMessage dumpsLength settings calls msgId fields) ⟨w, []⟩).2.visited,
      CrashConsistent dumpsLength settings calls jobId job w s := by
  have hopen : statusOf w jobId ≠ some .completed := by
    rw [statusOf, hpending.row, Option.map_some, hpending.status]
    decide
  have hstart : Reached dumpsLength settings calls jobId job (resolvedRefs w job) w w :=
    ((inProgress_start jobId w).interrupted .start).1
  have hvisits : Trace.Extends (MessageStep dumpsLength settings calls jobId job w) ⟨w, []⟩
      (answer (handleMessage dumpsLength settings calls msgId fields) ⟨w, []⟩).2 :=
    (triple_handleMessage msgId hid hpending.row hopen ⟨w, []⟩ rfl).visits
  have hreached := (hvisits.mono (fun _ _ h => h.1)).forall_visited (List.forall_mem_singleton.mpr hstart)
  intro s hs
  exact crashConsistent_of_reached hpending (hreached s hs)

theorem pendingJob_oneJob : PendingJob ⟨5⟩ pendingJob oneJob := ⟨rfl, rfl, rfl, nofun⟩

def oneJobVisited : List World :=
  (answer (handleMessage (fun _ => 2) workerSettings (callsWith fun _ => .ok) "1-0" jobFields) ⟨oneJob, []⟩).2.visited

theorem export_crash_consistent_oneJob :
    oneJobVisited.length = 11 ∧
      ∀ s ∈ oneJobVisited,
        CrashConsistent (fun _ => 2) workerSettings (callsWith fun _ => .ok) ⟨5⟩ pendingJob oneJob s :=
  ⟨by decide +kernel,
    export_crash_consistent _ _ _ _ jobFields ⟨5⟩ pendingJob oneJob (by decide +kernel) pendingJob_oneJob⟩

end Embedai.ExportWorker
