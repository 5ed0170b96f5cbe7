import Embedai.Exporters

namespace Embedai.ExportWorker

open GreedyPartition
open Handlers (except_map_eq_ok mapM_eq_ok)
open ListMaps (mapM_eq_error)

def membersAt (files : Files) (path : String) : List (String × File) :=
  match files path with
  | some (.archive members) => members
  | _ => []

structure PayloadOf (mcapLoader : String → Except String (List UInt8)) (ref : EpisodeRef × ℕ) (p : Payload) : Prop where
  name : p.name = sampleName ref.1 ref.2
  mcap : mcapLoader ref.1.storagePath = .ok p.mcap
  annotations : p.annotations = ref.1.annotations

variable {dumpsLength : Json → ℕ} {shardSize : ℤ} {outputDir : String}
  {mcapLoader : String → Except String (List UInt8)} {episodeRefs : List EpisodeRef} {files : Files}

theorem payload_eq_ok {ref : EpisodeRef} {i : ℕ} {p : Payload} :
    payload mcapLoader ref i = .ok p ↔ PayloadOf mcapLoader (ref, i) p := by
  rw [payload, except_map_eq_ok]
  constructor
  · rintro ⟨mcap, hmcap, rfl⟩
    exact ⟨rfl, hmcap, rfl⟩
  · rintro ⟨hname, hmcap, hannotations⟩
    refine ⟨p.mcap, hmcap, ?_⟩
    cases p
    cases hname
    cases hannotations
    rfl

theorem samples_of_mapM {ps : List Payload}
    (h : episodeRefs.zipIdx.mapM (fun p => payload mcapLoader p.1 p.2) = .ok ps) :
    List.Forall₂ (PayloadOf mcapLoader) episodeRefs.zipIdx ps :=
  (mapM_eq_ok.mp h).imp fun _ _ => payload_eq_ok.mp

theorem nodup_members {ps : List Payload} (h : (ps.map Payload.name).Nodup) :
    ((ps.flatMap Payload.members).map Prod.fst).Nodup := by
  induction ps with
  | nil => exact List.nodup_nil
  | cons p ps ih =>
    rw [List.map_cons, List.nodup_cons] at h
    have hnew : ∀ name ∈ (ps.flatMap Payload.members).map Prod.fst,
        name ≠ p.name ++ ".mcap" ∧ name ≠ p.name ++ ".json" := by
      intro name hname
      obtain ⟨m, hm, rfl⟩ := List.mem_map.mp hname
      obtain ⟨q, hq, hm⟩ := List.mem_flatMap.mp hm
      have hne : q.name ≠ p.name := fun he => h.1 (he ▸ List.mem_map_of_mem hq)
      simp only [Payload.members, List.mem_cons, List.not_mem_nil, or_false] at hm
      rcases hm with rfl | rfl
      · exact ⟨fun he => hne ((String.append_left_inj _).mp he), mcap_ne_json q.name p.name⟩
      · exact ⟨fun he => mcap_ne_json p.name q.name he.symm, fun he => hne ((String.append_left_inj _).mp he)⟩
    rw [List.flatMap_cons, List.map_append]
    apply List.Nodup.append
    · simp [Payload.members]
    · exact ih h.2
    · intro name hname hmem
      have hnames := hnew name hmem
      simp only [Payload.members, List.map_cons, List.map_nil, List.mem_cons, List.not_mem_nil, or_false] at hname
      rcases hname with rfl | rfl
      · exact hnames.1 rfl
      · exact hnames.2 rfl

theorem members_of_groups {groups : List (List Payload)} {result : ExportResult} {files' : Files}
    (h : ExportedGroups dumpsLength outputDir groups result files') :
    result.shards.map (fun s => membersAt files' s.path) = groups.map (fun g => g.flatMap Payload.members) := by
  apply List.ext_getElem?
  intro k
  rw [h.shards, List.getElem?_map, List.getElem?_map, List.getElem?_mapIdx, Option.map_map]
  cases hg : groups[k]? with
  | none => rfl
  | some g =>
    simp only [Option.map_some, Function.comp_apply, groupInfo, membersAt, h.files k g hg, groupContent]

theorem infos_of_groups {groups : List (List Payload)} {result : ExportResult} {files' : Files}
    (h : ExportedGroups dumpsLength outputDir groups result files') :
    result.shards.map (fun s => (s.sizeBytes, s.sampleCount)) =
      groups.map (fun g => ((g.map (Payload.size dumpsLength)).sum, g.length)) := by
  apply List.ext_getElem?
  intro k
  rw [h.shards, List.getElem?_map, List.getElem?_map, List.getElem?_mapIdx, Option.map_map]
  cases groups[k]? <;> rfl

structure GreedyShards (dumpsLength : Json → ℕ) (shardSize : ℤ) (samples : List Payload) (groups : List (List Payload))
    (result : ExportResult) (files' : Files) : Prop where
  members : result.shards.flatMap (fun s => membersAt files' s.path) = samples.flatMap Payload.members
  distinct : ((samples.flatMap Payload.members).map Prod.fst).Nodup
  samples : groups.flatten = samples
  shards : result.shards.map (fun s => membersAt files' s.path) = groups.map (fun g => g.flatMap Payload.members)
  infos : result.shards.map (fun s => (s.sizeBytes, s.sampleCount)) =
    groups.map (fun g => ((g.map (Payload.size dumpsLength)).sum, g.length))
  greedy : Greedy (FitsShard dumpsLength shardSize) groups

theorem greedyShards_partition {ps : List Payload} {result : ExportResult} {files' : Files}
    (hps : episodeRefs.zipIdx.mapM (fun p => payload mcapLoader p.1 p.2) = .ok ps)
    (h : ExportedGroups dumpsLength outputDir (Groups.partition (FitsShard dumpsLength shardSize) ps).all result
      files') :
    GreedyShards dumpsLength shardSize ps (Groups.partition (FitsShard dumpsLength shardSize) ps).all result
      files' := by
  have hmembers := members_of_groups h
  have hflat := flatten_partition (FitsShard dumpsLength shardSize) ps
  refine ⟨?_, nodup_members (nodup_names hps), hflat, hmembers, infos_of_groups h, greedy_partition ps⟩
  rw [List.flatMap_def, hmembers, ← List.flatMap_def]
  conv_rhs => rw [← hflat, List.flatten_eq_flatMap, List.flatMap_assoc]
  rfl

theorem greedy_shards (dumpsLength : Json → ℕ) (shardSize : ℤ) (outputDir : String)
    (mcapLoader : String → Except String (List UInt8)) (episodeRefs : List EpisodeRef) (files : Files) :
    (∃ ref ∈ episodeRefs, ∃ e, mcapLoader ref.storagePath = .error e ∧
      webDatasetExport dumpsLength shardSize outputDir mcapLoader episodeRefs files = .error e) ∨
    ∃ samples groups result files',
      webDatasetExport dumpsLength shardSize outputDir mcapLoader episodeRefs files = .ok (result, files') ∧
      List.Forall₂ (PayloadOf mcapLoader) episodeRefs.zipIdx samples ∧
      GreedyShards dumpsLength shardSize samples groups result files' := by
  cases hps : episodeRefs.zipIdx.mapM (fun p => payload mcapLoader p.1 p.2) with
  | error e =>
    left
    obtain ⟨⟨ref, i⟩, hmem, hpayload⟩ := mapM_eq_error hps
    refine ⟨ref, List.fst_mem_of_mem_zipIdx hmem, e, ?_, ?_⟩
    · rw [payload] at hpayload
      cases hload : mcapLoader ref.storagePath with
      | error e' =>
        rw [hload] at hpayload
        cases hpayload
        rfl
      | ok data =>
        rw [hload] at hpayload
        cases hpayload
    · rw [webDatasetExport_eq, hps]
      rfl
  | ok ps =>
    right
    obtain ⟨result, files', hrun, -, hgroups⟩ :=
      exportedGroups_partition dumpsLength outputDir shardSize files hps
    exact ⟨ps, _, result, files', hrun, samples_of_mapM hps, greedyShards_partition hps hgroups⟩

def loadsBytes (data : List UInt8) : String → Except String (List UInt8) := fun _ => .ok data

def twoRefs : List EpisodeRef := [⟨"ep-0", "a.mcap", none, none, []⟩, ⟨"ep-1", "b.mcap", none, none, []⟩]

def openShard (dumpsLength : Json → ℕ) (shardSize : ℤ) (before : List Payload) : List Payload :=
  (Groups.partition (FitsShard dumpsLength shardSize) before).current

def AnnotationsFit (dumpsLength : Json → ℕ) (shardSize : ℤ) (samples : List Payload) : Prop :=
  ∀ before p after, samples = before ++ p :: after → openShard dumpsLength shardSize before ≠ [] →
    FitsShard dumpsLength shardSize (openShard dumpsLength shardSize before) p →
      ((((openShard dumpsLength shardSize before).map (Payload.size dumpsLength)).sum + p.size dumpsLength : ℕ) : ℤ) ≤
        shardSize

theorem withinLimit_iff (dumpsLength : Json → ℕ) (shardSize : ℤ) (samples : List Payload) :
    (∀ g ∈ (Groups.partition (FitsShard dumpsLength shardSize) samples).all,
      1 < g.length → (((g.map (Payload.size dumpsLength)).sum : ℕ) : ℤ) ≤ shardSize) ↔
      AnnotationsFit dumpsLength shardSize samples := by
  rw [forall_groups_iff (fun p hp => absurd hp (by simp)) (fun g p hfits _ => by unfold FitsShard at hfits; omega)]
  constructor
  · intro h before p after hsplit hne hfits
    have hlength : 1 < (openShard dumpsLength shardSize before ++ [p]).length := by
      have hpos := List.length_pos_iff.mpr hne
      rw [List.length_append, List.length_singleton]
      omega
    have hsum := h before p after hsplit hne hfits hlength
    rw [List.map_append, List.sum_append, List.map_singleton, List.sum_singleton] at hsum
    exact hsum
  · intro h before p after hsplit hne hfits _
    rw [List.map_append, List.sum_append, List.map_singleton, List.sum_singleton]
    exact h before p after hsplit hne hfits

theorem shard_bound_iff (dumpsLength : Json → ℕ) (shardSize : ℤ) (outputDir : String)
    (mcapLoader : String → Except String (List UInt8)) (episodeRefs : List EpisodeRef) (files : Files)
    (samples : List Payload) (hload : List.Forall₂ (PayloadOf mcapLoader) episodeRefs.zipIdx samples) :
    ∃ result files', webDatasetExport dumpsLength shardSize outputDir mcapLoader episodeRefs files =
        .ok (result, files') ∧
      ((∀ shard ∈ result.shards, 1 < shard.sampleCount → (shard.sizeBytes : ℤ) ≤ shardSize) ↔
        AnnotationsFit dumpsLength shardSize samples) := by
  have hps : episodeRefs.zipIdx.mapM (fun p => payload mcapLoader p.1 p.2) = .ok samples :=
    mapM_eq_ok.mpr (hload.imp fun _ _ => payload_eq_ok.mpr)
  obtain ⟨result, files', hrun, -, hgroups⟩ :=
    exportedGroups_partition dumpsLength outputDir shardSize files hps
  refine ⟨result, files', hrun, ?_⟩
  rw [← withinLimit_iff]
  have hshards : (∀ shard ∈ result.shards, 1 < shard.sampleCount → (shard.sizeBytes : ℤ) ≤ shardSize) ↔
      ∀ info : ℕ × ℕ, info ∈ result.shards.map (fun s => (s.sizeBytes, s.sampleCount)) →
        1 < info.2 → (info.1 : ℤ) ≤ shardSize := by
    rw [List.forall_mem_map]
  rw [hshards, infos_of_groups hgroups]
  exact List.forall_mem_map

theorem shard_bound_iff_twoRefs :
    List.Forall₂ (PayloadOf (loadsBytes [0])) twoRefs.zipIdx
      [⟨sampleName ⟨"ep-0", "a.mcap", none, none, []⟩ 0, [0], []⟩,
        ⟨sampleName ⟨"ep-1", "b.mcap", none, none, []⟩ 1, [0], []⟩] ∧
    ∃ result files', webDatasetExport (fun _ => 2) 6 "out" (loadsBytes [0]) twoRefs (fun _ => none) =
        .ok (result, files') ∧
      ((∀ shard ∈ result.shards, 1 < shard.sampleCount → (shard.sizeBytes : ℤ) ≤ 6) ↔
        AnnotationsFit (fun _ => 2) 6
          [⟨sampleName ⟨"ep-0", "a.mcap", none, none, []⟩ 0, [0], []⟩,
            ⟨sampleName ⟨"ep-1", "b.mcap", none, none, []⟩ 1, [0], []⟩]) := by
  have hload : List.Forall₂ (PayloadOf (loadsBytes [0])) twoRefs.zipIdx
      [⟨sampleName ⟨"ep-0", "a.mcap", none, none, []⟩ 0, [0], []⟩,
        ⟨sampleName ⟨"ep-1", "b.mcap", none, none, []⟩ 1, [0], []⟩] :=
    .cons ⟨rfl, rfl, rfl⟩ (.cons ⟨rfl, rfl, rfl⟩ .nil)
  exact ⟨hload, shard_bound_iff (fun _ => 2) 6 "out" (loadsBytes [0]) twoRefs (fun _ => none) _ hload⟩

theorem shard_of_two_exceeds_limit :
    ∃ result files', webDatasetExport (fun _ => 2) 4 "out" (loadsBytes [0]) twoRefs (fun _ => none) =
        .ok (result, files') ∧
      ∃ shard ∈ result.shards, 1 < shard.sampleCount ∧ (4 : ℤ) < shard.sizeBytes :=
  ⟨_, _, rfl, _, List.mem_singleton.mpr rfl, by decide, by decide⟩

end Embedai.ExportWorker
