import Mathlib.Algebra.BigOperators.Group.List.Basic
import Mathlib.Data.List.Induction
import Embedai.Decimal
import Embedai.ExportResolution
import Embedai.FilePaths
import Embedai.GreedyPartition

namespace Embedai.ExportWorker

open FilePaths GreedyPartition
open Handlers (except_bind_eq_ok except_map_eq_ok mapM_eq_ok)

/-- A JSON file is kept as its value. -/
inductive File
  | bytes (data : List UInt8)
  | json (value : Json)

inductive Content
  | file (contents : File)
  | archive (members : List (String × File))

abbrev Files := String → Option Content

structure ShardInfo where
  path : String
  sizeBytes : ℕ
  sampleCount : ℕ

structure ExportResult where
  shards : List ShardInfo
  manifest : Json

structure Payload where
  name : String
  mcap : List UInt8
  annotations : List Json

def sampleName (ref : EpisodeRef) (i : ℕ) : String :=
  "ep_" ++ String.ofList (ref.episodeId.toList.take 8) ++ "_" ++ Decimal.zeroPadded 6 i

def payload (mcapLoader : String → Except String (List UInt8)) (ref : EpisodeRef) (i : ℕ) : Except String Payload :=
  (mcapLoader ref.storagePath).map fun mcap => ⟨sampleName ref i, mcap, ref.annotations⟩

variable (dumpsLength : Json → ℕ)

def File.size : File → ℕ
  | bytes data => data.length
  | json value => dumpsLength value

def Payload.members (p : Payload) : List (String × File) :=
  [(p.name ++ ".mcap", .bytes p.mcap), (p.name ++ ".json", .json (.arr p.annotations))]

def Payload.size (p : Payload) : ℕ := p.mcap.length + dumpsLength (.arr p.annotations)

def shardPath (outputDir : String) (shardIdx : ℕ) : String :=
  joinPath outputDir ("shard-" ++ Decimal.zeroPadded 6 shardIdx ++ ".tar")

/-- The variables of the loop of `WebDatasetExporter.export`; `current` is the open archive and its path. -/
structure Sharding where
  shards : List ShardInfo
  shardIdx : ℕ
  currentSize : ℕ
  currentCount : ℕ
  current : Option (String × List (String × File))
  files : Files

namespace Sharding

def flushShard (s : Sharding) : Sharding :=
  match s.current with
  | none => { s with currentSize := 0, currentCount := 0 }
  | some (path, members) =>
    { s with
      shards := s.shards ++ [⟨path, s.currentSize, s.currentCount⟩]
      files := Function.update s.files path (some (.archive members))
      current := none
      currentSize := 0
      currentCount := 0 }

def openShard (outputDir : String) (s : Sharding) : Sharding :=
  { s with shardIdx := s.shardIdx + 1, current := some (shardPath outputDir (s.shardIdx + 1), []) }

def addBytes (p : Payload) (s : Sharding) : Sharding :=
  { s with
    current := s.current.map (fun c => (c.1, c.2 ++ p.members))
    currentSize := s.currentSize + p.size dumpsLength
    currentCount := s.currentCount + 1 }

def addSample (shardSize : ℤ) (outputDir : String) (s : Sharding) (p : Payload) : Sharding :=
  if s.current.isNone ∨ shardSize < s.currentSize + p.mcap.length then
    addBytes dumpsLength p (openShard outputDir s.flushShard)
  else addBytes dumpsLength p s

end Sharding

def shardEntry (s : ShardInfo) : Json :=
  .obj [("path", .str s.path), ("size_bytes", .int s.sizeBytes), ("sample_count", .int s.sampleCount)]

def buildManifest (episodeRefs : List EpisodeRef) (shards : List ShardInfo) : Json :=
  .obj [("episode_count", .int episodeRefs.length), ("shard_count", .int shards.length),
    ("total_size_bytes", .int (shards.map ShardInfo.sizeBytes).sum), ("shards", .arr (shards.map shardEntry))]

def webDatasetExport (shardSize : ℤ) (outputDir : String) (mcapLoader : String → Except String (List UInt8))
    (episodeRefs : List EpisodeRef) (files : Files) : Except String (ExportResult × Files) := do
  let s : Sharding ← episodeRefs.zipIdx.foldlM
    (fun s p => (payload mcapLoader p.1 p.2).map (s.addSample dumpsLength shardSize outputDir))
    ⟨[], 0, 0, 0, none, files⟩
  return (⟨s.flushShard.shards, buildManifest episodeRefs s.flushShard.shards⟩, s.flushShard.files)

/-- A sample whose name has a slash would go to a directory that does not exist. -/
def rawPayload (mcapLoader : String → Except String (List UInt8)) (ref : EpisodeRef) (i : ℕ) :
    Except String Payload := do
  let p ← payload mcapLoader ref i
  if '/' ∈ p.name.toList then throw "No such file or directory" else return p

def writeSample (outputDir : String) (s : List ShardInfo × Files) (p : Payload) : List ShardInfo × Files :=
  (s.1 ++ [⟨joinPath outputDir (p.name ++ ".mcap"), p.size dumpsLength, 1⟩],
    Function.update (Function.update s.2 (joinPath outputDir (p.name ++ ".mcap")) (some (.file (.bytes p.mcap))))
      (joinPath outputDir (p.name ++ ".json")) (some (.file (.json (.arr p.annotations)))))

def rawExport (outputDir : String) (mcapLoader : String → Except String (List UInt8)) (episodeRefs : List EpisodeRef)
    (files : Files) : Except String (ExportResult × Files) := do
  let s ← episodeRefs.zipIdx.foldlM
    (fun s p => (rawPayload mcapLoader p.1 p.2).map (writeSample dumpsLength outputDir s)) ([], files)
  return (⟨s.1, .obj [("format", .str "raw"), ("episode_count", .int episodeRefs.length),
    ("output_dir", .str outputDir)]⟩, s.2)

theorem foldlM_map_eq {ε α β σ : Type} (f : α → Except ε β) (g : σ → β → σ) (l : List α) (s : σ) :
    l.foldlM (fun s a => (f a).map (g s)) s = (l.mapM f).map (fun bs => bs.foldl g s) := by
  induction l generalizing s with
  | nil => rfl
  | cons a l ih =>
    rw [List.foldlM_cons, List.mapM_cons]
    cases f a with
    | error e => rfl
    | ok b =>
      change l.foldlM (fun s a => (f a).map (g s)) (g s b) = _
      rw [ih]
      cases l.mapM f <;> rfl

theorem foldlM_map_eq_ok {ε α β σ : Type} {f : α → Except ε β} {g : σ → β → σ} {l : List α} {s t : σ} :
    l.foldlM (fun s a => (f a).map (g s)) s = .ok t ↔ ∃ bs, l.mapM f = .ok bs ∧ bs.foldl g s = t := by
  rw [foldlM_map_eq, except_map_eq_ok]

theorem shardPath_injective (outputDir : String) : Function.Injective (shardPath outputDir) := by
  intro j k h
  have hname := joinPath_injective outputDir h
  rw [String.append_assoc, String.append_assoc] at hname
  have hnumber := (String.append_left_inj _).mp ((String.append_right_inj _).mp hname)
  exact Decimal.zeroPadded_injective 6 hnumber

def groupInfo (outputDir : String) (k : ℕ) (group : List Payload) : ShardInfo :=
  ⟨shardPath outputDir (k + 1), (group.map (Payload.size dumpsLength)).sum, group.length⟩

def groupContent (group : List Payload) : Content := .archive (group.flatMap Payload.members)

structure Sharded (outputDir : String) (done : List (List Payload)) (cur : List Payload) (s : Sharding) : Prop where
  nonempty : ∀ g ∈ done, g ≠ []
  shards : s.shards = done.mapIdx (groupInfo dumpsLength outputDir)
  shardIdx : s.shardIdx = done.length + if cur = [] then 0 else 1
  current : s.current =
    if cur = [] then none else some (shardPath outputDir s.shardIdx, cur.flatMap Payload.members)
  currentSize : s.currentSize = (cur.map (Payload.size dumpsLength)).sum
  currentCount : s.currentCount = cur.length
  files : ∀ k g, done[k]? = some g → s.files (shardPath outputDir (k + 1)) = some (groupContent g)

def closeGroup (done : List (List Payload)) (cur : List Payload) : List (List Payload) :=
  if cur = [] then done else done ++ [cur]

variable {dumpsLength} {outputDir : String} {done : List (List Payload)} {cur : List Payload} {s : Sharding}

theorem Sharded.flushShard (h : Sharded dumpsLength outputDir done cur s) :
    Sharded dumpsLength outputDir (closeGroup done cur) [] s.flushShard := by
  obtain ⟨hnonempty, hshards, hidx, hcurrent, hsize, hcount, hfiles⟩ := h
  by_cases hcur : cur = []
  · rw [if_pos hcur] at hcurrent hidx
    simp only [closeGroup, if_pos hcur, Sharding.flushShard, hcurrent]
    exact ⟨hnonempty, hshards, hidx, rfl, rfl, rfl, hfiles⟩
  · rw [if_neg hcur] at hcurrent hidx
    simp only [closeGroup, if_neg hcur, Sharding.flushShard, hcurrent]
    refine ⟨?_, ?_, ?_, rfl, rfl, rfl, ?_⟩
    · intro g hg
      rcases List.mem_append.mp hg with hg | hg
      · exact hnonempty g hg
      · rw [List.mem_singleton.mp hg]
        exact hcur
    · rw [List.mapIdx_append, hshards, hidx, hsize, hcount]
      simp only [List.mapIdx_cons, List.mapIdx_nil, Nat.zero_add, groupInfo]
    · rw [hidx, List.length_append, List.length_singleton, if_pos rfl]
    · intro k g hg
      dsimp only
      rcases Nat.lt_or_ge k done.length with hk | hk
      · rw [List.getElem?_append_left hk] at hg
        have hne : shardPath outputDir (k + 1) ≠ shardPath outputDir s.shardIdx := by
          intro he
          have hsame := shardPath_injective outputDir he
          omega
        rw [Function.update_of_ne hne]
        exact hfiles k g hg
      · rw [List.getElem?_append_right hk, List.getElem?_singleton] at hg
        split_ifs at hg with hzero
        cases hg
        have hkey : k + 1 = s.shardIdx := by omega
        rw [hkey, Function.update_self]
        rfl

theorem Sharded.openShard (h : Sharded dumpsLength outputDir done [] s) (p : Payload) :
    Sharded dumpsLength outputDir done [p] (.addBytes dumpsLength p (.openShard outputDir s)) := by
  obtain ⟨hnonempty, hshards, hidx, -, hsize, hcount, hfiles⟩ := h
  refine ⟨hnonempty, hshards, ?_, ?_, ?_, ?_, hfiles⟩
  · simp only [Sharding.addBytes, Sharding.openShard, hidx, if_true, List.cons_ne_nil, if_false, Nat.add_zero]
  · simp only [Sharding.addBytes, Sharding.openShard, Option.map_some, List.nil_append, List.cons_ne_nil, if_false,
      List.flatMap_cons, List.flatMap_nil, List.append_nil]
  · simp only [Sharding.addBytes, Sharding.openShard, hsize, List.map_nil, List.sum_nil, List.map_cons, List.sum_cons,
      Nat.zero_add, Nat.add_zero]
  · simp only [Sharding.addBytes, Sharding.openShard, hcount, List.length_nil, List.length_singleton]

theorem Sharded.addBytes (h : Sharded dumpsLength outputDir done cur s) (hcur : cur ≠ []) (p : Payload) :
    Sharded dumpsLength outputDir done (cur ++ [p]) (.addBytes dumpsLength p s) := by
  obtain ⟨hnonempty, hshards, hidx, hcurrent, hsize, hcount, hfiles⟩ := h
  have hne : cur ++ [p] ≠ [] := List.append_ne_nil_of_right_ne_nil _ (List.cons_ne_nil p [])
  rw [if_neg hcur] at hidx hcurrent
  refine ⟨hnonempty, hshards, ?_, ?_, ?_, ?_, hfiles⟩
  · rw [if_neg hne]
    exact hidx
  · simp only [Sharding.addBytes, hcurrent, Option.map_some, if_neg hne, List.flatMap_append, List.flatMap_cons,
      List.flatMap_nil, List.append_nil]
  · simp only [Sharding.addBytes, hsize, List.map_append, List.sum_append, List.map_cons, List.map_nil, List.sum_cons,
      List.sum_nil, Nat.add_zero]
  · simp only [Sharding.addBytes, hcount, List.length_append, List.length_singleton]

def FitsShard (dumpsLength : Json → ℕ) (shardSize : ℤ) (group : List Payload) (p : Payload) : Prop :=
  (((group.map (Payload.size dumpsLength)).sum : ℕ) : ℤ) + p.mcap.length ≤ shardSize

instance (dumpsLength : Json → ℕ) (shardSize : ℤ) (group : List Payload) (p : Payload) :
    Decidable (FitsShard dumpsLength shardSize group p) := inferInstanceAs (Decidable (_ ≤ _))

theorem Sharded.place {shardSize : ℤ} {gs : Groups Payload} (h : Sharded dumpsLength outputDir gs.closed gs.current s)
    (p : Payload) :
    Sharded dumpsLength outputDir (gs.place (FitsShard dumpsLength shardSize) p).closed
      (gs.place (FitsShard dumpsLength shardSize) p).current (s.addSample dumpsLength shardSize outputDir p) := by
  have hnone : s.current.isNone = true ↔ gs.current = [] := by
    rw [h.current]
    split_ifs with hcur <;> simp [hcur]
  have hexceeds : shardSize < s.currentSize + p.mcap.length ↔ ¬ FitsShard dumpsLength shardSize gs.current p := by
    rw [h.currentSize, FitsShard, Int.not_le]
  unfold Sharding.addSample
  split_ifs with hnew
  · rw [hnone, hexceeds] at hnew
    rw [place_of_new hnew]
    exact h.flushShard.openShard p
  · rw [hnone, hexceeds, not_or, not_not] at hnew
    rw [place_of_fits hnew.1 hnew.2]
    exact h.addBytes hnew.1 p

theorem sharded_foldl (dumpsLength : Json → ℕ) (shardSize : ℤ) (outputDir : String) (files : Files)
    (ps : List Payload) :
    Sharded dumpsLength outputDir (Groups.partition (FitsShard dumpsLength shardSize) ps).closed
      (Groups.partition (FitsShard dumpsLength shardSize) ps).current
      (ps.foldl (fun s => s.addSample dumpsLength shardSize outputDir) ⟨[], 0, 0, 0, none, files⟩) := by
  induction ps using List.reverseRecOn with
  | nil => exact ⟨nofun, rfl, rfl, rfl, rfl, rfl, nofun⟩
  | append_singleton ps p ih =>
    rw [List.foldl_append, partition_concat]
    exact ih.place p

structure ExportedGroups (dumpsLength : Json → ℕ) (outputDir : String) (groups : List (List Payload))
    (result : ExportResult) (files' : Files) : Prop where
  nonempty : ∀ g ∈ groups, g ≠ []
  shards : result.shards = groups.mapIdx (groupInfo dumpsLength outputDir)
  files : ∀ k g, groups[k]? = some g → files' (shardPath outputDir (k + 1)) = some (groupContent g)

def shardAll (dumpsLength : Json → ℕ) (shardSize : ℤ) (outputDir : String) (files : Files) (ps : List Payload) :
    Sharding :=
  (ps.foldl (Sharding.addSample dumpsLength shardSize outputDir) ⟨[], 0, 0, 0, none, files⟩).flushShard

theorem webDatasetExport_eq (dumpsLength : Json → ℕ) (shardSize : ℤ) (outputDir : String)
    (mcapLoader : String → Except String (List UInt8)) (episodeRefs : List EpisodeRef) (files : Files) :
    webDatasetExport dumpsLength shardSize outputDir mcapLoader episodeRefs files =
      (episodeRefs.zipIdx.mapM (fun p => payload mcapLoader p.1 p.2)).map fun ps =>
        (⟨(shardAll dumpsLength shardSize outputDir files ps).shards,
          buildManifest episodeRefs (shardAll dumpsLength shardSize outputDir files ps).shards⟩,
          (shardAll dumpsLength shardSize outputDir files ps).files) := by
  rw [webDatasetExport, foldlM_map_eq]
  cases episodeRefs.zipIdx.mapM (fun p => payload mcapLoader p.1 p.2) <;> rfl

variable (dumpsLength outputDir) in
theorem exportedGroups_partition (shardSize : ℤ) (files : Files) {mcapLoader : String → Except String (List UInt8)}
    {episodeRefs : List EpisodeRef} {ps : List Payload}
    (hps : episodeRefs.zipIdx.mapM (fun p => payload mcapLoader p.1 p.2) = .ok ps) :
    ∃ result files', webDatasetExport dumpsLength shardSize outputDir mcapLoader episodeRefs files =
        .ok (result, files') ∧ result.manifest = buildManifest episodeRefs result.shards ∧
      ExportedGroups dumpsLength outputDir (Groups.partition (FitsShard dumpsLength shardSize) ps).all result
        files' := by
  have hclosed := (sharded_foldl dumpsLength shardSize outputDir files ps).flushShard
  have hrun := webDatasetExport_eq dumpsLength shardSize outputDir mcapLoader episodeRefs files
  rw [hps] at hrun
  exact ⟨_, _, hrun, rfl, ⟨hclosed.nonempty, hclosed.shards, hclosed.files⟩⟩

theorem webDatasetExport_eq_ok {shardSize : ℤ} {mcapLoader : String → Except String (List UInt8)}
    {episodeRefs : List EpisodeRef} {files files' : Files} {result : ExportResult}
    (h : webDatasetExport dumpsLength shardSize outputDir mcapLoader episodeRefs files = .ok (result, files')) :
    ∃ groups : List (List Payload),
      episodeRefs.zipIdx.mapM (fun p => payload mcapLoader p.1 p.2) = .ok groups.flatten ∧ (∀ g ∈ groups, g ≠ []) ∧
      result.shards = groups.mapIdx (groupInfo dumpsLength outputDir) ∧
      result.manifest = buildManifest episodeRefs result.shards ∧
      ∀ k g, groups[k]? = some g → files' (shardPath outputDir (k + 1)) = some (groupContent g) := by
  have hrun := h
  rw [webDatasetExport_eq, except_map_eq_ok] at hrun
  obtain ⟨ps, hps, -⟩ := hrun
  obtain ⟨result', files'', hrun, hmanifest, hgroups⟩ :=
    exportedGroups_partition dumpsLength outputDir shardSize files hps
  rw [h] at hrun
  cases hrun
  refine ⟨_, ?_, hgroups.nonempty, hgroups.shards, hmanifest, hgroups.files⟩
  rw [flatten_partition]
  exact hps

theorem sampleName_index {ref ref' : EpisodeRef} {i j : ℕ} (h : sampleName ref i = sampleName ref' j) : i = j := by
  have hdigits : ∀ k, '_' ∉ (Decimal.zeroPadded 6 k).toList :=
    fun k hk => absurd (Decimal.isDigit_of_mem_zeroPadded hk) (by decide)
  have hlist := congrArg String.toList h
  simp only [sampleName, String.toList_append] at hlist
  have hsame := (ListSplits.append_cons_inj (a := '_') (hdigits i) (hdigits j) (by simpa using hlist)).2
  exact Decimal.zeroPadded_injective 6 (String.toList_inj.mp hsame)

theorem payload_name {mcapLoader : String → Except String (List UInt8)} {ref : EpisodeRef} {i : ℕ} {p : Payload}
    (h : payload mcapLoader ref i = .ok p) : p.name = sampleName ref i := by
  obtain ⟨data, -, rfl⟩ := except_map_eq_ok.mp h
  rfl

theorem nodup_names {mcapLoader : String → Except String (List UInt8)} {episodeRefs : List EpisodeRef}
    {ps : List Payload} (h : episodeRefs.zipIdx.mapM (fun p => payload mcapLoader p.1 p.2) = .ok ps) :
    (ps.map Payload.name).Nodup := by
  have hnames : ps.map Payload.name = episodeRefs.zipIdx.map (fun p => sampleName p.1 p.2) := by
    symm
    rw [← List.forall₂_eq_eq_eq, List.forall₂_map_left_iff, List.forall₂_map_right_iff]
    exact (mapM_eq_ok.mp h).imp (fun a b hab => (payload_name hab).symm)
  have hindices : (episodeRefs.zipIdx.map Prod.snd).Nodup := by
    rw [List.zipIdx_map_snd]
    exact List.nodup_range'
  rw [hnames, List.Nodup, List.pairwise_map]
  rw [List.Nodup, List.pairwise_map] at hindices
  exact hindices.imp (fun hne he => hne (sampleName_index he))

theorem rawPayload_eq_ok {mcapLoader : String → Except String (List UInt8)} {ref : EpisodeRef} {i : ℕ} {p : Payload}
    (h : rawPayload mcapLoader ref i = .ok p) : payload mcapLoader ref i = .ok p := by
  obtain ⟨q, hq, h⟩ := except_bind_eq_ok.mp h
  split_ifs at h
  cases h
  exact hq

def rawInfo (dumpsLength : Json → ℕ) (outputDir : String) (p : Payload) : ShardInfo :=
  ⟨joinPath outputDir (p.name ++ ".mcap"), p.size dumpsLength, 1⟩

theorem mcap_ne_json (a b : String) : a ++ ".mcap" ≠ b ++ ".json" := by
  intro h
  have hlist := congrArg (fun s : String => s.toList.getLast?) h
  have hmcap : ".mcap".toList.getLast? = some 'p' := by decide
  have hjson : ".json".toList.getLast? = some 'n' := by decide
  simp only [String.toList_append, List.getLast?_append, hmcap, hjson, Option.some_or] at hlist
  exact absurd hlist (by decide)

theorem written_foldl (outputDir : String) (files : Files) {ps : List Payload} (h : (ps.map Payload.name).Nodup) :
    (ps.foldl (writeSample dumpsLength outputDir) ([], files)).1 = ps.map (rawInfo dumpsLength outputDir) ∧
      ∀ p ∈ ps, (ps.foldl (writeSample dumpsLength outputDir) ([], files)).2
        (joinPath outputDir (p.name ++ ".mcap")) = some (.file (.bytes p.mcap)) := by
  induction ps using List.reverseRecOn with
  | nil => exact ⟨rfl, nofun⟩
  | append_singleton ps q ih =>
    rw [List.map_append, List.nodup_append] at h
    obtain ⟨hnodup, -, hdisjoint⟩ := h
    obtain ⟨hinfos, hwritten⟩ := ih hnodup
    rw [List.foldl_append, List.foldl_cons, List.foldl_nil]
    constructor
    · rw [List.map_append, writeSample, hinfos]
      rfl
    · intro p hp
      have hjson : joinPath outputDir (p.name ++ ".mcap") ≠ joinPath outputDir (q.name ++ ".json") :=
        fun he => mcap_ne_json _ _ (joinPath_injective outputDir he)
      rw [writeSample]
      dsimp only
      rw [Function.update_of_ne hjson]
      rcases List.mem_append.mp hp with hp | hp
      · have hmcap : joinPath outputDir (p.name ++ ".mcap") ≠ joinPath outputDir (q.name ++ ".mcap") := by
          intro he
          have hsame := (String.append_left_inj _).mp (joinPath_injective outputDir he)
          exact hdisjoint _ (List.mem_map_of_mem hp) _ (List.mem_singleton_self _) hsame
        rw [Function.update_of_ne hmcap]
        exact hwritten p hp
      · rw [List.mem_singleton.mp hp, Function.update_self]

theorem rawExport_eq_ok {mcapLoader : String → Except String (List UInt8)} {episodeRefs : List EpisodeRef}
    {files files' : Files} {result : ExportResult}
    (h : rawExport dumpsLength outputDir mcapLoader episodeRefs files = .ok (result, files')) :
    ∃ ps, episodeRefs.zipIdx.mapM (fun p => payload mcapLoader p.1 p.2) = .ok ps ∧
      result.shards = ps.map (rawInfo dumpsLength outputDir) ∧
      ∀ p ∈ ps, files' (joinPath outputDir (p.name ++ ".mcap")) = some (.file (.bytes p.mcap)) := by
  obtain ⟨s, hfold, h⟩ := except_bind_eq_ok.mp h
  cases h
  obtain ⟨ps, hps, rfl⟩ := foldlM_map_eq_ok.mp hfold
  have hloaded := mapM_eq_ok.mpr ((mapM_eq_ok.mp hps).imp (fun a b => rawPayload_eq_ok))
  obtain ⟨hshards, hwritten⟩ := written_foldl outputDir files (nodup_names hloaded)
  exact ⟨ps, hloaded, hshards, hwritten⟩

section Frame

variable {outputDir path : String} {files : Files}

structure Sharding.Outside (path : String) (files : Files) (s : Sharding) : Prop where
  current : ∀ c, s.current = some c → path ≠ c.1
  files : s.files path = files path

theorem Sharding.Outside.flushShard {s : Sharding} (h : s.Outside path files) : s.flushShard.Outside path files := by
  unfold Sharding.flushShard
  cases hcurrent : s.current with
  | none =>
    refine ⟨fun c hc => ?_, h.files⟩
    cases hc
  | some c =>
    refine ⟨fun c hc => ?_, (Function.update_of_ne (h.current c hcurrent) ..).trans h.files⟩
    cases hc

theorem Sharding.Outside.openShard {s : Sharding} (h : s.Outside path files)
    (hpath : ∀ name, path ≠ joinPath outputDir name) : (s.openShard outputDir).Outside path files := by
  refine ⟨fun c hc => ?_, h.files⟩
  cases hc
  exact hpath _

theorem Sharding.Outside.addBytes {s : Sharding} (h : s.Outside path files) (p : Payload) :
    (Sharding.addBytes dumpsLength p s).Outside path files := by
  refine ⟨fun c hc => ?_, h.files⟩
  obtain ⟨c', hc', rfl⟩ := Option.map_eq_some_iff.mp hc
  exact h.current c' hc'

theorem Sharding.Outside.addSample {s : Sharding} (h : s.Outside path files)
    (hpath : ∀ name, path ≠ joinPath outputDir name) (shardSize : ℤ) (p : Payload) :
    (s.addSample dumpsLength shardSize outputDir p).Outside path files := by
  unfold Sharding.addSample
  split_ifs
  · exact (h.flushShard.openShard hpath).addBytes p
  · exact h.addBytes p

theorem outside_shardAll (hpath : ∀ name, path ≠ joinPath outputDir name) (shardSize : ℤ) (ps : List Payload) :
    (shardAll dumpsLength shardSize outputDir files ps).Outside path files := by
  have hstart : (⟨[], 0, 0, 0, none, files⟩ : Sharding).Outside path files :=
    ⟨fun _ hc => (Option.some_ne_none _ hc.symm).elim, rfl⟩
  refine Sharding.Outside.flushShard ?_
  induction ps using List.reverseRecOn with
  | nil => exact hstart
  | append_singleton ps p ih =>
    rw [List.foldl_append]
    exact ih.addSample hpath shardSize p

theorem webDatasetExport_outside {shardSize : ℤ} {mcapLoader : String → Except String (List UInt8)}
    {episodeRefs : List EpisodeRef} {files' : Files} {result : ExportResult}
    (h : webDatasetExport dumpsLength shardSize outputDir mcapLoader episodeRefs files = .ok (result, files'))
    (hpath : ∀ name, path ≠ joinPath outputDir name) : files' path = files path := by
  rw [webDatasetExport_eq] at h
  obtain ⟨ps, -, he⟩ := except_map_eq_ok.mp h
  cases he
  exact (outside_shardAll hpath shardSize ps).files

theorem rawExport_outside {mcapLoader : String → Except String (List UInt8)} {episodeRefs : List EpisodeRef}
    {files' : Files} {result : ExportResult}
    (h : rawExport dumpsLength outputDir mcapLoader episodeRefs files = .ok (result, files'))
    (hpath : ∀ name, path ≠ joinPath outputDir name) : files' path = files path := by
  obtain ⟨s, hfold, h⟩ := except_bind_eq_ok.mp h
  cases h
  obtain ⟨ps, -, rfl⟩ := foldlM_map_eq_ok.mp hfold
  clear h hfold
  induction ps using List.reverseRecOn with
  | nil => rfl
  | append_singleton ps p ih =>
    rw [List.foldl_append, List.foldl_cons, List.foldl_nil, writeSample]
    dsimp only
    rw [Function.update_of_ne (hpath _), Function.update_of_ne (hpath _)]
    exact ih

end Frame

end Embedai.ExportWorker
