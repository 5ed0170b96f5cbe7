import Mathlib.Data.Multiset.Basic
import Embedai.ExportJobSteps

namespace Embedai.ExportWorker

open DatasetService FilePaths Handlers ObjectLocations TracedHandlers

def basename (path : String) : String := String.ofList (path.toList.reverse.takeWhile (· ≠ '/')).reverse

def mcapBase? (name : String) : Option String :=
  if ".mcap".toList <:+ name.toList then some (String.ofList (name.toList.take (name.toList.length - 5))) else none

def Content.members : Content → List (String × File)
  | archive members => members
  | file _ => []

def Content.sampleCount (content : Content) : ℕ := (content.members.filter (fun m => (mcapBase? m.1).isSome)).length

def Content.payloadBytes (dumpsLength : Json → ℕ) (content : Content) : ℕ :=
  (content.members.map (fun m => m.2.size dumpsLength)).sum

def recoverSample (files : List (String × File)) (entry : String × File) : Option Payload :=
  match mcapBase? entry.1, entry.2 with
  | some base, .bytes mcap =>
    match files.lookup (base ++ ".json") with
    | some (.json (.arr annotations)) => some ⟨base, mcap, annotations⟩
    | _ => none
  | _, _ => none

def recoverFiles (files : List (String × File)) : List Payload := files.filterMap (recoverSample files)

def plainFile (u : Upload) : Option (String × File) :=
  match u.content with
  | .file contents => some (basename u.location.key, contents)
  | .archive _ => none

def recovered (objects : List Upload) : Multiset Payload :=
  ↑(objects.flatMap (fun u => recoverFiles u.content.members) ++ recoverFiles (objects.filterMap plainFile))

def uploadedSince (w t : World) : List Upload := t.uploads.drop w.uploads.length

theorem basename_append {dir name : String} (hdir : dir = "" ∨ dir.toList.getLast? = some '/')
    (hname : '/' ∉ name.toList) : basename (dir ++ name) = name := by
  have hall : ∀ c ∈ name.toList.reverse, decide (c ≠ '/') = true := by
    intro c hc
    rw [decide_eq_true_eq]
    rintro rfl
    exact hname (List.mem_reverse.mp hc)
  have hstop : dir.toList.reverse.takeWhile (· ≠ '/') = [] := by
    rcases hdir with rfl | hlast
    · rfl
    · rw [← List.head?_reverse] at hlast
      obtain ⟨rest, hrest⟩ := List.head?_eq_some_iff.mp hlast
      rw [hrest]
      rfl
  rw [basename, String.toList_append, List.reverse_append, List.takeWhile_append_of_pos hall, hstop, List.append_nil,
    List.reverse_reverse, String.ofList_toList]

theorem basename_joinPath {name : String} (dir : String) (hname : '/' ∉ name.toList) :
    basename (joinPath dir name) = name := by
  unfold joinPath
  split_ifs with hdir
  · exact basename_append hdir hname
  · apply basename_append _ hname
    right
    rw [String.toList_append, List.getLast?_append]
    rfl

theorem shardName_no_slash (k : ℕ) : '/' ∉ ("shard-" ++ Decimal.zeroPadded 6 k ++ ".tar").toList := by
  intro h
  rw [String.toList_append, String.toList_append, List.mem_append, List.mem_append] at h
  rcases h with (h | h) | h
  · exact absurd h (by decide)
  · exact absurd (Decimal.isDigit_of_mem_zeroPadded h) (by decide)
  · exact absurd h (by decide)

theorem basename_shardPath (outputDir : String) (k : ℕ) :
    basename (shardPath outputDir k) = "shard-" ++ Decimal.zeroPadded 6 k ++ ".tar" :=
  basename_joinPath outputDir (shardName_no_slash k)

theorem basename_shardKey (jobId : Uuid) (job : ExportJob) (i : ℕ) :
    basename (shardKey jobId job i) = "shard-" ++ Decimal.zeroPadded 6 i ++ ".tar" := by
  have hkey : shardKey jobId job i =
      (targetPrefix jobId job ++ "/") ++ ("shard-" ++ Decimal.zeroPadded 6 i ++ ".tar") := by
    have hslash : "/shard-" = "/" ++ "shard-" := rfl
    rw [shardKey, hslash]
    simp only [String.append_assoc]
  rw [hkey]
  apply basename_append _ (shardName_no_slash i)
  right
  rw [String.toList_append, List.getLast?_append]
  rfl

theorem basename_manifestKey (jobId : Uuid) (job : ExportJob) : basename (manifestKey jobId job) = "manifest.json" := by
  have hkey : manifestKey jobId job = (targetPrefix jobId job ++ "/") ++ "manifest.json" := by
    have hslash : "/manifest.json" = "/" ++ "manifest.json" := rfl
    rw [manifestKey, hslash, String.append_assoc]
  rw [hkey]
  apply basename_append _ (by decide)
  right
  rw [String.toList_append, List.getLast?_append]
  rfl

theorem mcapBase?_mcap (base : String) : mcapBase? (base ++ ".mcap") = some base := by
  have hlength : (base ++ ".mcap").toList.length - 5 = base.toList.length := by
    rw [String.toList_append, List.length_append]
    exact Nat.add_sub_cancel ..
  have hsuffix : ".mcap".toList <:+ (base ++ ".mcap").toList := by
    rw [String.toList_append]
    exact List.suffix_append ..
  rw [mcapBase?, if_pos hsuffix, hlength, String.toList_append, List.take_left', String.ofList_toList]
  rfl

theorem mcapBase?_eq_none {name : String} (h : name.toList.getLast? ≠ some 'p') : mcapBase? name = none := by
  apply if_neg
  rintro ⟨rest, hrest⟩
  apply h
  rw [← hrest, List.getLast?_append]
  rfl

theorem mcapBase?_json (base : String) : mcapBase? (base ++ ".json") = none := by
  apply mcapBase?_eq_none
  have hlast : ".json".toList.getLast? = some 'n' := by decide
  rw [String.toList_append, List.getLast?_append, hlast, Option.some_or]
  decide

theorem uploadedSince_of_ok {dumpsLength : Json → ℕ} {settings : Settings} {calls : Calls} {jobId : Uuid}
    {job : ExportJob} {refs : List EpisodeRef} {w : World} {past : List World} {t : Trace World}
    (h : answer (exportSamples dumpsLength settings calls jobId job refs) ⟨w, past⟩ = (.ok (), t)) :
    ∃ result files before, runExporter dumpsLength settings calls jobId job refs before = .ok (result, files) ∧
      uploadedSince w t.current =
        result.shards.zipIdx.filterMap (shardUpload jobId job files) ++ [manifestUpload jobId job result] := by
  obtain ⟨⟨result, files, ⟨refs', before, hrefs, hrun⟩, hat, -⟩, -⟩ :=
    (triple_exportSamples refs).of_ok (inProgress_start jobId w) h
  rw [Option.some.injEq] at hrefs
  subst hrefs
  refine ⟨result, files, before, hrun, ?_⟩
  rw [uploadedSince, hat.uploads, List.drop_left]

theorem contents_of_shards (jobId : Uuid) (job : ExportJob) (files : Files) (shards : List ShardInfo) :
    (shards.zipIdx.filterMap (shardUpload jobId job files)).map Upload.content =
      shards.filterMap (fun s => files s.path) := by
  have hcontent : ∀ shard, (shardUpload jobId job files shard).map Upload.content = files shard.1.path := by
    intro shard
    rw [shardUpload]
    cases files shard.1.path <;> rfl
  have hpath : (fun shard : ShardInfo × ℕ => files shard.1.path) = (fun s => files s.path) ∘ Prod.fst := rfl
  rw [List.map_filterMap, funext hcontent, hpath, ← List.filterMap_map, List.zipIdx_map_fst]

def oneSample : EpisodeRef := ⟨"00000000-0000-0000-0000-00000000000a", "episodes/ten/run.mcap", none, none, []⟩

def exportOne (job : ExportJob) : Except String Unit × Trace World :=
  answer (exportSamples (fun _ => 2) workerSettings (callsWith fun _ => .ok) ⟨5⟩ job [oneSample]) ⟨oneJob, []⟩

theorem exportOne_ok : exportOne pendingJob = (.ok (), (exportOne pendingJob).2) := Prod.ext rfl rfl

end Embedai.ExportWorker
