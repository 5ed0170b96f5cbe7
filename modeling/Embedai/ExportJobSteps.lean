import Embedai.ExportJobs

namespace Embedai.ExportWorker

open DatasetService Handlers ObjectLocations TracedHandlers

def statusOf (w : World) (id : Uuid) : Option JobStatus := (w.jobs.get? id).map ExportJob.status

def KeepsCompleted (s t : World) : Prop := ∀ id, statusOf s id = some .completed → statusOf t id = some .completed

def shardUpload (jobId : Uuid) (job : ExportJob) (files : Files) (shard : ShardInfo × ℕ) : Option Upload :=
  (files shard.1.path).map fun content => ⟨⟨job.targetBucket, shardKey jobId job shard.2⟩, content⟩

def manifestUpload (jobId : Uuid) (job : ExportJob) (result : ExportResult) : Upload :=
  ⟨manifestLocation jobId job, .file (.json result.manifest)⟩

def shardCommits (result : ExportResult) (done : List (ShardInfo × ℕ)) : List ℚ :=
  done.map (fun shard => percent result.shards.length shard.2)

structure At (jobId : Uuid) (base : World) (puts : List Upload) (commits : List ℚ) (s : World) : Prop where
  database : s.database = base.database
  uploads : s.uploads = base.uploads ++ puts
  progress : s.progressCommits = base.progressCommits ++ commits.map (jobId, ·)
  others : ∀ id, id ≠ jobId → s.jobs.get? id = base.jobs.get? id

section Stages

variable (dumpsLength : Json → ℕ) (settings : Settings) (calls : Calls) (jobId : Uuid) (job : ExportJob)
  (episodeRefs : Option (List EpisodeRef))

def Exported (result : ExportResult) (files : Files) : Prop :=
  ∃ refs before, episodeRefs = some refs ∧
    runExporter dumpsLength settings calls jobId job refs before = .ok (result, files)

inductive Stage : List Upload → List ℚ → Prop
  | start : Stage [] []
  | shards {result files done rest} (hexport : Exported dumpsLength settings calls jobId job episodeRefs result files)
      (hdone : result.shards.zipIdx = done ++ rest) :
      Stage (done.filterMap (shardUpload jobId job files)) (shardCommits result done)
  | uploaded {result files done shard rest}
      (hexport : Exported dumpsLength settings calls jobId job episodeRefs result files)
      (hdone : result.shards.zipIdx = done ++ shard :: rest) :
      Stage ((done ++ [shard]).filterMap (shardUpload jobId job files)) (shardCommits result done)
  | manifest {result files} (hexport : Exported dumpsLength settings calls jobId job episodeRefs result files) :
      Stage (result.shards.zipIdx.filterMap (shardUpload jobId job files) ++ [manifestUpload jobId job result])
        (shardCommits result result.shards.zipIdx)
  | completed {result files} (hexport : Exported dumpsLength settings calls jobId job episodeRefs result files) :
      Stage (result.shards.zipIdx.filterMap (shardUpload jobId job files) ++ [manifestUpload jobId job result])
        (shardCommits result result.shards.zipIdx ++ [100])

def Finished (base s : World) : Prop :=
  ∃ result files, Exported dumpsLength settings calls jobId job episodeRefs result files ∧
    At jobId base (result.shards.zipIdx.filterMap (shardUpload jobId job files) ++ [manifestUpload jobId job result])
      (shardCommits result result.shards.zipIdx ++ [100]) s ∧
    ∀ row, s.jobs.get? jobId = some row →
      row.status = .completed ∧ row.manifestUrl = some (manifestUrl jobId job) ∧ row.progressPct = some 100

structure Reached (base s : World) : Prop where
  stage : ∃ puts commits, Stage dumpsLength settings calls jobId job episodeRefs puts commits ∧
    At jobId base puts commits s
  final : statusOf base jobId ≠ some .completed → statusOf s jobId = some .completed →
    Finished dumpsLength settings calls jobId job episodeRefs base s

def Advances (base s t : World) : Prop :=
  Reached dumpsLength settings calls jobId job episodeRefs base t ∧ KeepsCompleted s t

def UploadsAll : Prop :=
  ∃ result files, Exported dumpsLength settings calls jobId job episodeRefs result files ∧
    calls.outcome .export = .ok ∧
    (∀ shard ∈ result.shards.zipIdx,
      calls.outcome (.upload shard.2) = .ok ∧ calls.outcome (.updateProgress shard.2) = .ok) ∧
    calls.outcome .uploadManifest = .ok

end Stages

theorem keepsCompleted_refl (s : World) : KeepsCompleted s s := fun _ h => h

theorem statusOf_updateJob (w : World) (jobId id : Uuid) (f : ExportJob → ExportJob) :
    statusOf (w.updateJob jobId f) id =
      if id = jobId then (w.jobs.get? id).map (fun job => (f job).status) else statusOf w id := by
  rw [statusOf, World.updateJob, OrderedDict.get?_modify]
  split_ifs
  · rw [Option.map_map]
    rfl
  · rfl

theorem keepsCompleted_updateJob {w t : World} {jobId : Uuid} {f : ExportJob → ExportJob}
    (hf : ∀ job, job.status = .completed → (f job).status = .completed) (ht : t.jobs = (w.updateJob jobId f).jobs) :
    KeepsCompleted w t := by
  intro id hid
  have hstatus : statusOf t id = statusOf (w.updateJob jobId f) id := by rw [statusOf, ht, statusOf]
  rw [hstatus, statusOf_updateJob]
  split_ifs with hjob
  · obtain ⟨job, hget, hcompleted⟩ := Option.map_eq_some_iff.mp hid
    rw [hget, Option.map_some, hf job hcompleted]
  · exact hid

theorem keepsCompleted_updateJobProgress (s : World) (jobId : Uuid) (value : ℚ) :
    KeepsCompleted s (s.updateJobProgress jobId value) := by
  apply keepsCompleted_updateJob (f := fun job => { job with progressPct := some value })
  · exact fun _ h => h
  · rfl

theorem keepsCompleted_completeJob (s : World) (jobId : Uuid) (url : String) (now : Timestamp) :
    KeepsCompleted s (s.completeJob jobId url now) := by
  apply keepsCompleted_updateJob (f := fun job =>
    { job with status := .completed, progressPct := some 100, manifestUrl := some url, completedAt := some now })
  · exact fun _ _ => rfl
  · rfl

structure InProgress (jobId : Uuid) (base : World) (puts : List Upload) (commits : List ℚ) (s : World) : Prop where
  reached : At jobId base puts commits s
  unfinished : statusOf base jobId ≠ some .completed → statusOf s jobId ≠ some .completed

namespace InProgress

variable {jobId : Uuid} {base s : World} {puts : List Upload} {commits : List ℚ}

theorem putObject (h : InProgress jobId base puts commits s) (location : Location) (content : Content) :
    InProgress jobId base (puts ++ [⟨location, content⟩]) commits (s.putObject location content) := by
  obtain ⟨⟨hdatabase, huploads, hprogress, hothers⟩, hunfinished⟩ := h
  refine ⟨⟨hdatabase, ?_, hprogress, hothers⟩, hunfinished⟩
  rw [World.putObject, huploads, List.append_assoc]

theorem others_updateJob (h : At jobId base puts commits s) (f : ExportJob → ExportJob) :
    ∀ id, id ≠ jobId → (s.updateJob jobId f).jobs.get? id = base.jobs.get? id := by
  intro id hid
  rw [World.updateJob, OrderedDict.get?_modify, if_neg hid, h.others id hid]

theorem progress_append (h : At jobId base puts commits s) (value : ℚ) :
    s.progressCommits ++ [(jobId, value)] = base.progressCommits ++ (commits ++ [value]).map (jobId, ·) := by
  rw [h.progress, List.append_assoc, List.map_append]
  rfl

theorem updateJobProgress (h : InProgress jobId base puts commits s) (value : ℚ) :
    InProgress jobId base puts (commits ++ [value]) (s.updateJobProgress jobId value) := by
  refine ⟨⟨h.reached.database, h.reached.uploads, progress_append h.reached value, others_updateJob h.reached _⟩, ?_⟩
  intro hbase
  have hs := h.unfinished hbase
  rw [statusOf] at hs ⊢
  rw [World.updateJobProgress, World.updateJob, OrderedDict.get?_modify, if_pos rfl, Option.map_map]
  exact hs

end InProgress

section Triples

variable {dumpsLength : Json → ℕ} {settings : Settings} {calls : Calls} {jobId : Uuid} {job : ExportJob}
  {episodeRefs : Option (List EpisodeRef)} {base s t : World} {puts : List Upload} {commits : List ℚ}

theorem shardKey_ne_manifestKey (jobId : Uuid) (job : ExportJob) (i : ℕ) :
    shardKey jobId job i ≠ manifestKey jobId job := by
  intro h
  have hlast := congrArg (fun s : String => s.toList.getLast?) h
  have htar : ".tar".toList.getLast? = some 'r' := by decide
  have hjson : "/manifest.json".toList.getLast? = some 'n' := by decide
  simp only [shardKey, manifestKey, String.toList_append, List.getLast?_append, htar, hjson, Option.some_or] at hlast
  exact absurd hlast (by decide)

theorem location_ne_of_shardUpload {files : Files} {shards : List (ShardInfo × ℕ)} {u : Upload}
    (h : u ∈ shards.filterMap (shardUpload jobId job files)) : u.location ≠ manifestLocation jobId job := by
  obtain ⟨shard, -, hshard⟩ := List.mem_filterMap.mp h
  obtain ⟨content, -, rfl⟩ := Option.map_eq_some_iff.mp hshard
  intro he
  exact shardKey_ne_manifestKey jobId job shard.2 (congrArg Location.key he)

theorem InProgress.advances (h : InProgress jobId base puts commits t)
    (hstage : Stage dumpsLength settings calls jobId job episodeRefs puts commits) (hkeeps : KeepsCompleted s t) :
    Advances dumpsLength settings calls jobId job episodeRefs base s t :=
  ⟨⟨⟨puts, commits, hstage, h.reached⟩, fun hbase ht => absurd ht (h.unfinished hbase)⟩, hkeeps⟩

theorem finished_completeJob {result : ExportResult} {files : Files} (now : Timestamp)
    (hexport : Exported dumpsLength settings calls jobId job episodeRefs result files)
    (h : At jobId base
      (result.shards.zipIdx.filterMap (shardUpload jobId job files) ++ [manifestUpload jobId job result])
      (shardCommits result result.shards.zipIdx) s) :
    Finished dumpsLength settings calls jobId job episodeRefs base
      (s.completeJob jobId (manifestUrl jobId job) now) := by
  refine ⟨result, files, hexport, ⟨h.database, h.uploads, InProgress.progress_append h 100,
    InProgress.others_updateJob h _⟩, ?_⟩
  intro row hrow
  rw [World.completeJob, World.updateJob, OrderedDict.get?_modify, if_pos rfl] at hrow
  obtain ⟨before, -, rfl⟩ := Option.map_eq_some_iff.mp hrow
  exact ⟨rfl, rfl, rfl⟩

theorem Finished.advances (h : Finished dumpsLength settings calls jobId job episodeRefs base t)
    (hkeeps : KeepsCompleted s t) : Advances dumpsLength settings calls jobId job episodeRefs base s t := by
  obtain ⟨result, files, hexport, hat, hrow⟩ := h
  exact ⟨⟨⟨_, _, .completed hexport, hat⟩, fun _ _ => ⟨result, files, hexport, hat, hrow⟩⟩, hkeeps⟩

def Interrupted (dumpsLength : Json → ℕ) (settings : Settings) (calls : Calls) (jobId : Uuid) (job : ExportJob)
    (episodeRefs : Option (List EpisodeRef)) (base s : World) : Prop :=
  Reached dumpsLength settings calls jobId job episodeRefs base s ∧
    (statusOf base jobId ≠ some .completed → statusOf s jobId = some .completed →
      UploadsAll dumpsLength settings calls jobId job episodeRefs ∧ ∃ e, calls.outcome .complete = .raisesLate e)

theorem InProgress.interrupted (h : InProgress jobId base puts commits s)
    (hstage : Stage dumpsLength settings calls jobId job episodeRefs puts commits) :
    Interrupted dumpsLength settings calls jobId job episodeRefs base s :=
  ⟨(h.advances hstage (keepsCompleted_refl s)).1, fun hbase hs => absurd hs (h.unfinished hbase)⟩

theorem triple_stage {puts' : List Upload} {commits' : List ℚ} {P Q : World → Prop} {outcome : Outcome String}
    {effect : World → World} (hbefore : Stage dumpsLength settings calls jobId job episodeRefs puts commits)
    (hafter : Stage dumpsLength settings calls jobId job episodeRefs puts' commits')
    (hP : ∀ s, P s → InProgress jobId base puts commits s)
    (hstep : ∀ s, InProgress jobId base puts commits s → InProgress jobId base puts' commits' (effect s))
    (hkeeps : ∀ s, KeepsCompleted s (effect s)) (hok : ∀ s, P s → outcome = .ok → Q (effect s)) :
    Triple (Advances dumpsLength settings calls jobId job episodeRefs base) P (call outcome effect) (fun _ => Q)
      (fun _ => Interrupted dumpsLength settings calls jobId job episodeRefs base) := by
  apply triple_call
  · intro s hs _
    exact (hstep s (hP s hs)).advances hafter (hkeeps s)
  · exact hok
  · intro s e hs _
    exact (hP s hs).interrupted hbefore
  · intro s e hs _
    exact (hstep s (hP s hs)).interrupted hafter

def Succeeded (calls : Calls) (shards : List (ShardInfo × ℕ)) : Prop :=
  ∀ shard ∈ shards, calls.outcome (.upload shard.2) = .ok ∧ calls.outcome (.updateProgress shard.2) = .ok

theorem triple_uploadShard {result : ExportResult} {files : Files} {done rest : List (ShardInfo × ℕ)}
    {shard : ShardInfo × ℕ} (hexport : Exported dumpsLength settings calls jobId job episodeRefs result files)
    (hdone : result.shards.zipIdx = done ++ shard :: rest) :
    Triple (Advances dumpsLength settings calls jobId job episodeRefs base)
      (fun s => (InProgress jobId base (done.filterMap (shardUpload jobId job files)) (shardCommits result done) s ∧
        s.files = files) ∧ Succeeded calls done)
      (uploadShard calls jobId job result.shards.length shard)
      (fun _ s => (InProgress jobId base ((done ++ [shard]).filterMap (shardUpload jobId job files))
        (shardCommits result (done ++ [shard])) s ∧ s.files = files) ∧ Succeeded calls (done ++ [shard]))
      (fun _ => Interrupted dumpsLength settings calls jobId job episodeRefs base) := by
  have hbefore : Stage dumpsLength settings calls jobId job episodeRefs (done.filterMap (shardUpload jobId job files))
      (shardCommits result done) := .shards hexport hdone
  have hmiddle : Stage dumpsLength settings calls jobId job episodeRefs
      ((done ++ [shard]).filterMap (shardUpload jobId job files)) (shardCommits result done) := .uploaded hexport hdone
  have hafter : Stage dumpsLength settings calls jobId job episodeRefs
      ((done ++ [shard]).filterMap (shardUpload jobId job files)) (shardCommits result (done ++ [shard])) :=
    .shards hexport (by rw [hdone, List.append_assoc, List.singleton_append])
  have hcommits : shardCommits result (done ++ [shard]) =
      shardCommits result done ++ [percent result.shards.length shard.2] := List.map_append
  refine triple_bind triple_observe fun w => ?_
  refine triple_bind (triple_require (Q := fun content s => files shard.1.path = some content ∧
    (InProgress jobId base (done.filterMap (shardUpload jobId job files)) (shardCommits result done) s ∧
      s.files = files) ∧ Succeeded calls done) ?_ ?_) fun content => triple_assume fun hcontent => ?_
  · rintro s content ⟨rfl, ⟨hs, hfiles⟩, hsucceeded⟩ hfound
    rw [hfiles] at hfound
    cases hpath : files shard.1.path with
    | none =>
      rw [hpath] at hfound
      cases hfound
    | some c =>
      rw [hpath] at hfound
      cases hfound
      exact ⟨rfl, ⟨hs, hfiles⟩, hsucceeded⟩
  · rintro s e ⟨-, ⟨hs, -⟩, -⟩ -
    exact hs.interrupted hbefore
  have hput : (done ++ [shard]).filterMap (shardUpload jobId job files) =
      done.filterMap (shardUpload jobId job files) ++ [⟨⟨job.targetBucket, shardKey jobId job shard.2⟩, content⟩] := by
    have hsome : shardUpload jobId job files shard =
        some ⟨⟨job.targetBucket, shardKey jobId job shard.2⟩, content⟩ := by
      rw [shardUpload, hcontent, Option.map_some]
    rw [List.filterMap_append, List.filterMap_cons_some hsome, List.filterMap_nil]
  have hupload (s : World) (hs : InProgress jobId base (done.filterMap (shardUpload jobId job files))
      (shardCommits result done) s) :
      InProgress jobId base ((done ++ [shard]).filterMap (shardUpload jobId job files)) (shardCommits result done)
        (s.putObject ⟨job.targetBucket, shardKey jobId job shard.2⟩ content) := by
    rw [hput]
    exact hs.putObject _ content
  have hprogress (s : World) (hs : InProgress jobId base ((done ++ [shard]).filterMap (shardUpload jobId job files))
      (shardCommits result done) s) :
      InProgress jobId base ((done ++ [shard]).filterMap (shardUpload jobId job files))
        (shardCommits result (done ++ [shard]))
        (s.updateJobProgress jobId (percent result.shards.length shard.2)) := by
    rw [hcommits]
    exact hs.updateJobProgress _
  refine triple_bind (triple_stage (Q := fun s =>
    (InProgress jobId base ((done ++ [shard]).filterMap (shardUpload jobId job files)) (shardCommits result done) s ∧
      s.files = files) ∧ Succeeded calls done ∧ calls.outcome (.upload shard.2) = .ok)
    hbefore hmiddle (fun s hs => hs.1.1) hupload keepsCompleted_refl ?_) fun _ => ?_
  · rintro s ⟨⟨hs, hfiles⟩, hsucceeded⟩ hok
    exact ⟨⟨hupload s hs, hfiles⟩, hsucceeded, hok⟩
  apply triple_stage hmiddle hafter (fun s hs => hs.1.1) hprogress
    (fun s => keepsCompleted_updateJobProgress s jobId _)
  rintro s ⟨⟨hs, hfiles⟩, hsucceeded, hput⟩ hok
  refine ⟨⟨hprogress s hs, hfiles⟩, ?_⟩
  intro other hother
  rcases List.mem_append.mp hother with hother | hother
  · exact hsucceeded other hother
  · rw [List.mem_singleton.mp hother]
    exact ⟨hput, hok⟩

theorem triple_exportSamples (refs : List EpisodeRef) :
    Triple (Advances dumpsLength settings calls jobId job (some refs) base) (InProgress jobId base [] [])
      (exportSamples dumpsLength settings calls jobId job refs)
      (fun _ s => Finished dumpsLength settings calls jobId job (some refs) base s ∧
        UploadsAll dumpsLength settings calls jobId job (some refs) ∧ calls.outcome .complete = .ok)
      (fun _ => Interrupted dumpsLength settings calls jobId job (some refs) base) := by
  refine triple_bind triple_observe fun w => ?_
  refine triple_bind (triple_require (Q := fun exported s =>
    Exported dumpsLength settings calls jobId job (some refs) exported.1 exported.2 ∧ InProgress jobId base [] [] s)
    ?_ ?_) fun exported => triple_assume fun hexport => ?_
  · rintro s exported ⟨rfl, hs⟩ hrun
    exact ⟨⟨refs, _, rfl, hrun⟩, hs⟩
  · rintro s e ⟨-, hs⟩ -
    exact hs.interrupted .start
  have hfiles : ∀ s, InProgress jobId base [] [] s → InProgress jobId base [] [] { s with files := exported.2 } :=
    fun s hs => ⟨⟨hs.reached.database, hs.reached.uploads, hs.reached.progress, hs.reached.others⟩, hs.unfinished⟩
  refine triple_bind (triple_stage (Q := fun s => calls.outcome .export = .ok ∧
    (InProgress jobId base [] [] s ∧ s.files = exported.2) ∧ Succeeded calls [])
    .start .start (fun _ hs => hs) hfiles (fun _ _ h => h) ?_) fun _ => triple_assume fun hexportCall => ?_
  · intro s hs hok
    exact ⟨hok, ⟨hfiles s hs, rfl⟩, nofun⟩
  refine triple_bind (triple_forM (I := fun done s =>
    (InProgress jobId base (done.filterMap (shardUpload jobId job exported.2)) (shardCommits exported.1 done) s ∧
      s.files = exported.2) ∧ Succeeded calls done)
    fun done shard rest hdone => triple_uploadShard hexport hdone) fun _ => ?_
  have huploaded : Stage dumpsLength settings calls jobId job (some refs)
      (exported.1.shards.zipIdx.filterMap (shardUpload jobId job exported.2))
      (shardCommits exported.1 exported.1.shards.zipIdx) := .shards hexport (List.append_nil _).symm
  have hput : ∀ s, InProgress jobId base (exported.1.shards.zipIdx.filterMap (shardUpload jobId job exported.2))
      (shardCommits exported.1 exported.1.shards.zipIdx) s →
      InProgress jobId base (exported.1.shards.zipIdx.filterMap (shardUpload jobId job exported.2) ++
        [manifestUpload jobId job exported.1]) (shardCommits exported.1 exported.1.shards.zipIdx)
        (s.putObject (manifestLocation jobId job) (.file (.json exported.1.manifest))) :=
    fun s hs => hs.putObject _ _
  refine triple_bind (triple_stage (Q := fun s =>
    UploadsAll dumpsLength settings calls jobId job (some refs) ∧
      InProgress jobId base (exported.1.shards.zipIdx.filterMap (shardUpload jobId job exported.2) ++
        [manifestUpload jobId job exported.1]) (shardCommits exported.1 exported.1.shards.zipIdx) s)
    huploaded (.manifest hexport) (fun s hs => hs.1.1) hput keepsCompleted_refl ?_)
    fun _ => triple_assume fun hall => ?_
  · rintro s ⟨⟨hs, -⟩, hsucceeded⟩ hok
    exact ⟨⟨exported.1, exported.2, hexport, hexportCall, hsucceeded, hok⟩, hput s hs⟩
  apply triple_call
  · intro s hs _
    exact (finished_completeJob _ hexport hs.reached).advances (keepsCompleted_completeJob s jobId _ _)
  · intro s hs hok
    exact ⟨finished_completeJob _ hexport hs.reached, hall, hok⟩
  · intro s e hs _
    exact hs.interrupted (.manifest hexport)
  · intro s e hs hlate
    have hfinished := finished_completeJob (calls.clock .complete) hexport hs.reached
    exact ⟨(hfinished.advances (keepsCompleted_completeJob s jobId _ _)).1, fun _ _ => ⟨hall, e, hlate⟩⟩

def resolvedRefs (w : World) (job : ExportJob) : Option (List EpisodeRef) :=
  (w.database.versions.get? job.datasetVersionId).bind fun version => resolveEpisodeRefs w.database version.episodeRefs

def ReachesCompletion (dumpsLength : Json → ℕ) (settings : Settings) (calls : Calls) (jobId : Uuid) (w : World) :
    Prop :=
  ∃ job, w.jobs.get? jobId = some job ∧ calls.outcome .getJob = .ok ∧ calls.outcome .updateStatus = .ok ∧
    calls.outcome .getVersion = .ok ∧ calls.outcome .resolve = .ok ∧
    UploadsAll dumpsLength settings calls jobId job (resolvedRefs w job)

theorem found_eq_ok {α : Type} {error : String} {o : Option α} {a : α} : found error o = .ok a ↔ o = some a := by
  cases o with
  | none => simp [found]
  | some b => simp [found]

theorem InProgress.updateJobStatus (h : InProgress jobId base puts commits s) (now : Timestamp) :
    InProgress jobId base puts commits (s.updateJobStatus jobId .running now) := by
  refine ⟨⟨h.reached.database, h.reached.uploads, h.reached.progress, others_updateJob h.reached _⟩, fun _ => ?_⟩
  rw [World.updateJobStatus, statusOf_updateJob, if_pos rfl]
  cases s.jobs.get? jobId <;> simp

theorem inProgress_start (jobId : Uuid) (base : World) : InProgress jobId base [] [] base :=
  ⟨⟨rfl, (List.append_nil _).symm, (List.append_nil _).symm, fun _ _ => rfl⟩, id⟩

theorem keepsCompleted_of_unfinished {s t : World} {jobId : Uuid} (hs : statusOf s jobId ≠ some .completed)
    (hothers : ∀ id, id ≠ jobId → t.jobs.get? id = s.jobs.get? id) : KeepsCompleted s t := by
  intro id hid
  have hne : id ≠ jobId := by
    rintro rfl
    exact hs hid
  rw [statusOf, hothers id hne]
  exact hid

def Stopped (dumpsLength : Json → ℕ) (settings : Settings) (calls : Calls) (jobId : Uuid) (job : ExportJob)
    (episodeRefs : Option (List EpisodeRef)) (completion : Prop) (base s : World) : Prop :=
  Reached dumpsLength settings calls jobId job episodeRefs base s ∧
    (statusOf s jobId = some .completed →
      ReachesCompletion dumpsLength settings calls jobId base ∧ completion)

theorem triple_fetch {α : Type} {R : World → World → Prop} {Q : Unit → World → Prop} {E : String → World → Prop}
    {outcome : Outcome String} {f : World → Option α} {error : String} {k : α → Handler (Trace World) String Unit}
    (hR : ∀ s, InProgress jobId base [] [] s → R s s) (hE : ∀ s e, InProgress jobId base [] [] s → E e s)
    (hf : ∀ s, InProgress jobId base [] [] s → f s = f base)
    (hk : ∀ a, outcome = .ok → f base = some a → Triple R (InProgress jobId base [] []) (k a) Q E) :
    Triple R (InProgress jobId base [] []) (query outcome f >>= fun row => require (found error row) >>= k) Q E := by
  refine triple_bind (triple_query hR (fun s e hs _ => hE s e hs)) fun row => triple_assume fun hok => ?_
  refine triple_bind (triple_require (Q := fun a s => f base = some a ∧ InProgress jobId base [] [] s) ?_ ?_)
    fun a => triple_assume fun ha => hk a hok ha
  · rintro s a ⟨rfl, hs⟩ hfound
    rw [hf s hs] at hfound
    exact ⟨found_eq_ok.mp hfound, hs⟩
  · rintro s e ⟨-, hs⟩ -
    exact hE s e hs

theorem triple_executeJob (hjob : base.jobs.get? jobId = some job) (hopen : statusOf base jobId ≠ some .completed) :
    Triple (Advances dumpsLength settings calls jobId job (resolvedRefs base job) base) (· = base)
      (executeJob dumpsLength settings calls jobId)
      (fun _ s => Finished dumpsLength settings calls jobId job (resolvedRefs base job) base s ∧
        ReachesCompletion dumpsLength settings calls jobId base ∧ calls.outcome .complete = .ok)
      (fun _ => Stopped dumpsLength settings calls jobId job (resolvedRefs base job)
        (∃ e, calls.outcome .complete = .raisesLate e) base) := by
  have hstopped : ∀ s, InProgress jobId base [] [] s →
      Stopped dumpsLength settings calls jobId job (resolvedRefs base job)
        (∃ e, calls.outcome .complete = .raisesLate e) base s :=
    fun s hs => ⟨(hs.interrupted .start).1, fun hcompleted => absurd hcompleted (hs.unfinished hopen)⟩
  have hstays : ∀ s, InProgress jobId base [] [] s →
      Advances dumpsLength settings calls jobId job (resolvedRefs base job) base s s :=
    fun s hs => hs.advances .start (keepsCompleted_refl s)
  have hstart := inProgress_start jobId base
  refine triple_bind (triple_query ?_ ?_) fun found? => triple_given
    (A := calls.outcome .getJob = .ok ∧ found? = some job) ?_ fun ⟨hgetJob, hfound⟩ => ?_
  · rintro s rfl
    exact hstays s hstart
  · rintro s e rfl -
    exact hstopped s hstart
  · rintro s ⟨hok, rfl, rfl⟩
    exact ⟨hok, hjob⟩
  subst hfound
  dsimp only
  refine triple_bind (triple_call (Q := fun _ s => calls.outcome .updateStatus = .ok ∧ InProgress jobId base [] [] s)
    ?_ ?_ ?_ ?_) fun _ => triple_assume fun hupdate => ?_
  · rintro s ⟨-, -, rfl⟩ -
    exact (hstart.updateJobStatus _).advances .start
      (keepsCompleted_of_unfinished hopen (InProgress.others_updateJob hstart.reached _))
  · rintro s ⟨-, -, rfl⟩ hok
    exact ⟨hok, hstart.updateJobStatus _⟩
  · rintro s e ⟨-, -, rfl⟩ -
    exact hstopped s hstart
  · rintro s e ⟨-, -, rfl⟩ -
    exact hstopped _ (hstart.updateJobStatus _)
  refine triple_fetch hstays (fun s _ hs => hstopped s hs) (fun s hs => by rw [hs.reached.database])
    fun version hgetVersion hversion => ?_
  refine triple_fetch hstays (fun s _ hs => hstopped s hs) (fun s hs => by rw [hs.reached.database])
    fun episodeRefs hresolve hrefs => ?_
  have hresolved : resolvedRefs base job = some episodeRefs := by rw [resolvedRefs, hversion, Option.bind_some, hrefs]
  have hreaches : UploadsAll dumpsLength settings calls jobId job (resolvedRefs base job) →
      ReachesCompletion dumpsLength settings calls jobId base :=
    fun hall => ⟨job, hjob, hgetJob, hupdate, hgetVersion, hresolve, hall⟩
  rw [hresolved] at hreaches ⊢
  apply triple_weaken (triple_exportSamples episodeRefs) (fun _ _ h => h) (fun _ h => h)
  · rintro - s ⟨hfinished, hall, hok⟩
    exact ⟨hfinished, hreaches hall, hok⟩
  · rintro - s ⟨hreached, hcompleted⟩
    refine ⟨hreached, fun hs => ?_⟩
    obtain ⟨hall, hlate⟩ := hcompleted hopen hs
    exact ⟨hreaches hall, hlate⟩

def FailTakesEffect (calls : Calls) : Prop := calls.outcome .getFailedJob = .ok ∧ ∀ e, calls.outcome .fail ≠ .raises e

def Undone (dumpsLength : Json → ℕ) (settings : Settings) (calls : Calls) (jobId : Uuid) (w : World) : Prop :=
  (ReachesCompletion dumpsLength settings calls jobId w ∧
    ((∃ e, calls.outcome .complete = .raisesLate e) ∨
      calls.outcome .complete = .ok ∧ calls.outcome .ack ≠ .ok)) ∧ FailTakesEffect calls

def MessageStep (dumpsLength : Json → ℕ) (settings : Settings) (calls : Calls) (jobId : Uuid) (job : ExportJob)
    (base s t : World) : Prop :=
  Reached dumpsLength settings calls jobId job (resolvedRefs base job) base t ∧
    (¬ Undone dumpsLength settings calls jobId base → KeepsCompleted s t)

theorem Reached.failJob (h : Reached dumpsLength settings calls jobId job episodeRefs base s) (error : String) :
    Reached dumpsLength settings calls jobId job episodeRefs base (s.failJob jobId error) := by
  obtain ⟨⟨puts, commits, hstage, hat⟩, -⟩ := h
  refine ⟨⟨puts, commits, hstage, hat.database, hat.uploads, hat.progress, InProgress.others_updateJob hat _⟩, ?_⟩
  intro _ hcompleted
  rw [World.failJob, statusOf_updateJob, if_pos rfl] at hcompleted
  obtain ⟨row, -, hrow⟩ := Option.map_eq_some_iff.mp hcompleted
  cases hrow

theorem Finished.xack (h : Finished dumpsLength settings calls jobId job episodeRefs base s) (msgId : String) :
    Finished dumpsLength settings calls jobId job episodeRefs base (s.xack msgId) := by
  obtain ⟨result, files, hexport, ⟨hdatabase, huploads, hprogress, hothers⟩, hrow⟩ := h
  exact ⟨result, files, hexport, ⟨hdatabase, huploads, hprogress, hothers⟩, hrow⟩

theorem triple_failJob (error : String) :
    Triple (MessageStep dumpsLength settings calls jobId job base)
      (Stopped dumpsLength settings calls jobId job (resolvedRefs base job)
        ((∃ e, calls.outcome .complete = .raisesLate e) ∨
          calls.outcome .complete = .ok ∧ calls.outcome .ack ≠ .ok) base)
      (failJob calls jobId error)
      (fun _ => Reached dumpsLength settings calls jobId job (resolvedRefs base job) base)
      (fun _ => Reached dumpsLength settings calls jobId job (resolvedRefs base job) base) := by
  refine triple_bind (triple_query (fun s hs => ⟨hs.1, fun _ => keepsCompleted_refl s⟩) (fun s _ hs _ => hs.1))
    fun row => triple_assume fun hgetFailedJob => ?_
  cases row with
  | none =>
    apply triple_pure
    rintro s ⟨-, hs, -⟩
    exact hs
  | some failed =>
    apply triple_call
    · rintro s ⟨-, hreached, hcompleted⟩ hraises
      refine ⟨hreached.failJob error, fun hundone => ?_⟩
      have hunfinished : statusOf s jobId ≠ some .completed :=
        fun hs => hundone ⟨hcompleted hs, hgetFailedJob, hraises⟩
      apply keepsCompleted_of_unfinished hunfinished
      intro id hid
      rw [World.failJob, World.updateJob, OrderedDict.get?_modify, if_neg hid]
    · rintro s ⟨-, hreached, -⟩ -
      exact hreached.failJob error
    · rintro s e ⟨-, hreached, -⟩ -
      exact hreached
    · rintro s e ⟨-, hreached, -⟩ -
      exact hreached.failJob error

theorem triple_handleMessage {fields : List (String × String)} (msgId : String)
    (hid : Uuid.parse ((fields.lookup "job_id").getD "") = some jobId) (hjob : base.jobs.get? jobId = some job)
    (hopen : statusOf base jobId ≠ some .completed) :
    Triple (MessageStep dumpsLength settings calls jobId job base) (· = base)
      (handleMessage dumpsLength settings calls msgId fields)
      (fun _ => Reached dumpsLength settings calls jobId job (resolvedRefs base job) base)
      (fun _ => Reached dumpsLength settings calls jobId job (resolvedRefs base job) base) := by
  have hempty : ¬ (fields.lookup "job_id").getD "" = "" := by
    intro he
    have hnone : Uuid.parse "" = none := by decide +kernel
    rw [he, hnone] at hid
    cases hid
  have hstart : Reached dumpsLength settings calls jobId job (resolvedRefs base job) base base :=
    ((inProgress_start jobId base).interrupted .start).1
  have hstep : ∀ s t, Advances dumpsLength settings calls jobId job (resolvedRefs base job) base s t →
      MessageStep dumpsLength settings calls jobId job base s t := fun s t h => ⟨h.1, fun _ => h.2⟩
  rw [handleMessage, if_neg hempty]
  refine triple_bind (triple_require (Q := fun id s => id = jobId ∧ s = base) ?_ ?_) fun id =>
    triple_assume fun hsame => ?_
  · rintro s id rfl hfound
    rw [found_eq_ok, hid, Option.some.injEq] at hfound
    exact ⟨hfound.symm, rfl⟩
  · rintro s e rfl -
    exact hstart
  subst hsame
  refine triple_recover ?_ fun e => triple_failJob e
  refine triple_bind (triple_weaken (triple_executeJob hjob hopen) hstep (fun _ h => h) (fun _ _ h => h) ?_) fun _ => ?_
  · rintro e s ⟨hreached, hcompleted⟩
    exact ⟨hreached, fun hs => ⟨(hcompleted hs).1, Or.inl (hcompleted hs).2⟩⟩
  have hreached : ∀ s, Finished dumpsLength settings calls id job (resolvedRefs base job) base s →
      Reached dumpsLength settings calls id job (resolvedRefs base job) base s :=
    fun s hs => (hs.advances (keepsCompleted_refl s)).1
  apply triple_call
  · rintro s ⟨hs, -⟩ -
    exact ⟨hreached _ (hs.xack msgId), fun _ _ h => h⟩
  · rintro s ⟨hs, -⟩ -
    exact hreached _ (hs.xack msgId)
  · rintro s e ⟨hs, hreaches, hok⟩ hack
    exact ⟨hreached s hs, fun _ => ⟨hreaches, Or.inr ⟨hok, hack ▸ nofun⟩⟩⟩
  · rintro s e ⟨hs, hreaches, hok⟩ hack
    exact ⟨hreached _ (hs.xack msgId), fun _ => ⟨hreaches, Or.inr ⟨hok, hack ▸ nofun⟩⟩⟩

end Triples

end Embedai.ExportWorker
