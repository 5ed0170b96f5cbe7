import Embedai.EpisodeProcessor

namespace Embedai.Pipeline

open Gateway Handlers TracedHandlers

structure Result where
  episodeMeta : EpisodeMeta
  score : ℚ
  detail : QualityDetail

def insertAll (topicId : ℕ → String) (episodeId : String) (topics : List (TopicMeta × ℕ)) (db : Tables) :
    Except String Tables :=
  topics.foldlM (fun db p => db.insertTopic (topicId p.2) episodeId p.1) db

def thumbnailUrl (readers : Readers) (format : String) (content : List UInt8) (episodeId : String) : String :=
  if format = "mcap" then
    match readers.firstImage content with
    | .ok (some _) => thumbnailPath episodeId
    | _ => ""
  else ""

def Tables.ready (id : String) (result : Result) (thumbnailUrl : String) (db : Tables) : Tables :=
  db.markReady id result.episodeMeta.durationSeconds result.score
    (readyMetadata result.detail thumbnailUrl result.episodeMeta.topics.length)

structure Reads (data : List (String × String)) (w : World) (format : String) (content : List UInt8) : Prop where
  format : data.lookup "format" = some format
  content : ∃ storagePath, data.lookup "storage_path" = some storagePath ∧ w.objects storagePath = some content

def required : List Call :=
  [.updateEpisodeStatus, .createTemp, .download, .extract, .getEpisodeProject, .score, .executeReady]

def thumbnailCalls : List Call := [.readImage, .createImage, .writeImage, .uploadThumbnail, .unlinkImage]

section Outcomes

variable (readers : Readers) (calls : Calls) (episodeId : String) (data : List (String × String)) (w : World)

def Yields (format : String) (content : List UInt8) (result : Result) : Prop :=
  readers.extract format content = .ok result.episodeMeta ∧
    ∃ schema, w.database.topicSchema episodeId = some schema ∧
      readers.score schema result.episodeMeta content = .ok (result.score, result.detail)

structure Commits : Prop where
  outcomes : ∀ c ∈ required, calls.outcome c = .ok
  topics : ∃ format content result, Reads data w format content ∧ Yields readers episodeId w format content result ∧
    (∀ i < result.episodeMeta.topics.length, calls.outcome (.insertTopic i) = .ok) ∧
    ∃ db, insertAll calls.topicId episodeId result.episodeMeta.topics.zipIdx w.database = .ok db
  commit : (calls.outcome .commitReady).takesEffect = true

structure Unprocessed (s : World) : Prop where
  database : s.database = w.database ∨ s.database = w.database.updateEpisodeStatus episodeId .processing
  objects : ∀ path, path ≠ thumbnailPath episodeId → s.objects path = w.objects path
  acked : s.acked = w.acked

def ThumbnailCalls : Prop := ∀ c ∈ thumbnailCalls, calls.outcome c = .ok

structure Processed (s : World) : Prop where
  database : ∃ format content result url db, Reads data w format content ∧
    Yields readers episodeId w format content result ∧
    insertAll calls.topicId episodeId result.episodeMeta.topics.zipIdx w.database = .ok db ∧
    (ThumbnailCalls calls → url = thumbnailUrl readers format content episodeId) ∧
    s.database = db.ready episodeId result url
  objects : ∀ path, path ≠ thumbnailPath episodeId → s.objects path = w.objects path

def Settled (s : World) : Prop :=
  (¬ Commits readers calls episodeId data w ∧ Unprocessed episodeId w s) ∨
    (Commits readers calls episodeId data w ∧ Processed readers calls episodeId data w s)

def Advances (r s : World) : Prop :=
  (Unprocessed episodeId w r ∧ Unprocessed episodeId w s) ∨
    (Commits readers calls episodeId data w ∧ Processed readers calls episodeId data w s)

end Outcomes

section Tables

theorem insertTopic_eq_ok {rowId episodeId : String} {topic : TopicMeta} {db db' : Tables} :
    db.insertTopic rowId episodeId topic = .ok db' ↔
      ∃ h : rowId ∉ db.topics.keys, episodeId ∈ db.episodes.keys ∧
        db' = { db with topics := db.topics.append rowId ⟨episodeId, topic⟩ h } := by
  unfold Tables.insertTopic
  by_cases h : rowId ∈ db.topics.keys
  · simp [h]
  · by_cases hepisode : episodeId ∈ db.episodes.keys <;> simp [h, hepisode, @eq_comm _ db']

theorem insertTopic_markReady (rowId episodeId id : String) (topic : TopicMeta) (duration score : ℚ) (metadata : Json)
    (db : Tables) : (db.markReady id duration score metadata).insertTopic rowId episodeId topic =
      (db.insertTopic rowId episodeId topic).map (Tables.markReady id duration score metadata) := by
  unfold Tables.insertTopic Tables.markReady
  simp only [OrderedDict.keys_modify]
  split_ifs <;> rfl

theorem insertAll_markReady (topicId : ℕ → String) (episodeId id : String) (topics : List (TopicMeta × ℕ))
    (duration score : ℚ) (metadata : Json) (db : Tables) :
    insertAll topicId episodeId topics (db.markReady id duration score metadata) =
      (insertAll topicId episodeId topics db).map (Tables.markReady id duration score metadata) := by
  induction topics generalizing db with
  | nil => rfl
  | cons p topics ih =>
    simp only [insertAll, List.foldlM_cons, insertTopic_markReady]
    cases db.insertTopic (topicId p.2) episodeId p.1 with
    | error e => rfl
    | ok db' => exact ih db'

theorem markReady_updateEpisodeStatus (id : String) (status : EpisodeStatus) (duration score : ℚ) (metadata : Json)
    (db : Tables) : (db.updateEpisodeStatus id status).markReady id duration score metadata =
      db.markReady id duration score metadata := by
  simp only [Tables.markReady, Tables.updateEpisodeStatus, OrderedDict.modify_modify]

theorem topicSchema_updateEpisodeStatus (id : String) (status : EpisodeStatus) (db : Tables) :
    (db.updateEpisodeStatus id status).topicSchema id = db.topicSchema id := by
  simp only [Tables.topicSchema, Tables.updateEpisodeStatus, OrderedDict.get?_modify, if_pos]
  cases db.episodes.get? id <;> rfl

end Tables

theorem Reads.unique {data : List (String × String)} {w : World} {format format' : String}
    {content content' : List UInt8} (h : Reads data w format content) (h' : Reads data w format' content') :
    format' = format ∧ content' = content := by
  obtain ⟨path, hpath, hcontent⟩ := h.content
  obtain ⟨path', hpath', hcontent'⟩ := h'.content
  have hformat := h'.format
  rw [h.format, Option.some.injEq] at hformat
  rw [hpath, Option.some.injEq] at hpath'
  subst hpath'
  rw [hcontent, Option.some.injEq] at hcontent'
  exact ⟨hformat.symm, hcontent'.symm⟩

section Stages

variable {readers : Readers} {calls : Calls} {episodeId : String} {data : List (String × String)} {w : World}

structure Marked (calls : Calls) (episodeId : String) (w : World) (done : List Call) (s : World) : Prop where
  outcomes : ∀ c ∈ done, calls.outcome c = .ok
  database : s.database = w.database.updateEpisodeStatus episodeId .processing
  objects : ∀ path, path ≠ thumbnailPath episodeId → s.objects path = w.objects path
  acked : s.acked = w.acked

structure Quiet (effect : World → World) : Prop where
  database : ∀ s, (effect s).database = s.database
  objects : ∀ s, (effect s).objects = s.objects
  acked : ∀ s, (effect s).acked = s.acked

theorem quiet_id : Quiet id := ⟨fun _ => rfl, fun _ => rfl, fun _ => rfl⟩

theorem quiet_writeFile (path : String) (content : List UInt8) : Quiet (World.writeFile path content) :=
  ⟨fun _ => rfl, fun _ => rfl, fun _ => rfl⟩

theorem quiet_unlink (path : String) : Quiet (World.unlink path) := ⟨fun _ => rfl, fun _ => rfl, fun _ => rfl⟩

variable {done : List Call} {s : World}

theorem Marked.unprocessed (h : Marked calls episodeId w done s) : Unprocessed episodeId w s :=
  ⟨Or.inr h.database, h.objects, h.acked⟩

theorem Marked.quiet {effect : World → World} (h : Marked calls episodeId w done s) (heffect : Quiet effect) :
    Marked calls episodeId w done (effect s) := by
  refine ⟨h.outcomes, (heffect.database s).trans h.database, fun path hpath => ?_, (heffect.acked s).trans h.acked⟩
  rw [heffect.objects]
  exact h.objects path hpath

theorem Marked.append {more : List Call} (h : Marked calls episodeId w done s)
    (hmore : ∀ c ∈ more, calls.outcome c = .ok) : Marked calls episodeId w (done ++ more) s :=
  ⟨List.forall_mem_append.mpr ⟨h.outcomes, hmore⟩, h.database, h.objects, h.acked⟩

theorem Settled.of_not (h : Unprocessed episodeId w s) (hnot : ¬ Commits readers calls episodeId data w) :
    Settled readers calls episodeId data w s :=
  Or.inl ⟨hnot, h⟩

theorem not_commits_of_outcome {c : Call} (hc : c ∈ required) (h : calls.outcome c ≠ .ok) :
    ¬ Commits readers calls episodeId data w :=
  fun hcommits => h (hcommits.outcomes c hc)

theorem triple_quiet {c : Call} {H K : World → Prop} {effect : World → World} (hc : c ∈ required)
    (heffect : Quiet effect) (hheld : ∀ s, H s → K (effect s)) :
    Triple (Advances readers calls episodeId data w) (fun s => Marked calls episodeId w done s ∧ H s)
      (call (calls.outcome c) effect) (fun _ s => Marked calls episodeId w (done ++ [c]) s ∧ K s)
      (fun _ => Settled readers calls episodeId data w) := by
  apply triple_call
  · rintro s ⟨hs, -⟩ -
    exact Or.inl ⟨hs.unprocessed, (hs.quiet heffect).unprocessed⟩
  · rintro s ⟨hs, hH⟩ hok
    exact ⟨(hs.quiet heffect).append (List.forall_mem_singleton.mpr hok), hheld s hH⟩
  · rintro s e ⟨hs, -⟩ hraises
    exact .of_not hs.unprocessed (not_commits_of_outcome hc (by simp [hraises]))
  · rintro s e ⟨hs, -⟩ hlate
    exact .of_not (hs.quiet heffect).unprocessed (not_commits_of_outcome hc (by simp [hlate]))

theorem triple_query_required {α : Type} {c : Call} {H : World → Prop} {f : World → α} (hc : c ∈ required) :
    Triple (Advances readers calls episodeId data w) (fun s => Marked calls episodeId w done s ∧ H s)
      (query (calls.outcome c) f)
      (fun a s => Marked calls episodeId w (done ++ [c]) s ∧ H s ∧ a = f s)
      (fun _ => Settled readers calls episodeId data w) := by
  refine triple_bind (triple_quiet hc quiet_id fun _ h => h) fun _ => triple_bind triple_observe fun a => ?_
  apply triple_pure
  rintro s ⟨rfl, hs, hheld⟩
  exact ⟨hs, hheld, rfl⟩

theorem triple_require_result {α : Type} {H : World → Prop} {r : Except String α}
    (h : ∀ e, r = .error e → ¬ Commits readers calls episodeId data w) :
    Triple (Advances readers calls episodeId data w) (fun s => Marked calls episodeId w done s ∧ H s) (require r)
      (fun a s => r = .ok a ∧ Marked calls episodeId w done s ∧ H s)
      (fun _ => Settled readers calls episodeId data w) := by
  apply triple_require
  · exact fun s a hs ha => ⟨ha, hs⟩
  · exact fun s e hs he => .of_not hs.1.unprocessed (h e he)

theorem triple_readFile {path : String} {content : List UInt8} {P : World → Prop} {E : String → World → Prop}
    {R : World → World → Prop} (h : ∀ s, P s → s.files path = some content) :
    Triple R P (readFile path) (fun a s => a = content ∧ P s) E := by
  refine triple_bind triple_observe fun seen => ?_
  apply triple_require
  · rintro s a ⟨rfl, hs⟩ ha
    rw [orRaise_eq_ok, h seen hs, Option.some.injEq] at ha
    exact ⟨ha.symm, hs⟩
  · rintro s e ⟨rfl, hs⟩ he
    rw [h seen hs] at he
    cases he

theorem triple_downloadTemp {storagePath : String} (hpath : data.lookup "storage_path" = some storagePath) :
    Triple (Advances readers calls episodeId data w) (fun s => Marked calls episodeId w done s ∧ s.objects = w.objects)
      (downloadTemp calls storagePath)
      (fun path s => ∃ content, w.objects storagePath = some content ∧
        Marked calls episodeId w (done ++ [.createTemp] ++ [.download]) s ∧ s.files path = some content)
      (fun _ => Settled readers calls episodeId data w) := by
  have hcreate : .createTemp ∈ required := by decide
  have hdownload : .download ∈ required := by decide
  have hmissing : ∀ e, orRaise "NoSuchKey" (w.objects storagePath) = .error e →
      ¬ Commits readers calls episodeId data w := by
    rintro e he hcommits
    obtain ⟨_, content, _, hreads, -⟩ := hcommits.topics
    obtain ⟨path, hlookup, hobject⟩ := hreads.content
    rw [hpath, Option.some.injEq] at hlookup
    rw [hlookup, hobject] at he
    cases he
  refine triple_bind (triple_quiet (K := fun s => s.objects = w.objects) hcreate
    (quiet_writeFile calls.tempPath []) fun s hs => ?_) fun _ => ?_
  · exact hs
  refine triple_bind (triple_query_required hdownload) fun object => ?_
  refine triple_given (A := object = w.objects storagePath) (fun s hs => hs.2.2.trans (congrFun hs.2.1 storagePath))
    fun hobject => ?_
  subst hobject
  refine triple_bind (triple_require_result hmissing) fun content => ?_
  refine triple_assume fun hcontent => ?_
  rw [orRaise_eq_ok] at hcontent
  have hwrite : Triple (Advances readers calls episodeId data w)
      (Marked calls episodeId w (done ++ [.createTemp] ++ [.download]))
      (call .ok (World.writeFile calls.tempPath content))
      (fun _ s => Marked calls episodeId w (done ++ [.createTemp] ++ [.download]) s ∧
        s.files calls.tempPath = some content)
      (fun (_ : String) => Settled readers calls episodeId data w) := by
    apply triple_call
    · exact fun s hs _ => Or.inl ⟨hs.unprocessed, (hs.quiet (quiet_writeFile ..)).unprocessed⟩
    · exact fun s hs _ => ⟨hs.quiet (quiet_writeFile ..), Function.update_self ..⟩
    · exact fun s e _ he => (by cases he)
    · exact fun s e _ he => (by cases he)
  refine triple_bind (triple_weaken hwrite (fun _ _ h => h) (fun _ h => h.1) (fun _ _ h => h) (fun _ _ h => h)) ?_
  intro _
  exact triple_pure _ fun s hs => ⟨content, hcontent, hs⟩

theorem triple_thumbnail_call {c : Call} {content : List UInt8} {format : String} {effect : World → World}
    (hc : c ∈ thumbnailCalls)
    (heffect : ∀ s, Marked calls episodeId w done s → Marked calls episodeId w done (effect s)) :
    Triple (Advances readers calls episodeId data w) (Marked calls episodeId w done) (call (calls.outcome c) effect)
      (fun _ => Marked calls episodeId w done) (fun _ s => Marked calls episodeId w done s ∧
        (ThumbnailCalls calls → thumbnailUrl readers format content episodeId = "")) := by
  apply triple_call
  · exact fun s hs _ => Or.inl ⟨hs.unprocessed, (heffect s hs).unprocessed⟩
  · exact fun s hs _ => heffect s hs
  · intro s e hs he
    refine ⟨hs, fun hcalls => ?_⟩
    rw [hcalls c hc] at he
    cases he
  · intro s e hs he
    refine ⟨heffect s hs, fun hcalls => ?_⟩
    rw [hcalls c hc] at he
    cases he

theorem marked_putObject (jpeg : List UInt8) (h : Marked calls episodeId w done s) :
    Marked calls episodeId w done (s.putObject (thumbnailPath episodeId) jpeg) := by
  refine ⟨h.outcomes, h.database, fun path hpath => ?_, h.acked⟩
  rw [← h.objects path hpath]
  exact Function.update_of_ne hpath _ _

theorem triple_thumbnailFromMcap {localPath : String} {content : List UInt8} :
    Triple (Advances readers calls episodeId data w)
      (fun s => Marked calls episodeId w done s ∧ s.files localPath = some content)
      (thumbnailFromMcap readers calls localPath episodeId)
      (fun url s => Marked calls episodeId w done s ∧
        (ThumbnailCalls calls → url = thumbnailUrl readers "mcap" content episodeId))
      (fun _ s => Marked calls episodeId w done s ∧
        (ThumbnailCalls calls → thumbnailUrl readers "mcap" content episodeId = "")) := by
  refine triple_bind (triple_readFile fun s hs => hs.2) fun read => triple_assume fun hread => ?_
  subst hread
  refine triple_bind (triple_weaken (triple_thumbnail_call (c := .readImage) (by decide) fun _ h => h)
    (fun _ _ h => h) (fun _ h => h.1) (fun _ _ h => h) (fun _ _ h => h)) fun _ => ?_
  refine triple_bind (triple_require (Q := fun image s => readers.firstImage read = .ok image ∧
    Marked calls episodeId w done s) (fun s image hs himage => ⟨himage, hs⟩) fun s e hs he => ?_) fun image => ?_
  · refine ⟨hs, fun _ => ?_⟩
    rw [thumbnailUrl, if_pos rfl, he]
  refine triple_assume fun himage => ?_
  have hurl : thumbnailUrl readers "mcap" read episodeId = (image.map fun _ => thumbnailPath episodeId).getD "" := by
    rw [thumbnailUrl, if_pos rfl, himage]
    cases image <;> rfl
  cases image with
  | none => exact triple_pure _ fun s hs => ⟨hs, fun _ => hurl.symm⟩
  | some jpeg =>
    refine triple_bind (triple_thumbnail_call (c := .createImage) (by decide) fun _ h => h.quiet (quiet_writeFile ..))
      fun _ => ?_
    refine triple_bind (triple_thumbnail_call (c := .writeImage) (by decide) fun _ h => h.quiet (quiet_writeFile ..))
      fun _ => ?_
    refine triple_bind (triple_thumbnail_call (c := .uploadThumbnail) (by decide) fun _ h => marked_putObject jpeg h)
      fun _ => ?_
    refine triple_bind (triple_thumbnail_call (c := .unlinkImage) (by decide) fun _ h => h.quiet (quiet_unlink ..))
      fun _ => ?_
    exact triple_pure _ fun s hs => ⟨hs, fun _ => hurl.symm⟩

theorem triple_generateThumbnail {localPath format : String} {content : List UInt8} :
    Triple (Advances readers calls episodeId data w)
      (fun s => Marked calls episodeId w done s ∧ s.files localPath = some content)
      (generateThumbnail readers calls localPath format episodeId)
      (fun url s => Marked calls episodeId w done s ∧
        (ThumbnailCalls calls → url = thumbnailUrl readers format content episodeId))
      (fun _ => Settled readers calls episodeId data w) := by
  unfold generateThumbnail
  split_ifs with hformat
  · subst hformat
    refine triple_recover triple_thumbnailFromMcap fun e => ?_
    exact triple_pure _ fun s hs => ⟨hs.1, fun hcalls => (hs.2 hcalls).symm⟩
  · refine triple_recover (F := fun _ _ => False) ?_ fun e => ?_
    · apply triple_pure
      rintro s ⟨hs, -⟩
      refine ⟨hs, fun _ => ?_⟩
      rw [thumbnailUrl, if_neg hformat]
    · exact triple_pure _ fun s hs => hs.elim

theorem Yields.unique {format : String} {content : List UInt8} {result result' : Result}
    (h : Yields readers episodeId w format content result) (h' : Yields readers episodeId w format content result') :
    result' = result := by
  obtain ⟨hextract, schema, hschema, hscore⟩ := h
  obtain ⟨hextract', schema', hschema', hscore'⟩ := h'
  rw [hextract, Except.ok.injEq] at hextract'
  rw [hschema, Option.some.injEq] at hschema'
  rw [← hextract', ← hschema', hscore, Except.ok.injEq, Prod.mk.injEq] at hscore'
  cases result
  cases result'
  simp only [Result.mk.injEq]
  exact ⟨hextract'.symm, hscore'.1.symm, hscore'.2.symm⟩

section Ready

variable {format url : String} {content : List UInt8} {result : Result}

theorem Commits.inserts (h : Commits readers calls episodeId data w) (hreads : Reads data w format content)
    (hyields : Yields readers episodeId w format content result) :
    (∀ i < result.episodeMeta.topics.length, calls.outcome (.insertTopic i) = .ok) ∧
      ∃ db, insertAll calls.topicId episodeId result.episodeMeta.topics.zipIdx w.database = .ok db := by
  obtain ⟨format', content', result', hreads', hyields', hinserts⟩ := h.topics
  obtain ⟨rfl, rfl⟩ := hreads.unique hreads'
  obtain rfl := hyields.unique hyields'
  exact hinserts

theorem insertAll_ready (result : Result) (url : String) {topics : List (TopicMeta × ℕ)} {db : Tables} :
    insertAll calls.topicId episodeId topics (w.database.ready episodeId result url) = .ok db ↔
      ∃ rows, insertAll calls.topicId episodeId topics w.database = .ok rows ∧
        db = rows.ready episodeId result url := by
  rw [Tables.ready, insertAll_markReady]
  cases insertAll calls.topicId episodeId topics w.database with
  | error e => simp [Except.map]
  | ok rows => simp [Except.map, Tables.ready, eq_comm]

theorem insertAll_append (topicId : ℕ → String) (before after : List (TopicMeta × ℕ)) (db : Tables) :
    insertAll topicId episodeId (before ++ after) db =
      insertAll topicId episodeId before db >>= insertAll topicId episodeId after :=
  List.foldlM_append

theorem Commits.insert {before after : List (TopicMeta × ℕ)} {topic : TopicMeta × ℕ} {db : Tables}
    (h : Commits readers calls episodeId data w) (hreads : Reads data w format content)
    (hyields : Yields readers episodeId w format content result)
    (htopics : result.episodeMeta.topics.zipIdx = before ++ topic :: after)
    (hbefore : insertAll calls.topicId episodeId before (w.database.ready episodeId result url) = .ok db) :
    calls.outcome (.insertTopic topic.2) = .ok ∧
      ∃ db', db.insertTopic (calls.topicId topic.2) episodeId topic.1 = .ok db' := by
  obtain ⟨houtcomes, rows, hrows⟩ := h.inserts hreads hyields
  have hmem : topic ∈ result.episodeMeta.topics.zipIdx := by
    rw [htopics]
    exact List.mem_append_right _ (List.mem_cons_self ..)
  refine ⟨houtcomes _ ?_, ?_⟩
  · exact List.snd_lt_of_mem_zipIdx hmem
  · have hall := (insertAll_ready result url).mpr ⟨rows, hrows, rfl⟩
    rw [htopics, insertAll_append, hbefore] at hall
    cases hinsert : db.insertTopic (calls.topicId topic.2) episodeId topic.1 with
    | ok db' => exact ⟨db', rfl⟩
    | error e => simp [insertAll, List.foldlM_cons, hinsert, bind, Except.bind] at hall

def UrlOf (readers : Readers) (calls : Calls) (format : String) (content : List UInt8)
    (episodeId url : String) : Prop :=
  ThumbnailCalls calls → url = thumbnailUrl readers format content episodeId

theorem triple_insertTopics (hreads : Reads data w format content)
    (hyields : Yields readers episodeId w format content result) :
    Triple (Advances readers calls episodeId data w) (Marked calls episodeId w required)
      (insertTopics calls episodeId result.episodeMeta.topics.zipIdx (w.database.ready episodeId result url))
      (fun db s => Marked calls episodeId w required s ∧
        (∀ p ∈ result.episodeMeta.topics.zipIdx, calls.outcome (.insertTopic p.2) = .ok) ∧
        insertAll calls.topicId episodeId result.episodeMeta.topics.zipIdx (w.database.ready episodeId result url) =
          .ok db) (fun _ => Settled readers calls episodeId data w) := by
  unfold insertTopics
  refine triple_weaken (triple_foldlM (I := fun done db s => Marked calls episodeId w required s ∧
    (∀ p ∈ done, calls.outcome (.insertTopic p.2) = .ok) ∧
    insertAll calls.topicId episodeId done (w.database.ready episodeId result url) = .ok db)
    (fun done topic rest db htopics => ?_) _) (fun _ _ h => h)
    (fun s hs => ⟨hs, fun p hp => absurd hp List.not_mem_nil, rfl⟩) (fun _ _ h => h) (fun _ _ h => h)
  refine triple_given (fun s hs => hs.2.2) fun hdone => ?_
  have hinsert (hcommits : Commits readers calls episodeId data w) := hcommits.insert hreads hyields htopics hdone
  refine triple_bind (triple_call (Q := fun _ s => calls.outcome (.insertTopic topic.2) = .ok ∧
    Marked calls episodeId w required s ∧ ∀ p ∈ done, calls.outcome (.insertTopic p.2) = .ok) ?_ ?_ ?_ ?_) fun _ => ?_
  · exact fun s hs _ => Or.inl ⟨hs.1.unprocessed, hs.1.unprocessed⟩
  · exact fun s hs hok => ⟨hok, hs.1, hs.2.1⟩
  · refine fun s e hs he => .of_not hs.1.unprocessed fun hcommits => ?_
    rw [(hinsert hcommits).1] at he
    cases he
  · refine fun s e hs he => .of_not hs.1.unprocessed fun hcommits => ?_
    rw [(hinsert hcommits).1] at he
    cases he
  apply triple_require
  · rintro s db' ⟨hok, hs, houtcomes⟩ hdb'
    refine ⟨hs, List.forall_mem_append.mpr ⟨houtcomes, List.forall_mem_singleton.mpr hok⟩, ?_⟩
    rw [insertAll_append, hdone]
    change insertAll calls.topicId episodeId [topic] db = .ok db'
    rw [insertAll, List.foldlM_cons, hdb']
    rfl
  · rintro s e ⟨-, hs, -⟩ he
    refine .of_not hs.unprocessed fun hcommits => ?_
    obtain ⟨db', hdb'⟩ := (hinsert hcommits).2
    rw [hdb'] at he
    cases he

theorem triple_commitReady {rows : Tables} (hreads : Reads data w format content)
    (hyields : Yields readers episodeId w format content result)
    (hurl : UrlOf readers calls format content episodeId url)
    (houtcomes : ∀ p ∈ result.episodeMeta.topics.zipIdx, calls.outcome (.insertTopic p.2) = .ok)
    (hrows : insertAll calls.topicId episodeId result.episodeMeta.topics.zipIdx w.database = .ok rows) :
    Triple (Advances readers calls episodeId data w) (Marked calls episodeId w required)
      (call (calls.outcome .commitReady) (World.commit (rows.ready episodeId result url)))
      (fun _ s => Commits readers calls episodeId data w ∧ Processed readers calls episodeId data w s)
      (fun _ => Settled readers calls episodeId data w) := by
  have hdone {s : World} (hs : Marked calls episodeId w required s)
      (hcommit : (calls.outcome .commitReady).takesEffect = true) :
      Commits readers calls episodeId data w ∧
        Processed readers calls episodeId data w (s.commit (rows.ready episodeId result url)) := by
    refine ⟨⟨hs.outcomes, ⟨format, content, result, hreads, hyields, fun i hi => ?_, rows, hrows⟩, hcommit⟩, ?_⟩
    · have hmem : (result.episodeMeta.topics[i], i) ∈ result.episodeMeta.topics.zipIdx :=
        List.mem_zipIdx_iff_getElem?.mpr (List.getElem?_eq_getElem hi)
      exact houtcomes _ hmem
    · exact ⟨⟨format, content, result, url, rows, hreads, hyields, hrows, hurl, rfl⟩, hs.objects⟩
  apply triple_call
  · intro s hs hne
    refine Or.inr (hdone hs ?_)
    cases hc : calls.outcome .commitReady with
    | ok => rfl
    | raises e => exact absurd hc (hne e)
    | raisesLate e => rfl
  · exact fun s hs hok => hdone hs (by rw [hok]; rfl)
  · refine fun s e hs he => .of_not hs.unprocessed fun hcommits => ?_
    have hcommit := hcommits.commit
    rw [he] at hcommit
    cases hcommit
  · exact fun s e hs he => Or.inr (hdone hs (by rw [he]; rfl))

theorem triple_updateEpisodeReady (hreads : Reads data w format content)
    (hyields : Yields readers episodeId w format content result)
    (hurl : UrlOf readers calls format content episodeId url) :
    Triple (Advances readers calls episodeId data w) (Marked calls episodeId w required.dropLast)
      (updateEpisodeReady calls episodeId result.episodeMeta.durationSeconds result.score
        (readyMetadata result.detail url result.episodeMeta.topics.length) result.episodeMeta.topics)
      (fun _ s => Commits readers calls episodeId data w ∧ Processed readers calls episodeId data w s)
      (fun _ => Settled readers calls episodeId data w) := by
  refine triple_bind triple_observe fun seen => ?_
  refine triple_given (A := seen.database = w.database.updateEpisodeStatus episodeId .processing)
    (fun s hs => hs.1 ▸ hs.2.database) fun hseen => ?_
  have hmarked : seen.database.markReady episodeId result.episodeMeta.durationSeconds result.score
      (readyMetadata result.detail url result.episodeMeta.topics.length) = w.database.ready episodeId result url := by
    rw [hseen, markReady_updateEpisodeStatus, Tables.ready]
  rw [hmarked]
  have hexecute : Triple (Advances readers calls episodeId data w)
      (fun s => seen = s ∧ Marked calls episodeId w required.dropLast s)
      (execute (calls.outcome .executeReady) (.ok (w.database.ready episodeId result url)))
      (fun db s => db = w.database.ready episodeId result url ∧ Marked calls episodeId w required s)
      (fun _ => Settled readers calls episodeId data w) := by
    have hquiet : Triple (Advances readers calls episodeId data w)
        (fun s => Marked calls episodeId w required.dropLast s ∧ True) (call (calls.outcome .executeReady) id)
        (fun _ s => Marked calls episodeId w required s ∧ True) (fun _ => Settled readers calls episodeId data w) :=
      triple_quiet (by decide) quiet_id fun _ h => h
    refine triple_bind (triple_weaken hquiet (fun _ _ h => h) (fun s hs => ⟨hs.2, trivial⟩) (fun _ _ h => h)
      (fun _ _ h => h)) fun _ => ?_
    apply triple_require
    · rintro s db ⟨hs, -⟩ hdb
      cases hdb
      exact ⟨rfl, hs⟩
    · exact fun s e _ he => (by cases he)
  refine triple_bind hexecute fun db => triple_assume fun hdb => ?_
  subst hdb
  refine triple_bind (triple_insertTopics hreads hyields) fun db => ?_
  refine triple_given (fun s hs => hs.2) fun ⟨houtcomes, hdb⟩ => ?_
  obtain ⟨rows, hrows, rfl⟩ := (insertAll_ready result url).mp hdb
  exact triple_weaken (triple_commitReady hreads hyields hurl houtcomes hrows) (fun _ _ h => h) (fun s hs => hs.1)
    (fun _ _ h => h) (fun _ _ h => h)

end Ready

def readingCalls : List Call := [.extract, .getEpisodeProject, .score]

theorem triple_processFile_of_yields {localPath format : String} {content : List UInt8} {P F : World → Prop}
    {R : World → World → Prop} {Q : Unit → World → Prop} (hrefl : ∀ s, P s → R s s)
    (hfiles : ∀ s, P s → s.files localPath = some content)
    (hdatabase : ∀ s, P s → s.database = w.database.updateEpisodeStatus episodeId .processing)
    (houtcome : ∀ c ∈ readingCalls, calls.outcome c ≠ .ok → ∀ s, P s → F s)
    (hrefused : (∀ result, ¬ Yields readers episodeId w format content result) → ∀ s, P s → F s)
    (hrest : ∀ result, (∀ c ∈ readingCalls, calls.outcome c = .ok) →
      Yields readers episodeId w format content result →
      Triple R P (do
        let thumbnailUrl ← generateThumbnail readers calls localPath format episodeId
        updateEpisodeReady calls episodeId result.episodeMeta.durationSeconds result.score
          (readyMetadata result.detail thumbnailUrl result.episodeMeta.topics.length) result.episodeMeta.topics)
        Q (fun _ => F)) :
    Triple R P (processFile readers calls episodeId localPath format) Q (fun _ => F) := by
  have hcall {c : Call} (hc : c ∈ readingCalls) :
      Triple R P (call (calls.outcome c) id) (fun _ s => calls.outcome c = .ok ∧ P s) (fun _ => F) := by
    apply triple_call
    · exact fun s hs _ => hrefl s hs
    · exact fun s hs hok => ⟨hok, hs⟩
    · exact fun s e hs he => houtcome c hc (he ▸ nofun) s hs
    · exact fun s e hs he => houtcome c hc (he ▸ nofun) s hs
  have hrequire {α : Type} {r : Except String α}
      (h : ∀ result, Yields readers episodeId w format content result → ∃ a, r = .ok a) :
      Triple R P (require r) (fun a s => r = .ok a ∧ P s) (fun _ => F) := by
    apply triple_require
    · exact fun s a hs ha => ⟨ha, hs⟩
    · intro s e hs he
      refine hrefused (fun result hyields => ?_) s hs
      obtain ⟨a, ha⟩ := h result hyields
      rw [ha] at he
      cases he
  refine triple_bind (triple_readFile hfiles) fun read => triple_assume fun hread => ?_
  subst hread
  refine triple_bind (hcall (c := .extract) (by decide)) fun _ => triple_assume fun hextracts => ?_
  refine triple_bind (hrequire fun result h => ⟨_, h.1⟩) fun episodeMeta => triple_assume fun hextract => ?_
  refine triple_bind (triple_query hrefl fun s _ hs hne => houtcome _ (by decide) hne s hs) fun schema =>
    triple_assume fun hproject => ?_
  refine triple_given (A := schema = w.database.topicSchema episodeId) (fun s hs => ?_) fun hschema => ?_
  · rw [hs.1, hdatabase s hs.2, topicSchema_updateEpisodeStatus]
  subst hschema
  refine triple_weaken (P := P) ?_ (fun _ _ h => h) (fun _ hs => hs.2) (fun _ _ h => h) (fun _ _ h => h)
  refine triple_bind (hrequire fun result h => ?_) fun topicSchema => triple_assume fun htopicSchema => ?_
  · obtain ⟨-, schema, hschema, -⟩ := h
    exact ⟨schema, orRaise_eq_ok.mpr hschema⟩
  rw [orRaise_eq_ok] at htopicSchema
  refine triple_bind (hcall (c := .score) (by decide)) fun _ => triple_assume fun hscores => ?_
  refine triple_bind (hrequire fun result h => ?_) ?_
  · obtain ⟨hextract', schema, hschema, hscore⟩ := h
    rw [hextract, Except.ok.injEq] at hextract'
    rw [htopicSchema, Option.some.injEq] at hschema
    rw [hextract', hschema]
    exact ⟨_, hscore⟩
  rintro ⟨score, detail⟩
  refine triple_assume fun hscore => ?_
  apply hrest ⟨episodeMeta, score, detail⟩
  · simp [readingCalls, hextracts, hproject, hscores]
  · exact ⟨hextract, topicSchema, htopicSchema, hscore⟩

theorem triple_processFile {localPath format : String} {content : List UInt8} (hreads : Reads data w format content) :
    Triple (Advances readers calls episodeId data w)
      (fun s => Marked calls episodeId w [.updateEpisodeStatus, .createTemp, .download] s ∧
        s.files localPath = some content)
      (processFile readers calls episodeId localPath format)
      (fun _ s => Commits readers calls episodeId data w ∧ Processed readers calls episodeId data w s)
      (fun _ => Settled readers calls episodeId data w) := by
  have hrequired : ∀ c ∈ readingCalls, c ∈ required := by decide
  apply triple_processFile_of_yields (w := w)
  · exact fun s hs => Or.inl ⟨hs.1.unprocessed, hs.1.unprocessed⟩
  · exact fun s hs => hs.2
  · exact fun s hs => hs.1.database
  · exact fun c hc hne s hs => .of_not hs.1.unprocessed (not_commits_of_outcome (hrequired c hc) hne)
  · intro hnone s hs
    refine .of_not hs.1.unprocessed fun hcommits => ?_
    obtain ⟨format', content', result, hreads', hyields, -⟩ := hcommits.topics
    obtain ⟨rfl, rfl⟩ := hreads.unique hreads'
    exact hnone result hyields
  · intro result hcalls hyields
    refine triple_weaken (P := fun s => Marked calls episodeId w required.dropLast s ∧ s.files localPath = some content)
      ?_ (fun _ _ h => h) (fun s hs => ⟨hs.1.append hcalls, hs.2⟩) (fun _ _ h => h) (fun _ _ h => h)
    refine triple_bind triple_generateThumbnail fun url => ?_
    refine triple_given (fun s hs => hs.2) fun hurl => ?_
    have hready := triple_updateEpisodeReady hreads hyields hurl
    exact triple_weaken hready (fun _ _ h => h) (fun s hs => hs.1) (fun _ _ h => h) (fun _ _ h => h)

theorem Unprocessed.quiet {effect : World → World} (h : Unprocessed episodeId w s) (heffect : Quiet effect) :
    Unprocessed episodeId w (effect s) := by
  refine ⟨?_, fun path hpath => ?_, (heffect.acked s).trans h.acked⟩
  · rw [heffect.database]
    exact h.database
  · rw [heffect.objects]
    exact h.objects path hpath

theorem Processed.of_same {t : World} (h : Processed readers calls episodeId data w s)
    (hdatabase : t.database = s.database) (hobjects : t.objects = s.objects) :
    Processed readers calls episodeId data w t := by
  refine ⟨?_, fun path hpath => ?_⟩
  · rw [hdatabase]
    exact h.database
  · rw [hobjects]
    exact h.objects path hpath

theorem Settled.quiet {effect : World → World} (h : Settled readers calls episodeId data w s)
    (heffect : Quiet effect) : Settled readers calls episodeId data w (effect s) :=
  h.imp (fun h => ⟨h.1, h.2.quiet heffect⟩)
    (fun h => ⟨h.1, h.2.of_same (heffect.database s) (heffect.objects s)⟩)

theorem Settled.advances {effect : World → World} (h : Settled readers calls episodeId data w s)
    (heffect : Quiet effect) : Advances readers calls episodeId data w s (effect s) :=
  h.imp (fun h => ⟨h.2, h.2.quiet heffect⟩)
    (fun h => ⟨h.1, h.2.of_same (heffect.database s) (heffect.objects s)⟩)

theorem triple_unlink {path : String} {P : World → Prop} {E : String → World → Prop}
    (hsettled : ∀ s, P s → Settled readers calls episodeId data w s) (hP : ∀ s, P s → P (s.unlink path)) :
    Triple (Advances readers calls episodeId data w) P
      (recover (call (calls.outcome .unlink) (World.unlink path)) (fun _ => pure ())) (fun _ => P) E := by
  refine triple_recover (F := fun _ => P) ?_ fun e => triple_pure _ fun _ h => h
  apply triple_call
  · exact fun s hs _ => (hsettled s hs).advances (quiet_unlink path)
  · exact fun s hs _ => hP s hs
  · exact fun s e hs _ => hs
  · exact fun s e hs _ => hP s hs

theorem unprocessed_self (episodeId : String) (w : World) : Unprocessed episodeId w w :=
  ⟨Or.inl rfl, fun _ _ => rfl, rfl⟩

theorem unprocessed_updateEpisodeStatus (episodeId : String) (w : World) :
    Unprocessed episodeId w (w.updateEpisodeStatus episodeId .processing) :=
  ⟨Or.inr rfl, fun _ _ => rfl, rfl⟩

theorem triple_updateEpisodeStatus :
    Triple (Advances readers calls episodeId data w) (fun s => s = w)
      (call (calls.outcome .updateEpisodeStatus) (World.updateEpisodeStatus episodeId .processing))
      (fun _ s => Marked calls episodeId w [.updateEpisodeStatus] s ∧ s.objects = w.objects)
      (fun _ => Settled readers calls episodeId data w) := by
  apply triple_call
  · rintro s rfl -
    exact Or.inl ⟨unprocessed_self episodeId s, unprocessed_updateEpisodeStatus episodeId s⟩
  · rintro s rfl hok
    exact ⟨⟨List.forall_mem_singleton.mpr hok, rfl, fun _ _ => rfl, rfl⟩, rfl⟩
  · rintro s e rfl he
    exact .of_not (unprocessed_self episodeId s) (not_commits_of_outcome (c := .updateEpisodeStatus) (by decide)
      (by simp [he]))
  · rintro s e rfl he
    exact .of_not (unprocessed_updateEpisodeStatus episodeId s)
      (not_commits_of_outcome (c := .updateEpisodeStatus) (by decide) (by simp [he]))

theorem triple_field {key text : String} (h : Commits readers calls episodeId data w → (data.lookup key).isSome) :
    Triple (Advances readers calls episodeId data w) (fun s => s = w) (require (orRaise text (data.lookup key)))
      (fun value s => data.lookup key = some value ∧ s = w) (fun _ => Settled readers calls episodeId data w) := by
  apply triple_require
  · exact fun s value hs hvalue => ⟨orRaise_eq_ok.mp hvalue, hs⟩
  · rintro s e rfl he
    refine .of_not (unprocessed_self episodeId s) fun hcommits => ?_
    obtain ⟨value, hvalue⟩ := Option.isSome_iff_exists.mp (h hcommits)
    rw [hvalue] at he
    cases he

theorem triple_process (readers : Readers) (calls : Calls) (episodeId : String) (data : List (String × String))
    (w : World) :
    Triple (Advances readers calls episodeId data w) (fun s => s = w) (process readers calls episodeId data)
      (fun _ s => Commits readers calls episodeId data w ∧ Processed readers calls episodeId data w s)
      (fun _ => Settled readers calls episodeId data w) := by
  have hfields (hcommits : Commits readers calls episodeId data w) :
      (data.lookup "storage_path").isSome ∧ (data.lookup "format").isSome := by
    obtain ⟨format, content, result, ⟨hformat, path, hpath, -⟩, -⟩ := hcommits.topics
    rw [hpath, hformat]
    exact ⟨rfl, rfl⟩
  refine triple_bind (triple_field fun h => (hfields h).1) fun storagePath => triple_assume fun hpath => ?_
  refine triple_bind (triple_field fun h => (hfields h).2) fun format => triple_assume fun hformat => ?_
  refine triple_bind triple_updateEpisodeStatus fun _ => ?_
  refine triple_bind (triple_downloadTemp hpath) fun localPath => triple_exists fun content => ?_
  refine triple_assume fun hcontent => ?_
  refine triple_ensure (triple_processFile ⟨hformat, storagePath, hpath, hcontent⟩) (fun _ => ?_) (fun e => ?_)
  · exact triple_unlink (fun s hs => Or.inr hs) fun s hs => ⟨hs.1, hs.2.of_same rfl rfl⟩
  · exact triple_unlink (fun s hs => hs) fun s hs => hs.quiet (quiet_unlink localPath)

theorem triple_handle (readers : Readers) (calls : Calls) (msgId : String) (w : World)
    (hepisode : data.lookup "episode_id" = some episodeId) :
    Triple (Advances readers calls episodeId data w) (fun s => s = w) (handle readers calls msgId data)
      (fun _ => Settled readers calls episodeId data w) (fun _ => Settled readers calls episodeId data w) := by
  refine triple_bind (triple_field fun _ => by rw [hepisode]; rfl) fun id => triple_assume fun hid => ?_
  rw [hepisode, Option.some.injEq] at hid
  subst hid
  refine triple_recover (triple_bind (triple_process readers calls episodeId data w) fun _ => ?_)
    fun e => triple_pure _ fun _ h => h
  have hacks {s : World} (hs : Processed readers calls episodeId data w s) :
      Processed readers calls episodeId data w (s.xack msgId) := hs.of_same rfl rfl
  apply triple_call
  · exact fun s hs _ => Or.inr ⟨hs.1, hacks hs.2⟩
  · exact fun s hs _ => Or.inr ⟨hs.1, hacks hs.2⟩
  · exact fun s e hs _ => Or.inr hs
  · exact fun s e hs _ => Or.inr ⟨hs.1, hacks hs.2⟩

end Stages

end Embedai.Pipeline
