import Embedai.ProcessingAtomicity

namespace Embedai.Pipeline

open Gateway Handlers TracedHandlers

/-- `tempfile` makes up names of files that do not exist. -/
structure FreshNames (calls : Calls) (w : World) : Prop where
  distinct : calls.imagePath ≠ calls.tempPath
  temp : w.files calls.tempPath = none
  image : w.files calls.imagePath = none

def NoTempFile (calls : Calls) (w : World) : Prop :=
  w.files calls.tempPath = none ∧ w.files calls.imagePath = none

def untilImage : List Call :=
  [.updateEpisodeStatus, .createTemp, .download, .extract, .getEpisodeProject, .score, .readImage]

section Conditions

variable (readers : Readers) (calls : Calls) (episodeId : String) (data : List (String × String)) (w : World)

def DownloadRemoved : Prop :=
  ∀ path, data.lookup "storage_path" = some path → (data.lookup "format").isSome →
    calls.outcome .updateEpisodeStatus = .ok → (calls.outcome .createTemp).takesEffect →
    calls.outcome .createTemp = .ok ∧ calls.outcome .download = .ok ∧ (w.objects path).isSome ∧
      (calls.outcome .unlink).takesEffect

def MakesImage : Prop :=
  (∀ c ∈ untilImage, calls.outcome c = .ok) ∧ ∃ content result jpeg, Reads data w "mcap" content ∧
    Yields readers episodeId w "mcap" content result ∧ readers.firstImage content = .ok (some jpeg)

def ThumbnailRemoved : Prop :=
  (calls.outcome .createImage).takesEffect → calls.outcome .createImage = .ok ∧ calls.outcome .writeImage = .ok ∧
    calls.outcome .uploadThumbnail = .ok ∧ (calls.outcome .unlinkImage).takesEffect

def ImageRemoved : Prop := MakesImage readers calls episodeId data w → ThumbnailRemoved calls

end Conditions

variable {readers : Readers} {calls : Calls} {episodeId : String} {data : List (String × String)} {w : World}

theorem files_writeFile (path : String) (bytes : List UInt8) (s : World) :
    (s.writeFile path bytes).files = Function.update s.files path (some bytes) := rfl

theorem files_unlink (path : String) (s : World) : (s.unlink path).files = Function.update s.files path none := rfl

def Anything : World → World → Prop := fun _ _ => True

theorem triple_keeps {P : World → Prop} {outcome : Outcome String} {effect : World → World}
    (h : ∀ s, P s → P (effect s)) : Triple Anything P (call outcome effect) (fun _ => P) (fun _ => P) :=
  triple_call (fun _ _ _ => trivial) (fun s hs _ => h s hs) (fun _ _ hs _ => hs) (fun s _ hs _ => h s hs)

section Ready

variable {P : World → Prop} (hP : ∀ s t, t.files = s.files → P s → P t)
include hP

theorem triple_execute_keeps {α : Type} (outcome : Outcome String) (result : Except String α) :
    Triple Anything P (execute outcome result) (fun _ => P) (fun _ => P) :=
  triple_bind (triple_keeps fun s hs => hP s _ rfl hs) fun _ =>
    triple_require (fun _ _ hs _ => hs) (fun _ _ hs _ => hs)

theorem triple_updateEpisodeReady_keeps (duration qualityScore : ℚ) (metadata : Json) (topics : List TopicMeta) :
    Triple Anything P (updateEpisodeReady calls episodeId duration qualityScore metadata topics) (fun _ => P)
      (fun _ => P) := by
  have hobserve : Triple Anything P (observe : Handler (Trace World) String World) (fun _ => P) (fun _ => P) :=
    triple_weaken triple_observe (fun _ _ h => h) (fun _ h => h) (fun _ _ h => h.2) (fun _ _ h => h)
  refine triple_bind hobserve fun seen => ?_
  refine triple_bind (triple_execute_keeps hP _ _) fun db => ?_
  refine triple_bind (Q := fun _ => P) ?_ fun rows => triple_keeps fun s hs => hP s _ rfl hs
  apply triple_foldlM (I := fun _ _ => P)
  intro done p rest db' _
  exact triple_execute_keeps hP _ _

end Ready

section Thumbnail

structure ImageLeft (calls : Calls) (content : List UInt8) (removed : Prop) (s : World) : Prop where
  temp : s.files calls.tempPath = some content
  image : s.files calls.imagePath = none ↔ removed

variable {content : List UInt8} {removed : Prop} {s : World}

theorem ImageLeft.of_files {t : World} (hfiles : t.files = s.files) (h : ImageLeft calls content removed s) :
    ImageLeft calls content removed t := by
  refine ⟨?_, ?_⟩
  · rw [hfiles]
    exact h.temp
  · rw [hfiles]
    exact h.image

theorem ImageLeft.congr {removed' : Prop} (h : ImageLeft calls content removed s) (hiff : removed ↔ removed') :
    ImageLeft calls content removed' s :=
  ⟨h.temp, h.image.trans hiff⟩

theorem ImageLeft.write (hne : calls.imagePath ≠ calls.tempPath) (h : ImageLeft calls content removed s)
    (jpeg : List UInt8) : ImageLeft calls content False (s.writeFile calls.imagePath jpeg) := by
  refine ⟨(Function.update_of_ne hne.symm _ _).trans h.temp, iff_of_false ?_ id⟩
  rw [files_writeFile, Function.update_self]
  exact nofun

theorem ImageLeft.unlink (hne : calls.imagePath ≠ calls.tempPath) (h : ImageLeft calls content removed s) :
    ImageLeft calls content True (s.unlink calls.imagePath) :=
  ⟨(Function.update_of_ne hne.symm _ _).trans h.temp, iff_of_true (Function.update_self ..) trivial⟩

theorem triple_imageCall {c : Call} {effect : World → World} (hc : removed → calls.outcome c = .ok)
    (heffect : ∀ s, ImageLeft calls content False s → ImageLeft calls content False (effect s)) :
    Triple Anything (ImageLeft calls content False) (call (calls.outcome c) effect)
      (fun _ s => calls.outcome c = .ok ∧ ImageLeft calls content False s)
      (fun _ => ImageLeft calls content removed) := by
  apply triple_call
  · exact fun _ _ _ => trivial
  · exact fun s hs hok => ⟨hok, heffect s hs⟩
  · intro s e hs he
    exact hs.congr (iff_of_false id fun h => nomatch (hc h).symm.trans he)
  · intro s e hs he
    exact (heffect s hs).congr (iff_of_false id fun h => nomatch (hc h).symm.trans he)

theorem triple_image (hne : calls.imagePath ≠ calls.tempPath) (jpeg : List UInt8) :
    Triple Anything (ImageLeft calls content True)
      (do
        call (calls.outcome .createImage) (World.writeFile calls.imagePath [])
        call (calls.outcome .writeImage) (World.writeFile calls.imagePath jpeg)
        call (calls.outcome .uploadThumbnail) (World.putObject (thumbnailPath episodeId) jpeg)
        call (calls.outcome .unlinkImage) (World.unlink calls.imagePath)
        return thumbnailPath episodeId)
      (fun _ => ImageLeft calls content (ThumbnailRemoved calls))
      (fun _ => ImageLeft calls content (ThumbnailRemoved calls)) := by
  have hcreate : Triple Anything (ImageLeft calls content True)
      (call (calls.outcome .createImage) (World.writeFile calls.imagePath []))
      (fun _ s => calls.outcome .createImage = .ok ∧ ImageLeft calls content False s)
      (fun _ => ImageLeft calls content (ThumbnailRemoved calls)) := by
    apply triple_call
    · exact fun _ _ _ => trivial
    · exact fun s hs hok => ⟨hok, hs.write hne []⟩
    · intro s e hs he
      refine hs.congr (iff_of_true trivial fun heffect => ?_)
      rw [he] at heffect
      cases heffect
    · intro s e hs he
      refine (hs.write hne []).congr (iff_of_false id fun h => ?_)
      have hok := (h (by rw [he]; rfl)).1
      rw [he] at hok
      cases hok
  refine triple_bind hcreate fun _ => triple_assume fun hcreated => ?_
  have heffect : (calls.outcome .createImage).takesEffect := by
    rw [hcreated]
    rfl
  refine triple_bind (triple_imageCall (fun h => (h heffect).2.1) fun s hs => hs.write hne jpeg) fun _ => ?_
  refine triple_assume fun hwritten => ?_
  refine triple_bind (triple_imageCall (fun h => (h heffect).2.2.1) fun s hs => ?_) fun _ =>
    triple_assume fun huploaded => ?_
  · exact ImageLeft.of_files (s := s) rfl hs
  have hremoved : ThumbnailRemoved calls ↔ (calls.outcome .unlinkImage).takesEffect :=
    ⟨fun h => (h heffect).2.2.2, fun h _ => ⟨hcreated, hwritten, huploaded, h⟩⟩
  refine triple_bind (Q := fun _ => ImageLeft calls content (ThumbnailRemoved calls)) ?_ fun _ =>
    triple_pure _ fun _ hs => hs
  apply triple_call
  · exact fun _ _ _ => trivial
  · intro s hs hok
    exact (hs.unlink hne).congr (iff_of_true trivial (hremoved.mpr (by rw [hok]; rfl)))
  · intro s e hs he
    refine hs.congr (iff_of_false id fun h => ?_)
    rw [hremoved, he] at h
    cases h
  · intro s e hs he
    exact (hs.unlink hne).congr (iff_of_true trivial (hremoved.mpr (by rw [he]; rfl)))

def Decodes (readers : Readers) (calls : Calls) (format : String) (content : List UInt8) : Prop :=
  format = "mcap" ∧ calls.outcome .readImage = .ok ∧ ∃ jpeg, readers.firstImage content = .ok (some jpeg)

theorem triple_thumbnailFromMcap_left (hne : calls.imagePath ≠ calls.tempPath) :
    Triple Anything (ImageLeft calls content True) (thumbnailFromMcap readers calls calls.tempPath episodeId)
      (fun _ => ImageLeft calls content (Decodes readers calls "mcap" content → ThumbnailRemoved calls))
      (fun _ => ImageLeft calls content (Decodes readers calls "mcap" content → ThumbnailRemoved calls)) := by
  have hnothing (hnot : ¬ Decodes readers calls "mcap" content) {s : World} (hs : ImageLeft calls content True s) :
      ImageLeft calls content (Decodes readers calls "mcap" content → ThumbnailRemoved calls) s :=
    hs.congr (iff_of_true trivial fun h => absurd h hnot)
  refine triple_bind (triple_readFile fun s hs => hs.temp) fun read => triple_assume fun hread => ?_
  subst hread
  have hreadImage : Triple Anything (ImageLeft calls read True) (call (calls.outcome .readImage) id)
      (fun _ s => calls.outcome .readImage = .ok ∧ ImageLeft calls read True s)
      (fun _ => ImageLeft calls read (Decodes readers calls "mcap" read → ThumbnailRemoved calls)) := by
    apply triple_call
    · exact fun _ _ _ => trivial
    · exact fun s hs hok => ⟨hok, hs⟩
    · exact fun s e hs he => hnothing (fun h => nomatch h.2.1.symm.trans he) hs
    · exact fun s e hs he => hnothing (fun h => nomatch h.2.1.symm.trans he) hs
  refine triple_bind hreadImage fun _ => triple_assume fun hok => ?_
  have himage : Triple Anything (ImageLeft calls read True) (require (readers.firstImage read))
      (fun image s => readers.firstImage read = .ok image ∧ ImageLeft calls read True s)
      (fun _ => ImageLeft calls read (Decodes readers calls "mcap" read → ThumbnailRemoved calls)) := by
    apply triple_require
    · exact fun s image hs himage => ⟨himage, hs⟩
    · exact fun s e hs he => hnothing (fun ⟨_, _, jpeg, hjpeg⟩ => nomatch hjpeg.symm.trans he) hs
  refine triple_bind himage fun image => triple_assume fun hdecoded => ?_
  cases image with
  | none =>
    refine triple_pure _ fun s hs => hnothing (fun ⟨_, _, jpeg, hjpeg⟩ => ?_) hs
    rw [hdecoded] at hjpeg
    cases hjpeg
  | some jpeg =>
    have hiff : ThumbnailRemoved calls ↔ (Decodes readers calls "mcap" read → ThumbnailRemoved calls) :=
      ⟨fun h _ => h, fun h => h ⟨rfl, hok, jpeg, hdecoded⟩⟩
    exact triple_weaken (triple_image hne jpeg) (fun _ _ h => h) (fun _ h => h) (fun _ _ h => h.congr hiff)
      (fun _ _ h => h.congr hiff)

theorem triple_generateThumbnail_left {format : String} {E : String → World → Prop}
    (hne : calls.imagePath ≠ calls.tempPath) :
    Triple Anything (ImageLeft calls content True) (generateThumbnail readers calls calls.tempPath format episodeId)
      (fun _ => ImageLeft calls content (Decodes readers calls format content → ThumbnailRemoved calls)) E := by
  refine triple_recover (F := fun _ => ImageLeft calls content
    (Decodes readers calls format content → ThumbnailRemoved calls)) ?_ fun e => triple_pure _ fun _ h => h
  by_cases hformat : format = "mcap"
  · rw [if_pos hformat, hformat]
    exact triple_thumbnailFromMcap_left hne
  · rw [if_neg hformat]
    exact triple_pure _ fun s hs => hs.congr (iff_of_true trivial fun h => absurd h.1 hformat)

end Thumbnail

section Process

variable {content : List UInt8} {removed : Prop} {s : World}

theorem ImageLeft.of_not_makesImage (h : ImageLeft calls content True s)
    (hnot : ¬ MakesImage readers calls episodeId data w) :
    ImageLeft calls content (ImageRemoved readers calls episodeId data w) s :=
  h.congr (iff_of_true trivial fun himage => absurd himage hnot)

theorem not_makesImage_of_outcome {c : Call} (hc : c ∈ untilImage) (h : calls.outcome c ≠ .ok) :
    ¬ MakesImage readers calls episodeId data w :=
  fun himage => h (himage.1 c hc)

theorem triple_processFile_left {format : String} (hne : calls.imagePath ≠ calls.tempPath)
    (hreads : Reads data w format content)
    (hdone : ∀ c ∈ [Call.updateEpisodeStatus, .createTemp, .download], calls.outcome c = .ok) :
    Triple Anything (fun s => ImageLeft calls content True s ∧
        s.database = w.database.updateEpisodeStatus episodeId .processing)
      (processFile readers calls episodeId calls.tempPath format)
      (fun _ => ImageLeft calls content (ImageRemoved readers calls episodeId data w))
      (fun _ => ImageLeft calls content (ImageRemoved readers calls episodeId data w)) := by
  have huntil : ∀ c ∈ readingCalls, c ∈ untilImage := by decide
  apply triple_processFile_of_yields (w := w)
  · exact fun _ _ => trivial
  · exact fun s hs => hs.1.temp
  · exact fun s hs => hs.2
  · exact fun c hc hnot s hs => hs.1.of_not_makesImage (not_makesImage_of_outcome (huntil c hc) hnot)
  · intro hnone s hs
    apply hs.1.of_not_makesImage
    rintro ⟨-, content', result, jpeg, hreads', hyields, -⟩
    obtain ⟨rfl, rfl⟩ := hreads.unique hreads'
    exact hnone result hyields
  · intro result hcalls hyields
    have hiff : (Decodes readers calls format content → ThumbnailRemoved calls) ↔
        ImageRemoved readers calls episodeId data w := by
      refine imp_congr_left ⟨?_, ?_⟩
      · rintro ⟨rfl, hreadImage, jpeg, hjpeg⟩
        refine ⟨?_, content, result, jpeg, hreads, hyields, hjpeg⟩
        exact List.forall_mem_append.mpr ⟨List.forall_mem_append.mpr ⟨hdone, hcalls⟩,
          List.forall_mem_singleton.mpr hreadImage⟩
      · rintro ⟨houtcomes, content', result, jpeg, hreads', -, hjpeg⟩
        obtain ⟨rfl, rfl⟩ := hreads.unique hreads'
        exact ⟨rfl, houtcomes _ (by decide), jpeg, hjpeg⟩
    refine triple_bind (Q := fun _ => ImageLeft calls content (ImageRemoved readers calls episodeId data w)) ?_
      fun url => triple_updateEpisodeReady_keeps (fun s t hfiles hs => hs.of_files hfiles) _ _ _ _
    exact triple_weaken (triple_generateThumbnail_left hne) (fun _ _ h => h) (fun s hs => hs.1)
      (fun _ _ h => h.congr hiff) (fun _ _ h => h)

structure Left (readers : Readers) (calls : Calls) (episodeId : String) (data : List (String × String)) (w s : World) :
    Prop where
  temp : s.files calls.tempPath = none ↔ DownloadRemoved calls data w
  image : s.files calls.imagePath = none ↔ ImageRemoved readers calls episodeId data w

theorem FreshNames.left (hfresh : FreshNames calls w) (hfiles : s.files = w.files)
    (hremoved : DownloadRemoved calls data w) (hnot : ¬ MakesImage readers calls episodeId data w) :
    Left readers calls episodeId data w s := by
  refine ⟨iff_of_true ?_ hremoved, iff_of_true ?_ fun h => absurd h hnot⟩
  · rw [hfiles]
    exact hfresh.temp
  · rw [hfiles]
    exact hfresh.image

theorem not_makesImage_of_reads (h : ∀ format content, ¬ Reads data w format content) :
    ¬ MakesImage readers calls episodeId data w :=
  fun ⟨_, content, _, _, hreads, _⟩ => h "mcap" content hreads

theorem FreshNames.left_written (hfresh : FreshNames calls w) {bytes : List UInt8}
    (htemp : s.files = Function.update w.files calls.tempPath (some bytes)) (hleft : ¬ DownloadRemoved calls data w)
    (hnot : ¬ MakesImage readers calls episodeId data w) : Left readers calls episodeId data w s := by
  refine ⟨iff_of_false ?_ hleft, iff_of_true ?_ fun h => absurd h hnot⟩
  · rw [htemp, Function.update_self]
    exact nofun
  · rw [htemp, Function.update_of_ne hfresh.distinct]
    exact hfresh.image

structure Began (episodeId : String) (w : World) (files : String → Option (List UInt8)) (s : World) : Prop where
  files : s.files = files
  objects : s.objects = w.objects
  database : s.database = w.database.updateEpisodeStatus episodeId .processing

section Download

variable {storagePath format : String} (hfresh : FreshNames calls w)
  (hpath : data.lookup "storage_path" = some storagePath) (hformat : data.lookup "format" = some format)
  (hstatus : calls.outcome .updateEpisodeStatus = .ok)
include hfresh hpath hformat hstatus

theorem triple_createTemp_left :
    Triple Anything (Began episodeId w w.files)
      (call (calls.outcome .createTemp) (World.writeFile calls.tempPath []))
      (fun _ s => calls.outcome .createTemp = .ok ∧
        Began episodeId w (Function.update w.files calls.tempPath (some [])) s)
      (fun _ => Left readers calls episodeId data w) := by
  have hnot (hne : calls.outcome .createTemp ≠ .ok) : ¬ MakesImage readers calls episodeId data w :=
    not_makesImage_of_outcome (by decide) hne
  have hwritten {s : World} (hs : Began episodeId w w.files s) :
      Began episodeId w (Function.update w.files calls.tempPath (some [])) (s.writeFile calls.tempPath []) :=
    ⟨by rw [files_writeFile, hs.files], hs.objects, hs.database⟩
  apply triple_call
  · exact fun _ _ _ => trivial
  · exact fun s hs hok => ⟨hok, hwritten hs⟩
  · intro s e hs he
    refine hfresh.left hs.files (fun path _ _ _ heffect => ?_) (hnot (he ▸ nofun))
    rw [he] at heffect
    cases heffect
  · intro s e hs he
    refine hfresh.left_written (hwritten hs).files (fun h => ?_) (hnot (he ▸ nofun))
    have hok := (h storagePath hpath (by rw [hformat]; rfl) hstatus (by rw [he]; rfl)).1
    rw [he] at hok
    cases hok

theorem triple_downloadTemp_left :
    Triple Anything (Began episodeId w w.files) (downloadTemp calls storagePath)
      (fun path s => path = calls.tempPath ∧ ∃ content, (Reads data w format content ∧
          calls.outcome .createTemp = .ok ∧ calls.outcome .download = .ok) ∧ ImageLeft calls content True s ∧
        s.database = w.database.updateEpisodeStatus episodeId .processing)
      (fun _ => Left readers calls episodeId data w) := by
  refine triple_bind (triple_createTemp_left hfresh hpath hformat hstatus) fun _ => triple_assume fun hcreated => ?_
  have hremoved (h : DownloadRemoved calls data w) :
      calls.outcome .download = .ok ∧ (w.objects storagePath).isSome := by
    obtain ⟨-, hdownload, hobject, -⟩ :=
      h storagePath hpath (by rw [hformat]; rfl) hstatus (by rw [hcreated]; rfl)
    exact ⟨hdownload, hobject⟩
  have hquery : Triple Anything (Began episodeId w (Function.update w.files calls.tempPath (some [])))
      (query (calls.outcome .download) fun w : World => w.objects storagePath)
      (fun object s => calls.outcome .download = .ok ∧ object = s.objects storagePath ∧
        Began episodeId w (Function.update w.files calls.tempPath (some [])) s)
      (fun _ => Left readers calls episodeId data w) :=
    triple_query (fun _ _ => trivial) fun s e hs hne =>
      hfresh.left_written hs.files (fun h => hne (hremoved h).1) (not_makesImage_of_outcome (by decide) hne)
  refine triple_bind hquery fun object => triple_assume fun hdownload => ?_
  refine triple_given (A := object = w.objects storagePath) (fun s hs => hs.1.trans (by rw [hs.2.objects])) ?_
  rintro rfl
  have hobject : Triple Anything (fun s => w.objects storagePath = s.objects storagePath ∧
        Began episodeId w (Function.update w.files calls.tempPath (some [])) s)
      (require (orRaise "NoSuchKey" (w.objects storagePath)))
      (fun content s => w.objects storagePath = some content ∧
        Began episodeId w (Function.update w.files calls.tempPath (some [])) s)
      (fun _ => Left readers calls episodeId data w) := by
    apply triple_require
    · exact fun s content hs hcontent => ⟨orRaise_eq_ok.mp hcontent, hs.2⟩
    · intro s e hs he
      have hmissing : w.objects storagePath = none := by
        cases h : w.objects storagePath with
        | none => rfl
        | some content =>
          rw [h] at he
          cases he
      refine hfresh.left_written hs.2.files (fun h => ?_) (not_makesImage_of_reads fun format' content hreads => ?_)
      · have hsome := (hremoved h).2
        rw [hmissing] at hsome
        cases hsome
      · obtain ⟨path, hlookup, hcontent⟩ := hreads.content
        rw [hpath, Option.some.injEq] at hlookup
        rw [← hlookup, hmissing] at hcontent
        cases hcontent
  refine triple_bind hobject fun content => triple_assume fun hcontent => ?_
  have hwrite : Triple Anything (Began episodeId w (Function.update w.files calls.tempPath (some [])))
      (call .ok (World.writeFile calls.tempPath content))
      (fun _ s => ImageLeft calls content True s ∧
        s.database = w.database.updateEpisodeStatus episodeId .processing)
      (fun (_ : String) => Left readers calls episodeId data w) := by
    apply triple_call
    · exact fun _ _ _ => trivial
    · refine fun s hs _ => ⟨⟨Function.update_self .., iff_of_true ?_ trivial⟩, hs.database⟩
      rw [files_writeFile, hs.files, Function.update_idem, Function.update_of_ne hfresh.distinct]
      exact hfresh.image
    · exact fun s e _ he => (by cases he)
    · exact fun s e _ he => (by cases he)
  refine triple_bind hwrite fun _ => triple_pure _ fun s hs => ?_
  exact ⟨rfl, content, ⟨⟨hformat, storagePath, hpath, hcontent⟩, hcreated, hdownload⟩, hs⟩

end Download

theorem triple_unlink_left {E : String → World → Prop} (hne : calls.imagePath ≠ calls.tempPath)
    (hremoved : DownloadRemoved calls data w ↔ (calls.outcome .unlink).takesEffect) :
    Triple Anything (ImageLeft calls content (ImageRemoved readers calls episodeId data w))
      (recover (call (calls.outcome .unlink) (World.unlink calls.tempPath)) (fun _ => pure ()))
      (fun _ => Left readers calls episodeId data w) E := by
  have hunlinked {s : World} (hs : ImageLeft calls content (ImageRemoved readers calls episodeId data w) s)
      (heffect : (calls.outcome .unlink).takesEffect) :
      Left readers calls episodeId data w (s.unlink calls.tempPath) := by
    refine ⟨iff_of_true (Function.update_self ..) (hremoved.mpr heffect), ?_⟩
    rw [files_unlink, Function.update_of_ne hne]
    exact hs.image
  refine triple_recover (F := fun _ => Left readers calls episodeId data w) ?_ fun e => triple_pure _ fun _ h => h
  apply triple_call
  · exact fun _ _ _ => trivial
  · exact fun s hs hok => hunlinked hs (by rw [hok]; rfl)
  · intro s e hs he
    refine ⟨iff_of_false (by rw [hs.temp]; exact nofun) fun h => ?_, hs.image⟩
    rw [hremoved, he] at h
    cases h
  · exact fun s e hs he => hunlinked hs (by rw [he]; rfl)

theorem triple_field_left {key text : String} (hfresh : FreshNames calls w)
    (h : data.lookup key = none → DownloadRemoved calls data w ∧ ∀ format content, ¬ Reads data w format content) :
    Triple Anything (fun s => s = w) (require (orRaise text (data.lookup key)))
      (fun value s => data.lookup key = some value ∧ s = w) (fun _ => Left readers calls episodeId data w) := by
  apply triple_require
  · exact fun s value hs hvalue => ⟨orRaise_eq_ok.mp hvalue, hs⟩
  · rintro s e rfl he
    have hmissing : data.lookup key = none := by
      cases hvalue : data.lookup key with
      | none => rfl
      | some value =>
        rw [hvalue] at he
        cases he
    exact hfresh.left rfl (h hmissing).1 (not_makesImage_of_reads (h hmissing).2)

theorem triple_process_left (readers : Readers) (episodeId : String) (data : List (String × String))
    (hfresh : FreshNames calls w) :
    Triple Anything (fun s => s = w) (process readers calls episodeId data)
      (fun _ => Left readers calls episodeId data w) (fun _ => Left readers calls episodeId data w) := by
  have hstoragePath (hnone : data.lookup "storage_path" = none) :
      DownloadRemoved calls data w ∧ ∀ format content, ¬ Reads data w format content := by
    refine ⟨fun path hpath => (nomatch hnone.symm.trans hpath), fun format content hreads => ?_⟩
    obtain ⟨path, hpath, -⟩ := hreads.content
    exact nomatch hnone.symm.trans hpath
  have hformat (hnone : data.lookup "format" = none) :
      DownloadRemoved calls data w ∧ ∀ format content, ¬ Reads data w format content := by
    refine ⟨fun path _ hsome => ?_, fun format content hreads => nomatch hnone.symm.trans hreads.format⟩
    rw [hnone] at hsome
    cases hsome
  refine triple_bind (triple_field_left hfresh hstoragePath) fun storagePath => triple_assume fun hpath => ?_
  refine triple_bind (triple_field_left hfresh hformat) fun format => triple_assume fun hformat => ?_
  have hstatus : Triple Anything (fun s => s = w)
      (call (calls.outcome .updateEpisodeStatus) (World.updateEpisodeStatus episodeId .processing))
      (fun _ s => calls.outcome .updateEpisodeStatus = .ok ∧ Began episodeId w w.files s)
      (fun _ => Left readers calls episodeId data w) := by
    have hraised {s : World} (hfiles : s.files = w.files) (hne : calls.outcome .updateEpisodeStatus ≠ .ok) :
        Left readers calls episodeId data w s :=
      hfresh.left hfiles (fun _ _ _ hok => absurd hok hne) (not_makesImage_of_outcome (by decide) hne)
    apply triple_call
    · exact fun _ _ _ => trivial
    · rintro s rfl hok
      exact ⟨hok, rfl, rfl, rfl⟩
    · rintro s e rfl he
      exact hraised rfl (he ▸ nofun)
    · rintro s e rfl he
      exact hraised rfl (he ▸ nofun)
  refine triple_bind hstatus fun _ => triple_assume fun hmarked => ?_
  refine triple_bind (triple_downloadTemp_left hfresh hpath hformat hmarked) fun localPath => ?_
  refine triple_assume fun hlocal => triple_exists fun content => triple_assume fun hdownloaded => ?_
  obtain ⟨hreads, hcreated, hdownload⟩ := hdownloaded
  subst hlocal
  have hdone : ∀ c ∈ [Call.updateEpisodeStatus, .createTemp, .download], calls.outcome c = .ok := by
    simp only [List.mem_cons, List.not_mem_nil, or_false, forall_eq_or_imp, forall_eq]
    exact ⟨hmarked, hcreated, hdownload⟩
  have hremoved : DownloadRemoved calls data w ↔ (calls.outcome .unlink).takesEffect := by
    refine ⟨fun h => ?_, fun h path hlookup _ _ _ => ⟨hcreated, hdownload, ?_, h⟩⟩
    · exact (h storagePath hpath (by rw [hformat]; rfl) hmarked (by rw [hcreated]; rfl)).2.2.2
    · obtain ⟨path', hlookup', hcontent⟩ := hreads.content
      rw [hlookup, Option.some.injEq] at hlookup'
      rw [hlookup', hcontent]
      rfl
  refine triple_ensure (triple_processFile_left hfresh.distinct hreads hdone) (fun _ => ?_) (fun e => ?_)
  · exact triple_unlink_left hfresh.distinct hremoved
  · exact triple_unlink_left hfresh.distinct hremoved

end Process

theorem no_temp_file_left (readers : Readers) (calls : Calls) (episodeId : String) (data : List (String × String))
    (w : World) (past : List World) (hfresh : FreshNames calls w) :
    NoTempFile calls (answer (process readers calls episodeId data) ⟨w, past⟩).2.current ↔
      DownloadRemoved calls data w ∧ ImageRemoved readers calls episodeId data w := by
  have hanswered := triple_process_left readers episodeId data hfresh ⟨w, past⟩ rfl
  have hleft : Left readers calls episodeId data w
      (answer (process readers calls episodeId data) ⟨w, past⟩).2.current := by
    cases hr : (answer (process readers calls episodeId data) ⟨w, past⟩).1 with
    | ok u => exact hanswered.returned u hr
    | error e => exact hanswered.raised e hr
  exact and_congr hleft.temp hleft.image

def imageReaders : Readers := { flatReaders [cameraTopic] with firstImage := fun _ => .ok (some [255, 216]) }

def failingCalls (c : Call) : Calls :=
  { workingCalls fun _ => "t-1" with outcome := fun c' => if c' = c then .raises "ClientError" else .ok }

theorem freshNames_uploadedWorld (c : Call) : FreshNames (failingCalls c) uploadedWorld := by
  refine ⟨?_, rfl, rfl⟩
  change "/tmp/b.jpg" ≠ "/tmp/a.mcap"
  decide

theorem no_temp_file_left_commitFails :
    NoTempFile (failingCalls .commitReady)
      (answer (process imageReaders (failingCalls .commitReady) "ep-1" uploadedEvent) ⟨uploadedWorld, []⟩).2.current :=
  (no_temp_file_left imageReaders (failingCalls .commitReady) "ep-1" uploadedEvent uploadedWorld []
    (freshNames_uploadedWorld .commitReady)).mpr
      ⟨fun path hpath _ _ _ => ⟨rfl, rfl, by cases hpath; rfl, rfl⟩, fun _ _ => ⟨rfl, rfl, rfl, rfl⟩⟩

theorem failing_download_leaves_file : FreshNames (failingCalls .download) uploadedWorld ∧
    ¬ NoTempFile (failingCalls .download)
      (answer (process imageReaders (failingCalls .download) "ep-1" uploadedEvent) ⟨uploadedWorld, []⟩).2.current ∧
    ¬ NoTempFile (failingCalls .uploadThumbnail)
      (answer (process imageReaders (failingCalls .uploadThumbnail) "ep-1" uploadedEvent)
        ⟨uploadedWorld, []⟩).2.current := by
  refine ⟨freshNames_uploadedWorld .download, fun h => ?_, fun h => ?_⟩
  · have hleft : (answer (process imageReaders (failingCalls .download) "ep-1" uploadedEvent)
        ⟨uploadedWorld, []⟩).2.current.files "/tmp/a.mcap" = some [] := rfl
    exact nomatch hleft.symm.trans h.1
  · have hleft : (answer (process imageReaders (failingCalls .uploadThumbnail) "ep-1" uploadedEvent)
        ⟨uploadedWorld, []⟩).2.current.files "/tmp/b.jpg" = some [255, 216] := rfl
    exact nomatch hleft.symm.trans h.2

end Embedai.Pipeline
