import Embedai.FrameExtractor

namespace Embedai.FrameExtractor

open Mcap NearestSearch

variable {Img : Type} (typestore : Typestore) (cv2 : Imaging Img)

/-- What passes the two tests at the start of the loop body; a message without a schema does, too. -/
def Candidate (topic : String) (e : Entry) : Prop :=
  e.channel.topic = topic ∧ ∀ schema ∈ e.schema, schema.name ∈ imageTypes

instance (topic : String) (e : Entry) : Decidable (Candidate topic e) :=
  inferInstanceAs (Decidable (_ ∧ ∀ schema ∈ e.schema, _))

def candidates (file : File) (topic : String) : List Entry := file.messages.filter (Candidate topic ·)

def Listed (file : File) (topic : String) : Prop := (findTopic file topic).1.isSome ∧ (findTopic file topic).2.isSome

instance (file : File) (topic : String) : Decidable (Listed file topic) := inferInstanceAs (Decidable (_ ∧ _))

abbrev FrameBest := Best Entry (Option (List UInt8))

def loopOf (absoluteTargetNs : ℤ) (b : FrameBest) : Loop where
  bestFrame := b.value.join
  bestTimestamp := b.nearest.map (fun e => e.message.logTime)
  minDiff := b.nearest.map (timeDiff absoluteTargetNs)

def frameOf (b : FrameBest) : Option FrameResult :=
  b.value.join.bind fun data => b.nearest.map fun e => ⟨data, e.message.logTime, "jpeg"⟩

def findNearest (absoluteTargetNs maxTimeDiffNs : ℤ) (l : List Entry) : FrameBest :=
  search (timeDiff absoluteTargetNs) maxTimeDiffNs (readImage typestore cv2) ⟨none, none⟩ l

variable {typestore cv2} {file : File} {topic : String} {absoluteTargetNs maxTimeDiffNs : ℤ}

theorem visit_skip {e : Entry} {s : Loop} (h : ¬ Candidate topic e) :
    visit typestore cv2 topic absoluteTargetNs maxTimeDiffNs e s = .yield s := by
  rw [visit]
  by_cases htopic : e.channel.topic = topic
  · have hschema : ∃ schema ∈ e.schema, schema.name ∉ imageTypes := by
      by_contra hnot
      apply h ⟨htopic, fun schema hs => ?_⟩
      by_contra hname
      exact hnot ⟨schema, hs, hname⟩
    rw [if_neg (not_not.mpr htopic), if_pos hschema]
  · rw [if_pos htopic]

theorem improves_loopOf {b : FrameBest} {e : Entry} :
    (∀ d ∈ (loopOf absoluteTargetNs b).minDiff, timeDiff absoluteTargetNs e < d) ↔
      b.Improves (timeDiff absoluteTargetNs) e := by
  simp [loopOf, Best.Improves]

theorem earlyExit_loopOf (b : FrameBest) :
    earlyExit maxTimeDiffNs (loopOf absoluteTargetNs b) =
      if b.Within (timeDiff absoluteTargetNs) maxTimeDiffNs then .done (loopOf absoluteTargetNs b)
      else .yield (loopOf absoluteTargetNs b) := by
  simp [earlyExit, loopOf, Best.Within]

theorem visit_candidate {e : Entry} {b : FrameBest} (h : Candidate topic e) :
    visit typestore cv2 topic absoluteTargetNs maxTimeDiffNs e (loopOf absoluteTargetNs b) =
      if b.Ends (timeDiff absoluteTargetNs) maxTimeDiffNs (readImage typestore cv2) e then
        .done (loopOf absoluteTargetNs (b.take (timeDiff absoluteTargetNs) (readImage typestore cv2) e))
      else .yield (loopOf absoluteTargetNs (b.take (timeDiff absoluteTargetNs) (readImage typestore cv2) e)) := by
  have hschema : ¬ ∃ schema ∈ e.schema, schema.name ∉ imageTypes := by
    rintro ⟨schema, hs, hname⟩
    exact hname (h.2 schema hs)
  rw [visit, if_neg (not_not.mpr h.1), if_neg hschema]
  by_cases himproves : b.Improves (timeDiff absoluteTargetNs) e
  · simp only [ends_iff_of_improves himproves, take_of_improves himproves]
    rw [if_pos (improves_loopOf.mpr himproves)]
    cases hread : readImage typestore cv2 e with
    | none => simp [loopOf]
    | some frame => simp [loopOf, earlyExit]
  · simp only [ends_iff_of_not himproves, take_of_not himproves]
    rw [if_neg (mt improves_loopOf.mp himproves), earlyExit_loopOf]

theorem extractLoop_eq (messages : List Entry) (b : FrameBest) :
    extractLoop typestore cv2 topic absoluteTargetNs maxTimeDiffNs messages (loopOf absoluteTargetNs b) =
      loopOf absoluteTargetNs (search (timeDiff absoluteTargetNs) maxTimeDiffNs (readImage typestore cv2) b
        (messages.filter (Candidate topic ·))) := by
  induction messages generalizing b with
  | nil => rfl
  | cons e messages ih =>
    rw [extractLoop, List.forIn_cons]
    by_cases h : Candidate topic e
    · rw [visit_candidate h, List.filter_cons_of_pos (by simpa using h), search]
      split_ifs with hends
      · rfl
      · exact ih _
    · rw [visit_skip h, List.filter_cons_of_neg (by simpa using h)]
      exact ih b

theorem frameOf_loopOf (b : FrameBest) :
    (match (loopOf absoluteTargetNs b).bestFrame, (loopOf absoluteTargetNs b).bestTimestamp with
      | some data, some timestamp => some (⟨data, timestamp, "jpeg"⟩ : FrameResult)
      | _, _ => none) = frameOf b := by
  rw [loopOf, frameOf]
  cases b.value.join <;> cases b.nearest <;> rfl

theorem extractFrame_eq (targetTimestampNs timeOffsetNs : ℤ) :
    extractFrame typestore cv2 file topic targetTimestampNs maxTimeDiffNs timeOffsetNs =
      if Listed file topic then
        frameOf (findNearest typestore cv2 (clamp (getTimeRange file) (targetTimestampNs + timeOffsetNs))
          maxTimeDiffNs (candidates file topic))
      else none := by
  by_cases hlisted : Listed file topic
  · obtain ⟨channel, hchannel⟩ := Option.isSome_iff_exists.mp hlisted.1
    obtain ⟨schema, hschema⟩ := Option.isSome_iff_exists.mp hlisted.2
    have hfind : findTopic file topic = (some channel, some schema) := Prod.ext hchannel hschema
    have hloop (t : ℤ) : extractLoop typestore cv2 topic t maxTimeDiffNs file.messages ⟨none, none, none⟩ =
        loopOf t (findNearest typestore cv2 t maxTimeDiffNs (candidates file topic)) :=
      extractLoop_eq file.messages ⟨none, none⟩
    rw [if_pos hlisted]
    simp only [extractFrame, hfind, hloop]
    exact frameOf_loopOf _
  · rw [if_neg hlisted, extractFrame]
    rcases hfind : findTopic file topic with ⟨channel, schema⟩
    rw [Listed, hfind] at hlisted
    cases channel with
    | none => rfl
    | some channel =>
      cases schema with
      | none => rfl
      | some schema => exact absurd ⟨rfl, rfl⟩ hlisted

def intoRange (timeRange : Option (ℕ × ℕ)) (t : ℤ) : ℤ :=
  match timeRange with
  | none => t
  | some (startTime, endTime) => max startTime (min t endTime)

theorem clamp_eq {timeRange : Option (ℕ × ℕ)} {t : ℤ} (h : ∀ range ∈ timeRange, range.1 ≤ range.2) :
    clamp timeRange t = intoRange timeRange t := by
  cases timeRange with
  | none => rfl
  | some range =>
    have hle := h range rfl
    simp only [clamp, intoRange]
    split_ifs <;> omega

def imageMessages (file : File) (topic : String) : List Entry :=
  file.messages.filter fun e => e.channel.topic = topic ∧ ∃ schema ∈ e.schema, schema.name ∈ imageTypes

theorem candidates_eq (h : ∀ e ∈ file.messages, e.channel.topic = topic → e.schema.isSome) :
    candidates file topic = imageMessages file topic := by
  apply List.filter_congr
  intro e he
  rw [decide_eq_decide]
  apply and_congr_right
  intro htopic
  obtain ⟨schema, hschema⟩ := Option.isSome_iff_exists.mp (h e he htopic)
  simp [hschema]

def Decodes (typestore : Typestore) (cv2 : Imaging Img) (file : File) (topic : String) : Prop :=
  ∀ e ∈ imageMessages file topic, ∃ data, readImage typestore cv2 e = some (some data)

theorem findNearest_of_decodes {l : List Entry}
    (h : ∀ e ∈ l, ∃ data, readImage typestore cv2 e = some (some data)) :
    frameOf (findNearest typestore cv2 absoluteTargetNs maxTimeDiffNs l) =
      (answer (timeDiff absoluteTargetNs) maxTimeDiffNs l).bind fun e =>
        (readImage typestore cv2 e).join.map fun data => ⟨data, e.message.logTime, "jpeg"⟩ := by
  rw [findNearest, search_of_readable, frameOf]
  · cases hanswer : answer (timeDiff absoluteTargetNs) maxTimeDiffNs l with
    | none => rfl
    | some e =>
      obtain ⟨data, hdata⟩ := h e (answer_mem hanswer)
      simp [hdata]
  · intro e he
    obtain ⟨data, hdata⟩ := h e he
    simp [hdata]

theorem extractFrame_of_decodes (hrange : ∀ range ∈ getTimeRange file, range.1 ≤ range.2) (hlisted : Listed file topic)
    (hschema : ∀ e ∈ file.messages, e.channel.topic = topic → e.schema.isSome)
    (hdecodes : Decodes typestore cv2 file topic) (targetTimestampNs maxTimeDiffNs timeOffsetNs : ℤ) :
    extractFrame typestore cv2 file topic targetTimestampNs maxTimeDiffNs timeOffsetNs =
      (answer (timeDiff (intoRange (getTimeRange file) (targetTimestampNs + timeOffsetNs))) maxTimeDiffNs
        (imageMessages file topic)).bind fun e =>
          (readImage typestore cv2 e).join.map fun data => ⟨data, e.message.logTime, "jpeg"⟩ := by
  rw [extractFrame_eq, if_pos hlisted, clamp_eq hrange, candidates_eq hschema, findNearest_of_decodes hdecodes]

/-- ROS 1 compressed images with an empty header, an empty format and fewer than 256 bytes of data. -/
def readCompressedImage (data : List UInt8) (type : String) : Except String RosMessage :=
  match data.drop 20 with
  | n :: 0 :: 0 :: 0 :: image =>
    if type = "sensor_msgs/msg/CompressedImage" ∧ data.take 20 = List.replicate 20 0 ∧ n.toNat = image.length then
      .ok ⟨none, none, none, some (.array (.ok image))⟩
    else .error "AssertionError"
  | _ => .error "AssertionError"

def compressedStore : Typestore := ⟨readCompressedImage, fun _ _ => .error "AssertionError"⟩

def withoutCv2 : Imaging Unit where
  importCv2 := .error "No module named 'cv2'"
  frombuffer _ := .ok ()
  reshape _ _ := .ok ()
  cvtColorRgbToBgr _ := .ok ()
  imencode _ _ := .ok (false, ())
  tobytes _ := .ok []

def cameraChannel : Channel := ⟨"/camera/image", "ros1", 1⟩

def cameraSchema : Schema := ⟨"sensor_msgs/CompressedImage"⟩

def cameraMessage (logTime : ℕ) (image : List UInt8) : Entry :=
  ⟨some cameraSchema, cameraChannel, ⟨logTime, List.replicate 20 0 ++ [UInt8.ofNat image.length, 0, 0, 0] ++ image⟩⟩

def cameraFile (messages : List Entry) : File where
  summary := some
    { statistics := some ⟨0, 100000000, OrderedDict.empty⟩
      channels := OrderedDict.single 1 cameraChannel
      schemas := OrderedDict.single 1 cameraSchema }
  messages := messages

def twoFrames : File := cameraFile [cameraMessage 0 [1], cameraMessage 50000000 [2]]

theorem twoFrames_range : ∀ range ∈ getTimeRange twoFrames, range.1 ≤ range.2 := by
  intro range h
  cases h
  decide

theorem twoFrames_schema : ∀ e ∈ twoFrames.messages, e.channel.topic = "/camera/image" → e.schema.isSome := by
  simp [twoFrames, cameraFile, cameraMessage]

theorem twoFrames_decodes : Decodes compressedStore withoutCv2 twoFrames "/camera/image" := by
  intro e he
  rcases List.mem_cons.mp (List.mem_of_mem_filter he) with rfl | he
  · exact ⟨[1], rfl⟩
  · rw [List.mem_singleton.mp he]
    exact ⟨[2], rfl⟩

theorem extractFrame_of_decodes_twoFrames :
    extractFrame compressedStore withoutCv2 twoFrames "/camera/image" 50000000 100000000 0 =
      (answer (timeDiff (intoRange (getTimeRange twoFrames) (50000000 + 0))) 100000000
        (imageMessages twoFrames "/camera/image")).bind fun e =>
          (readImage compressedStore withoutCv2 e).join.map fun data => ⟨data, e.message.logTime, "jpeg"⟩ :=
  extractFrame_of_decodes twoFrames_range (by decide) twoFrames_schema twoFrames_decodes 50000000 100000000 0

theorem intoRange_mono (timeRange : Option (ℕ × ℕ)) {t₁ t₂ : ℤ} (h : t₁ ≤ t₂) :
    intoRange timeRange t₁ ≤ intoRange timeRange t₂ := by
  cases timeRange with
  | none => exact h
  | some range => exact max_le_max le_rfl (min_le_min h le_rfl)

theorem listed_of_frame {t o : ℤ} {frame : FrameResult}
    (h : extractFrame typestore cv2 file topic t maxTimeDiffNs o = some frame) : Listed file topic := by
  by_contra hnot
  rw [extractFrame_eq, if_neg hnot] at h
  cases h

theorem mem_before_of_lt {before after : List Entry} {a b : Entry}
    (hsorted : (before ++ a :: after).Pairwise (fun e f => e.message.logTime ≤ f.message.logTime))
    (hb : b ∈ before ++ a :: after) (hlt : b.message.logTime < a.message.logTime) : b ∈ before := by
  rw [List.pairwise_append, List.pairwise_cons] at hsorted
  rcases List.mem_append.mp hb with hb | hb
  · exact hb
  · rcases List.mem_cons.mp hb with rfl | hb
    · omega
    · have hle := hsorted.2.1.1 b hb
      omega

theorem mem_after_of_lt {before after : List Entry} {a b : Entry}
    (hsorted : (before ++ a :: after).Pairwise (fun e f => e.message.logTime ≤ f.message.logTime))
    (hb : b ∈ before ++ a :: after) (hlt : a.message.logTime < b.message.logTime) : b ∈ after := by
  rw [List.pairwise_append] at hsorted
  rcases List.mem_append.mp hb with hb | hb
  · have hle := hsorted.2.2 b hb a (List.mem_cons_self ..)
    omega
  · rcases List.mem_cons.mp hb with rfl | hb
    · omega
    · exact hb

theorem answer_mono {l : List Entry} (hsorted : l.Pairwise (fun e f => e.message.logTime ≤ f.message.logTime))
    {t₁ t₂ : ℤ} (ht : t₁ ≤ t₂) {e₁ e₂ : Entry} (h₁ : answer (timeDiff t₁) maxTimeDiffNs l = some e₁)
    (h₂ : answer (timeDiff t₂) maxTimeDiffNs l = some e₂) : e₁.message.logTime ≤ e₂.message.logTime := by
  by_contra hlt
  have hlt : e₂.message.logTime < e₁.message.logTime := by omega
  have hmem₁ := answer_mem h₁
  have hmem₂ := answer_mem h₂
  -- The first answer has passed over the second, which is too early for it and hence for the later target.
  obtain ⟨before₁, after₁, hl₁, hpassed, -⟩ := answer_split h₁
  have hnearer := hpassed e₂ (mem_before_of_lt (hl₁ ▸ hsorted) (hl₁ ▸ hmem₂) hlt)
  obtain ⟨before₂, after₂, hl₂, -, hchosen⟩ := answer_split h₂
  have hbest : timeDiff t₂ e₂ < maxTimeDiffNs ∨ timeDiff t₂ e₂ ≤ timeDiff t₂ e₁ :=
    hchosen.imp_right fun h => h.2 e₁ (mem_after_of_lt (hl₂ ▸ hsorted) (hl₂ ▸ hmem₁) hlt)
  simp only [timeDiff, abs_eq_max_neg] at hnearer hbest
  omega

theorem extractFrame_mono (hsorted : file.messages.Pairwise (fun e f => e.message.logTime ≤ f.message.logTime))
    (hrange : ∀ range ∈ getTimeRange file, range.1 ≤ range.2)
    (hschema : ∀ e ∈ file.messages, e.channel.topic = topic → e.schema.isSome)
    (hdecodes : Decodes typestore cv2 file topic) (maxTimeDiffNs timeOffsetNs t₁ t₂ : ℤ) (ht : t₁ ≤ t₂)
    (frame₁ frame₂ : FrameResult)
    (h₁ : extractFrame typestore cv2 file topic t₁ maxTimeDiffNs timeOffsetNs = some frame₁)
    (h₂ : extractFrame typestore cv2 file topic t₂ maxTimeDiffNs timeOffsetNs = some frame₂) :
    frame₁.timestampNs ≤ frame₂.timestampNs := by
  have hlisted := listed_of_frame h₁
  rw [extractFrame_eq, if_pos hlisted, clamp_eq hrange, candidates_eq hschema, findNearest_of_decodes hdecodes]
    at h₁ h₂
  obtain ⟨e₁, he₁, hframe₁⟩ := Option.bind_eq_some_iff.mp h₁
  obtain ⟨e₂, he₂, hframe₂⟩ := Option.bind_eq_some_iff.mp h₂
  obtain ⟨data₁, -, rfl⟩ := Option.map_eq_some_iff.mp hframe₁
  obtain ⟨data₂, -, rfl⟩ := Option.map_eq_some_iff.mp hframe₂
  exact answer_mono (hsorted.filter _) (intoRange_mono _ (by omega)) he₁ he₂

theorem extractFrame_mono_twoFrames :
    ∃ frame₁ frame₂ : FrameResult,
      extractFrame compressedStore withoutCv2 twoFrames "/camera/image" 0 10000000 0 = some frame₁ ∧
      extractFrame compressedStore withoutCv2 twoFrames "/camera/image" 45000000 10000000 0 = some frame₂ ∧
      frame₁.timestampNs ≤ frame₂.timestampNs := by
  refine ⟨⟨[1], 0, "jpeg"⟩, ⟨[2], 50000000, "jpeg"⟩, rfl, rfl, ?_⟩
  apply extractFrame_mono _ twoFrames_range twoFrames_schema twoFrames_decodes 10000000 0 0 45000000 (by decide) _ _
    rfl rfl
  exact .cons (by simp [cameraMessage]) (.cons (by simp) .nil)

end Embedai.FrameExtractor
