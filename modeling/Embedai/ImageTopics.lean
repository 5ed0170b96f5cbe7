import Embedai.DatasetReads
import Embedai.EpisodeProcessor
import Embedai.FrameSearch

namespace Embedai.ImageTopics

open DatasetReads (Topic TopicOut topicOut)
open FrameExtractor (Candidate imageTypes includes)
open Mcap Pipeline

def topicTypeMap : List (String × String) :=
  [("sensor_msgs/msg/Image", "image"),
    ("sensor_msgs/msg/CompressedImage", "image"),
    ("sensor_msgs/msg/PointCloud2", "pointcloud"),
    ("sensor_msgs/msg/Imu", "imu"),
    ("geometry_msgs/msg/WrenchStamped", "force"),
    ("sensor_msgs/msg/JointState", "joint_state")]

def inferType (schemaName : String) : String := (topicTypeMap.lookup schemaName).getD "other"

structure TopicStats where
  schemaName : String
  messageCount : ℕ

def schemaName (summary : Summary) (channel : Channel) : String :=
  ((summary.schemaOf channel).map Schema.name).getD ""

def topicStats (summary : Option Summary) : OrderedDict String TopicStats :=
  match summary with
  | none => OrderedDict.empty
  | some summary =>
    match summary.statistics with
    | none => OrderedDict.empty
    | some statistics => summary.channels.items.foldl (fun d c => d.set c.2.topic
        ⟨schemaName summary c.2, (statistics.channelMessageCounts.get? c.1).getD 0⟩) OrderedDict.empty

section Extract

-- `(end_ns - start_ns) / 1e9` and `round(message_count / duration, 2)`, in floating point.
variable (seconds : ℤ → ℚ) (frequency : ℕ → ℚ → ℚ)

def durationSeconds (summary : Option Summary) : ℚ :=
  match summary.bind Summary.statistics with
  | none => 0
  | some statistics => seconds (statistics.messageEndTime - statistics.messageStartTime)

def topicMeta (durationSeconds : ℚ) (t : String × TopicStats) : TopicMeta where
  name := t.1
  type := inferType t.2.schemaName
  messageCount := t.2.messageCount
  frequencyHz := frequency t.2.messageCount (if 0 < durationSeconds then durationSeconds else 1)
  startTimeOffset := 0
  endTimeOffset := durationSeconds
  schemaName := t.2.schemaName

def extract (summary : Option Summary) : EpisodeMeta where
  format := "mcap"
  durationSeconds := durationSeconds seconds summary
  topics := (topicStats summary).items.map (topicMeta frequency (durationSeconds seconds summary))

end Extract

/-- The row that the pipeline inserts, as the dataset service reads it. -/
def topicRow (episodeId : Uuid) (t : TopicMeta) : Topic where
  episodeId := episodeId
  name := t.name
  type := some t.type
  startTimeOffset := some t.startTimeOffset
  endTimeOffset := some t.endTimeOffset
  messageCount := some t.messageCount
  frequencyHz := some t.frequencyHz
  schemaName := some t.schemaName

def servedTopics (episodeId : Uuid) (rowId : ℕ → Uuid) (topics : List TopicMeta) : List TopicOut :=
  topics.zipIdx.map fun p => topicOut (rowId p.2, topicRow episodeId p.1)

/-- The condition of the filter of `getImageTopics` in `PreviewPage.tsx`. -/
def previewed (t : TopicOut) : Bool :=
  t.type = some "image" || t.schemaName.any (includes · "Image") || includes t.name "camera" || includes t.name "image"

def getImageTopics (topics : Option (List TopicOut)) : List String :=
  match topics with
  | none => []
  | some topics => (topics.filter previewed).map TopicOut.name

def Stores (seconds : ℤ → ℚ) (frequency : ℕ → ℚ → ℚ) (summary : Option Summary) (topic type : String) : Prop :=
  ∃ m ∈ (extract seconds frequency summary).topics, m.name = topic ∧ m.type = type

def Offers (seconds : ℤ → ℚ) (frequency : ℕ → ℚ → ℚ) (summary : Option Summary) (topic : String) : Prop :=
  ∀ episodeId rowId,
    topic ∈ getImageTopics (some (servedTopics episodeId rowId (extract seconds frequency summary).topics))

/-- The loop of `extract_frame` does not skip the messages of the topic for their schema. -/
def TreatedAsImages (topic schemaName : String) : Prop :=
  ∀ e : Entry, e.channel.topic = topic → e.schema = some ⟨schemaName⟩ → Candidate topic e

theorem treatedAsImages_iff {topic schemaName : String} :
    TreatedAsImages topic schemaName ↔ schemaName ∈ imageTypes := by
  constructor
  · intro h
    exact (h ⟨some ⟨schemaName⟩, ⟨topic, "cdr", 1⟩, ⟨0, []⟩⟩ rfl rfl).2 _ rfl
  · intro h e htopic hschema
    refine ⟨htopic, ?_⟩
    intro schema hs
    rw [hschema] at hs
    cases hs
    exact h

theorem inferType_image {schemaName : String} :
    inferType schemaName = "image" ↔
      schemaName = "sensor_msgs/msg/Image" ∨ schemaName = "sensor_msgs/msg/CompressedImage" := by
  constructor
  · intro h
    have hlookup : topicTypeMap.lookup schemaName = some "image" := by
      rw [inferType] at h
      cases hentry : topicTypeMap.lookup schemaName with
      | none =>
        rw [hentry] at h
        exact absurd h (by decide)
      | some type =>
        rw [hentry] at h
        exact congrArg some h
    obtain ⟨before, after, hmap, -⟩ := List.lookup_eq_some_iff.mp hlookup
    have hmem : (schemaName, "image") ∈ topicTypeMap := by simp [hmap]
    simpa [topicTypeMap] using hmem
  · rintro (rfl | rfl) <;> rfl

theorem image_of_mem {schemaName : String} (h : schemaName ∈ imageTypes) : includes schemaName "Image" := by
  simp only [imageTypes, List.mem_cons, List.not_mem_nil, or_false] at h
  rcases h with rfl | rfl | rfl | rfl <;> rfl

theorem inferType_image_iff {schemaName : String} :
    inferType schemaName = "image" ↔ schemaName ∈ imageTypes ∧ includes schemaName "/msg/" := by
  rw [inferType_image]
  constructor
  · rintro (rfl | rfl)
    · exact ⟨by decide, rfl⟩
    · exact ⟨by decide, rfl⟩
  · rintro ⟨hmem, hros2⟩
    simp only [imageTypes, List.mem_cons, List.not_mem_nil, or_false] at hmem
    rcases hmem with rfl | rfl | rfl | rfl
    · exact .inl rfl
    · exact .inr rfl
    · exact absurd hros2 (by decide)
    · exact absurd hros2 (by decide)

/-- The loop is reached where the first channel of the topic has a schema, and then has the messages of the topic that
are treated as images; elsewhere there is no frame. -/
theorem extractFrame_eq_of_summary {Img : Type} {typestore : FrameExtractor.Typestore}
    {cv2 : FrameExtractor.Imaging Img} {file : File} {summary : Summary} (h : file.summary = some summary)
    (topic : String) (targetTimestampNs maxTimeDiffNs timeOffsetNs : ℤ) :
    FrameExtractor.extractFrame typestore cv2 file topic targetTimestampNs maxTimeDiffNs timeOffsetNs =
      if (summary.channels.values.find? (fun channel => channel.topic = topic)).any
          (fun channel => (summary.schemaOf channel).isSome) then
        FrameExtractor.frameOf (FrameExtractor.findNearest typestore cv2
          (FrameExtractor.clamp (FrameExtractor.getTimeRange file) (targetTimestampNs + timeOffsetNs)) maxTimeDiffNs
          (FrameExtractor.candidates file topic))
      else none := by
  rw [FrameExtractor.extractFrame_eq]
  refine if_congr ?_ rfl rfl
  rw [FrameExtractor.Listed, FrameExtractor.findTopic, h]
  dsimp only
  cases summary.channels.values.find? (fun channel => channel.topic = topic) with
  | none => simp
  | some channel => simp

theorem exists_imageTopic_iff {file : File} {summary : Summary} (h : file.summary = some summary)
    {topic schemaName : String} :
    (∃ t ∈ FrameExtractor.getImageTopics file, t.name = topic ∧ t.schemaName = schemaName) ↔
      ∃ channel ∈ summary.channels.values, channel.topic = topic ∧ summary.schemaOf channel = some ⟨schemaName⟩ ∧
        TreatedAsImages topic schemaName := by
  simp only [FrameExtractor.getImageTopics, h, List.mem_filterMap, treatedAsImages_iff]
  constructor
  · rintro ⟨_, ⟨channel, hchannel, ht⟩, rfl, rfl⟩
    obtain ⟨schema, hschema, ht⟩ := Option.bind_eq_some_iff.mp ht
    split_ifs at ht with himage
    cases ht
    exact ⟨channel, hchannel, rfl, hschema, himage⟩
  · rintro ⟨channel, hchannel, rfl, hschema, himage⟩
    refine ⟨FrameExtractor.imageTopic channel ⟨schemaName⟩, ⟨channel, hchannel, ?_⟩, rfl, rfl⟩
    rw [hschema]
    exact if_pos himage

variable {seconds : ℤ → ℚ} {frequency : ℕ → ℚ → ℚ}

theorem topicStats_get? {summary : Summary} {statistics : Statistics} (h : summary.statistics = some statistics)
    {topic : String} {channel : Channel}
    (hlast : (summary.channels.values.filter fun c => c.topic = topic).getLast? = some channel) :
    ∃ t, (topicStats (some summary)).get? topic = some t ∧ t.schemaName = schemaName summary channel := by
  rw [OrderedDict.values, List.filter_map, List.getLast?_map] at hlast
  obtain ⟨c, hc, rfl⟩ := Option.map_eq_some_iff.mp hlast
  have hentry : (summary.channels.items.filter fun c => c.2.topic = topic).getLast? = some c := hc
  simp only [topicStats, h]
  rw [OrderedDict.get?_foldl_set (fun c : ℕ × Channel => c.2.topic), hentry]
  exact ⟨_, rfl, rfl⟩

variable (seconds frequency) in
theorem mem_extract {summary : Option Summary} {topic : String} {t : TopicStats}
    (h : (topicStats summary).get? topic = some t) (m : TopicMeta) :
    m ∈ (extract seconds frequency summary).topics ∧ m.name = topic ↔
      m = topicMeta frequency (durationSeconds seconds summary) (topic, t) := by
  constructor
  · rintro ⟨hmem, rfl⟩
    obtain ⟨⟨name, t'⟩, hitem, rfl⟩ := List.mem_map.mp hmem
    rw [OrderedDict.mem_items] at hitem
    rw [show (topicMeta frequency (durationSeconds seconds summary) (name, t')).name = name from rfl, hitem] at h
    cases h
    rfl
  · rintro rfl
    exact ⟨List.mem_map_of_mem (OrderedDict.mem_items.mpr h), rfl⟩

theorem mem_getImageTopics {episodeId : Uuid} {rowId : ℕ → Uuid} {topics : List TopicMeta} {topic : String} :
    topic ∈ getImageTopics (some (servedTopics episodeId rowId topics)) ↔
      ∃ m ∈ topics, m.name = topic ∧ (m.type = "image" ∨ includes m.schemaName "Image" ∨ includes topic "camera" ∨
        includes topic "image") := by
  simp only [getImageTopics, List.mem_map, List.mem_filter, servedTopics]
  constructor
  · rintro ⟨_, ⟨⟨p, hp, rfl⟩, hpreviewed⟩, rfl⟩
    refine ⟨p.1, List.fst_mem_of_mem_zipIdx hp, rfl, ?_⟩
    simpa [previewed, topicOut, topicRow, or_assoc] using hpreviewed
  · rintro ⟨m, hm, rfl, hpreviewed⟩
    obtain ⟨i, hi⟩ := List.mem_iff_getElem?.mp hm
    refine ⟨_, ⟨⟨(m, i), List.mk_mem_zipIdx_iff_getElem?.mpr hi, rfl⟩, ?_⟩, rfl⟩
    simpa [previewed, topicOut, topicRow, or_assoc] using hpreviewed

theorem stores_iff {summary : Option Summary} {topic type : String} {t : TopicStats}
    (h : (topicStats summary).get? topic = some t) :
    Stores seconds frequency summary topic type ↔ inferType t.schemaName = type := by
  constructor
  · rintro ⟨m, hm, hname, htype⟩
    rw [(mem_extract seconds frequency h m).mp ⟨hm, hname⟩] at htype
    exact htype
  · rintro rfl
    obtain ⟨hm, hname⟩ := (mem_extract seconds frequency h _).mpr rfl
    exact ⟨_, hm, hname, rfl⟩

theorem offers_iff {summary : Option Summary} {topic : String} {t : TopicStats}
    (h : (topicStats summary).get? topic = some t) :
    Offers seconds frequency summary topic ↔
      inferType t.schemaName = "image" ∨ includes t.schemaName "Image" ∨ includes topic "camera" ∨
        includes topic "image" := by
  simp only [Offers, mem_getImageTopics]
  constructor
  · intro hoffers
    obtain ⟨m, hm, hname, hpreviewed⟩ := hoffers ⟨0⟩ fun _ => ⟨0⟩
    rw [(mem_extract seconds frequency h m).mp ⟨hm, hname⟩] at hpreviewed
    exact hpreviewed
  · intro hpreviewed _ _
    obtain ⟨hm, hname⟩ := (mem_extract seconds frequency h _).mpr rfl
    exact ⟨_, hm, hname, hpreviewed⟩

theorem image_topics (seconds : ℤ → ℚ) (frequency : ℕ → ℚ → ℚ) (summary : Summary) (statistics : Statistics)
    (hstatistics : summary.statistics = some statistics) (topic : String) (channel : Channel)
    (hlast : (summary.channels.values.filter fun c => c.topic = topic).getLast? = some channel) :
    (Stores seconds frequency (some summary) topic "image" →
      TreatedAsImages topic (schemaName summary channel)) ∧
    (includes (schemaName summary channel) "/msg/" →
      (Stores seconds frequency (some summary) topic "image" ↔ TreatedAsImages topic (schemaName summary channel))) ∧
    (Offers seconds frequency (some summary) topic ↔ TreatedAsImages topic (schemaName summary channel) ∨
      includes (schemaName summary channel) "Image" ∨ includes topic "camera" ∨ includes topic "image") := by
  obtain ⟨t, hget, hschema⟩ := topicStats_get? hstatistics hlast
  rw [stores_iff hget, offers_iff hget, treatedAsImages_iff, hschema]
  refine ⟨?_, ?_, ?_⟩
  · exact fun h => (inferType_image_iff.mp h).1
  · intro hros2
    rw [inferType_image_iff]
    exact and_iff_left hros2
  · constructor
    · rintro (h | h)
      · exact .inl (inferType_image_iff.mp h).1
      · exact .inr h
    · rintro (h | h)
      · exact .inr (.inl (image_of_mem h))
      · exact .inr h

def oneTopic (topic schemaName : String) : Summary where
  statistics := some ⟨0, 1000000000, OrderedDict.empty⟩
  channels := OrderedDict.single 1 ⟨topic, "cdr", 1⟩
  schemas := OrderedDict.single 1 ⟨schemaName⟩

theorem image_topics_camera :
    (Stores (fun ns => ns / 1000000000) (fun count duration => count / duration)
        (some (oneTopic "/camera/image" "sensor_msgs/msg/Image")) "/camera/image" "image" →
      TreatedAsImages "/camera/image" "sensor_msgs/msg/Image") ∧
    (includes "sensor_msgs/msg/Image" "/msg/" →
      (Stores (fun ns => ns / 1000000000) (fun count duration => count / duration)
        (some (oneTopic "/camera/image" "sensor_msgs/msg/Image")) "/camera/image" "image" ↔
          TreatedAsImages "/camera/image" "sensor_msgs/msg/Image")) ∧
    (Offers (fun ns => ns / 1000000000) (fun count duration => count / duration)
        (some (oneTopic "/camera/image" "sensor_msgs/msg/Image")) "/camera/image" ↔
      TreatedAsImages "/camera/image" "sensor_msgs/msg/Image" ∨ includes "sensor_msgs/msg/Image" "Image" ∨
        includes "/camera/image" "camera" ∨ includes "/camera/image" "image") :=
  image_topics (fun ns => ns / 1000000000) (fun count duration => count / duration)
    (oneTopic "/camera/image" "sensor_msgs/msg/Image") _ rfl "/camera/image" ⟨"/camera/image", "cdr", 1⟩ rfl

theorem camera_info_offered :
    Offers (fun ns => ns / 1000000000) (fun count duration => count / duration)
        (some (oneTopic "/camera/info" "sensor_msgs/msg/CameraInfo")) "/camera/info" ∧
      ¬ TreatedAsImages "/camera/info" "sensor_msgs/msg/CameraInfo" ∧
      ¬ Stores (fun ns => ns / 1000000000) (fun count duration => count / duration)
        (some (oneTopic "/camera/info" "sensor_msgs/msg/CameraInfo")) "/camera/info" "image" := by
  have hget : (topicStats (some (oneTopic "/camera/info" "sensor_msgs/msg/CameraInfo"))).get? "/camera/info" =
      some ⟨"sensor_msgs/msg/CameraInfo", 0⟩ := rfl
  rw [offers_iff hget, treatedAsImages_iff, stores_iff hget]
  exact ⟨.inr (.inr (.inl rfl)), by decide, by decide⟩

end Embedai.ImageTopics
