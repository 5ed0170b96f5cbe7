import Mathlib.Algebra.Order.Group.Unbundled.Int
import Mathlib.Data.List.Infix
import Embedai.McapFile
import Embedai.NearestSearch

namespace Embedai.FrameExtractor

open Mcap NearestSearch

structure FrameResult where
  data : List UInt8
  timestampNs : ℕ
  format : String

/-- The `data` of a decoded message: bytes, something with `tobytes`, or something that `bytes` may take. -/
inductive ImageData
  | bytes (data : List UInt8)
  | array (tobytes : Except String (List UInt8))
  | other (toBytes : Except String (List UInt8))

/-- Both decoders test for bytes and for `tobytes`, in different orders; `bytes` has no `tobytes`. -/
def ImageData.toBytes : ImageData → Except String (List UInt8)
  | bytes data => .ok data
  | array tobytes => tobytes
  | other toBytes => toBytes

/-- A message as rosbags returns it; the attributes that it does not have are `none`. -/
structure RosMessage where
  height : Option ℕ
  width : Option ℕ
  encoding : Option String
  data : Option ImageData

structure Typestore where
  deserializeRos1 : List UInt8 → String → Except String RosMessage
  deserializeCdr : List UInt8 → String → Except String RosMessage

/-- The functions of numpy and OpenCV on arrays of type `Img`. -/
structure Imaging (Img : Type) where
  importCv2 : Except String Unit
  frombuffer : List UInt8 → Except String Img
  reshape : Img → List ℕ → Except String Img
  cvtColorRgbToBgr : Img → Except String Img
  imencode : String → Img → Except String (Bool × Img)
  tobytes : Img → Except String (List UInt8)

def getattr {α : Type} : Option α → Except String α
  | some a => .ok a
  | none => .error "AttributeError"

def decodeCompressedImage (msg : RosMessage) : Option (List UInt8) :=
  (getattr msg.data >>= ImageData.toBytes).toOption

variable {Img : Type} (typestore : Typestore) (cv2 : Imaging Img)

def encodeJpeg (img : Img) : Except String (Option (List UInt8)) := do
  let (success, encoded) ← cv2.imencode ".jpg" img
  if success then return some (← cv2.tobytes encoded) else return none

def rawImage (msg : RosMessage) : Except String (Option (List UInt8)) := do
  cv2.importCv2
  let height ← getattr msg.height
  let width ← getattr msg.width
  let encoding ← getattr msg.encoding
  let data ← (← getattr msg.data).toBytes
  if encoding ∈ ["rgb8", "bgr8"] then
    let img ← cv2.reshape (← cv2.frombuffer data) [height, width, 3]
    encodeJpeg cv2 (← if encoding = "rgb8" then cv2.cvtColorRgbToBgr img else pure img)
  else if encoding = "mono8" then
    encodeJpeg cv2 (← cv2.reshape (← cv2.frombuffer data) [height, width])
  else return none

def decodeRawImage (msg : RosMessage) : Option (List UInt8) := (rawImage cv2 msg).toOption.join

def imageTypes : List String :=
  ["sensor_msgs/msg/Image", "sensor_msgs/msg/CompressedImage", "sensor_msgs/Image", "sensor_msgs/CompressedImage"]

def includes (s sub : String) : Bool := s.toList.tails.any sub.toList.isPrefixOf

theorem includes_iff {s sub : String} : includes s sub ↔ sub.toList <:+: s.toList := by
  rw [includes, List.any_eq_true]
  simp only [List.mem_tails, List.isPrefixOf_iff_prefix]
  constructor
  · rintro ⟨t, ht, hsub⟩
    exact List.infix_iff_prefix_suffix.mpr ⟨t, hsub, ht⟩
  · intro h
    obtain ⟨t, hsub, ht⟩ := List.infix_iff_prefix_suffix.mp h
    exact ⟨t, ht, hsub⟩

/-- A name of ROS 1 is turned into the one that rosbags knows. -/
def typeName (name : String) : String :=
  if includes name "/msg/" then name
  else
    match name.toList.splitOn '/' with
    | [package, type] => String.ofList package ++ "/msg/" ++ String.ofList type
    | _ => name

def deserialize (e : Entry) (schema : Schema) : Except String RosMessage :=
  if e.channel.messageEncoding = "ros1" then typestore.deserializeRos1 e.message.data (typeName schema.name)
  else if e.channel.messageEncoding ∈ ["cdr", "ros2"] then
    typestore.deserializeCdr e.message.data (typeName schema.name)
  else .error ("Unknown message encoding: " ++ e.channel.messageEncoding)

/-- The image of a message, or `none` when the loop goes on without it. A message without a schema has no type name. -/
def readImage (e : Entry) : Option (Option (List UInt8)) :=
  e.schema.bind fun schema =>
    (deserialize typestore e schema).toOption.map fun msg =>
      if schema.name ∈ ["sensor_msgs/msg/CompressedImage", "sensor_msgs/CompressedImage"] then
        decodeCompressedImage msg
      else decodeRawImage cv2 msg

structure ImageTopic where
  name : String
  type : String
  schemaName : String

def imageTopic (channel : Channel) (schema : Schema) : ImageTopic where
  name := channel.topic
  type := if schema.name ∈ ["sensor_msgs/msg/Image", "sensor_msgs/Image"] then "image" else "compressed_image"
  schemaName := schema.name

def getImageTopics (file : File) : List ImageTopic :=
  match file.summary with
  | none => []
  | some summary => summary.channels.values.filterMap fun channel =>
    (summary.schemaOf channel).bind fun schema =>
      if schema.name ∈ imageTypes then some (imageTopic channel schema) else none

def getTimeRange (file : File) : Option (ℕ × ℕ) :=
  (file.summary.bind Summary.statistics).map fun s => (s.messageStartTime, s.messageEndTime)

def clamp (timeRange : Option (ℕ × ℕ)) (t : ℤ) : ℤ :=
  match timeRange with
  | none => t
  | some (startTime, endTime) => if t < startTime then startTime else if endTime < t then endTime else t

def findTopic (file : File) (topic : String) : Option Channel × Option Schema :=
  match file.summary with
  | none => (none, none)
  | some summary =>
    match summary.channels.values.find? (fun channel => channel.topic = topic) with
    | none => (none, none)
    | some channel => (some channel, summary.schemaOf channel)

/-- The variables of the loop; a `minDiff` of `none` is infinity. -/
structure Loop where
  bestFrame : Option (List UInt8)
  bestTimestamp : Option ℕ
  minDiff : Option ℤ

def earlyExit (maxTimeDiffNs : ℤ) (s : Loop) : ForInStep Loop :=
  if ∃ d ∈ s.minDiff, d < maxTimeDiffNs then .done s else .yield s

def timeDiff (absoluteTargetNs : ℤ) (e : Entry) : ℤ := |e.message.logTime - absoluteTargetNs|

def visit (topic : String) (absoluteTargetNs maxTimeDiffNs : ℤ) (e : Entry) (s : Loop) : ForInStep Loop :=
  if e.channel.topic ≠ topic then .yield s
  else if ∃ schema ∈ e.schema, schema.name ∉ imageTypes then .yield s
  else if ∀ d ∈ s.minDiff, timeDiff absoluteTargetNs e < d then
    match readImage typestore cv2 e with
    | none =>
      .yield { s with bestTimestamp := some e.message.logTime, minDiff := some (timeDiff absoluteTargetNs e) }
    | some frame =>
      earlyExit maxTimeDiffNs ⟨frame, some e.message.logTime, some (timeDiff absoluteTargetNs e)⟩
  else earlyExit maxTimeDiffNs s

def extractLoop (topic : String) (absoluteTargetNs maxTimeDiffNs : ℤ) (messages : List Entry) (s : Loop) : Loop :=
  Id.run (forIn messages s (visit typestore cv2 topic absoluteTargetNs maxTimeDiffNs))

def extractFrame (file : File) (topic : String) (targetTimestampNs maxTimeDiffNs timeOffsetNs : ℤ) :
    Option FrameResult :=
  let absoluteTargetNs := clamp (getTimeRange file) (targetTimestampNs + timeOffsetNs)
  match findTopic file topic with
  | (some _, some _) =>
    let s := extractLoop typestore cv2 topic absoluteTargetNs maxTimeDiffNs file.messages ⟨none, none, none⟩
    match s.bestFrame, s.bestTimestamp with
    | some data, some timestamp => some ⟨data, timestamp, "jpeg"⟩
    | _, _ => none
  | _ => none

end Embedai.FrameExtractor
