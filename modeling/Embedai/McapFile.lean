import Embedai.OrderedDict

namespace Embedai.Mcap

structure Schema where
  name : String

structure Channel where
  topic : String
  messageEncoding : String
  schemaId : ℕ

structure Message where
  logTime : ℕ
  data : List UInt8

structure Statistics where
  messageStartTime : ℕ
  messageEndTime : ℕ
  channelMessageCounts : OrderedDict ℕ ℕ

structure Summary where
  statistics : Option Statistics
  channels : OrderedDict ℕ Channel
  schemas : OrderedDict ℕ Schema

/-- What `iter_messages` yields for a message. -/
structure Entry where
  schema : Option Schema
  channel : Channel
  message : Message

structure File where
  summary : Option Summary
  messages : List Entry

def Summary.schemaOf (summary : Summary) (channel : Channel) : Option Schema := summary.schemas.get? channel.schemaId

end Embedai.Mcap
