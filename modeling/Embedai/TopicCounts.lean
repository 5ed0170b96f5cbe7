import Mathlib.Algebra.BigOperators.Ring.Finset
import Embedai.ImageTopics
import Embedai.ListSums

namespace Embedai.ImageTopics

open ListSums Mcap Pipeline

def channelCount (statistics : Statistics) (channelId : ℕ) : ℕ :=
  (statistics.channelMessageCounts.get? channelId).getD 0

def channelsOf (summary : Summary) (topic : String) : List (ℕ × Channel) :=
  summary.channels.items.filter fun c => c.2.topic = topic

def topicTotal (summary : Summary) (statistics : Statistics) (topic : String) : ℕ :=
  ((channelsOf summary topic).map fun c => channelCount statistics c.1).sum

def statsOf (summary : Summary) (statistics : Statistics) (c : ℕ × Channel) : TopicStats :=
  ⟨schemaName summary c.2, channelCount statistics c.1⟩

structure CountsAllMessages (seconds : ℤ → ℚ) (frequency : ℕ → ℚ → ℚ) (summary : Summary) (statistics : Statistics) :
    Prop where
  distinct : ((extract seconds frequency (some summary)).topics.map TopicMeta.name).Nodup
  topics : ∀ topic, topic ∈ (extract seconds frequency (some summary)).topics.map TopicMeta.name ↔
    ∃ channel ∈ summary.channels.values, channel.topic = topic
  counts : ∀ m ∈ (extract seconds frequency (some summary)).topics,
    m.messageCount = topicTotal summary statistics m.name
  total : (∀ id ∈ statistics.channelMessageCounts.keys, id ∈ summary.channels.keys) →
    ((extract seconds frequency (some summary)).topics.map TopicMeta.messageCount).sum =
      statistics.channelMessageCounts.values.sum

variable {seconds : ℤ → ℚ} {frequency : ℕ → ℚ → ℚ} {summary : Summary} {statistics : Statistics}

theorem names_extract (seconds : ℤ → ℚ) (frequency : ℕ → ℚ → ℚ) (summary : Option Summary) :
    (extract seconds frequency summary).topics.map TopicMeta.name = (topicStats summary).keys := by
  rw [extract, List.map_map]
  rfl

theorem get?_topicStats (h : summary.statistics = some statistics) (topic : String) :
    (topicStats (some summary)).get? topic = (channelsOf summary topic).getLast?.map (statsOf summary statistics) := by
  simp only [topicStats, h]
  rw [OrderedDict.get?_foldl_set (fun c : ℕ × Channel => c.2.topic)]
  exact Option.or_none

theorem mem_keys_topicStats (h : summary.statistics = some statistics) {topic : String} :
    topic ∈ (topicStats (some summary)).keys ↔ channelsOf summary topic ≠ [] := by
  rw [OrderedDict.mem_keys, get?_topicStats h, ← Option.isSome_iff_exists, Option.isSome_map, List.getLast?_isSome]

theorem channelsOf_ne_nil {topic : String} :
    channelsOf summary topic ≠ [] ↔ ∃ channel ∈ summary.channels.values, channel.topic = topic := by
  rw [channelsOf, ne_eq, List.filter_eq_nil_iff, OrderedDict.values]
  simp only [List.mem_map, decide_eq_true_eq, not_forall, not_not]
  constructor
  · rintro ⟨c, hc, htopic⟩
    exact ⟨c.2, ⟨c, hc, rfl⟩, htopic⟩
  · rintro ⟨_, ⟨c, hc, rfl⟩, htopic⟩
    exact ⟨c, hc, htopic⟩

theorem sum_topicTotal (h : summary.statistics = some statistics)
    (hlisted : ∀ id ∈ statistics.channelMessageCounts.keys, id ∈ summary.channels.keys) :
    ((topicStats (some summary)).keys.map (topicTotal summary statistics)).sum =
      statistics.channelMessageCounts.values.sum := by
  have hvalues := sum_getD statistics.channelMessageCounts summary.channels.nodup_keys hlisted
  rw [OrderedDict.keys, List.map_map] at hvalues
  rw [← hvalues]
  apply sum_fibers (fun c : ℕ × Channel => c.2.topic) (fun c => channelCount statistics c.1) summary.channels.items
    (topicStats (some summary)).nodup_keys
  intro c hc
  rw [mem_keys_topicStats h, channelsOf_ne_nil]
  exact ⟨c.2, List.mem_map_of_mem hc, rfl⟩

theorem topicTotal_eq_iff {topic : String} {c : ℕ × Channel} (h : (channelsOf summary topic).getLast? = some c) :
    channelCount statistics c.1 = topicTotal summary statistics topic ↔
      ∀ d ∈ (channelsOf summary topic).dropLast, channelCount statistics d.1 = 0 := by
  rw [topicTotal, ← List.dropLast_append_getLast? c h, List.map_append, List.sum_append, List.map_singleton,
    List.sum_singleton, List.dropLast_concat, right_eq_add, List.sum_eq_zero_iff_forall_eq_nat, List.forall_mem_map]

theorem mem_topics (h : summary.statistics = some statistics) {m : TopicMeta} :
    m ∈ (extract seconds frequency (some summary)).topics ↔
      ∃ topic c, (channelsOf summary topic).getLast? = some c ∧
        m = topicMeta frequency (durationSeconds seconds (some summary)) (topic, statsOf summary statistics c) := by
  rw [extract, List.mem_map]
  constructor
  · rintro ⟨⟨topic, t⟩, ht, rfl⟩
    rw [OrderedDict.mem_items, get?_topicStats h, Option.map_eq_some_iff] at ht
    obtain ⟨c, hc, rfl⟩ := ht
    exact ⟨topic, c, hc, rfl⟩
  · rintro ⟨topic, c, hc, rfl⟩
    refine ⟨(topic, statsOf summary statistics c), ?_, rfl⟩
    rw [OrderedDict.mem_items, get?_topicStats h, hc]
    rfl

variable (seconds frequency) in
theorem counts_iff (h : summary.statistics = some statistics) :
    (∀ m ∈ (extract seconds frequency (some summary)).topics,
      m.messageCount = topicTotal summary statistics m.name) ↔
      ∀ topic, ∀ c ∈ (channelsOf summary topic).dropLast, channelCount statistics c.1 = 0 := by
  constructor
  · intro hcounts topic
    cases hlast : (channelsOf summary topic).getLast? with
    | none =>
      rw [List.getLast?_eq_none_iff.mp hlast]
      exact nofun
    | some c =>
      have hcount := hcounts _ ((mem_topics h).mpr ⟨topic, c, hlast, rfl⟩)
      exact (topicTotal_eq_iff hlast).mp (Int.ofNat_inj.mp hcount)
  · intro hzero m hm
    obtain ⟨topic, c, hlast, rfl⟩ := (mem_topics h).mp hm
    exact Int.ofNat_inj.mpr ((topicTotal_eq_iff hlast).mpr (hzero topic))

theorem total_of_counts (h : summary.statistics = some statistics)
    (hcounts : ∀ m ∈ (extract seconds frequency (some summary)).topics,
      m.messageCount = topicTotal summary statistics m.name)
    (hlisted : ∀ id ∈ statistics.channelMessageCounts.keys, id ∈ summary.channels.keys) :
    ((extract seconds frequency (some summary)).topics.map TopicMeta.messageCount).sum =
      statistics.channelMessageCounts.values.sum := by
  rw [← sum_topicTotal h hlisted, ← names_extract seconds frequency, List.map_congr_left hcounts, List.map_map,
    Nat.cast_list_sum, List.map_map]
  rfl

theorem countsAllMessages_iff (seconds : ℤ → ℚ) (frequency : ℕ → ℚ → ℚ) (summary : Summary) (statistics : Statistics)
    (h : summary.statistics = some statistics) :
    CountsAllMessages seconds frequency summary statistics ↔
      ∀ topic, ∀ c ∈ (channelsOf summary topic).dropLast, channelCount statistics c.1 = 0 := by
  rw [← counts_iff seconds frequency h]
  constructor
  · exact CountsAllMessages.counts
  · intro hcounts
    refine ⟨?_, ?_, hcounts, total_of_counts h hcounts⟩
    · rw [names_extract]
      exact (topicStats (some summary)).nodup_keys
    · intro topic
      rw [names_extract, mem_keys_topicStats h, channelsOf_ne_nil]

def twoPublishers (first second : ℕ) : Statistics :=
  ⟨0, 1000000000, (OrderedDict.single 1 first).set 2 second⟩

def sharedTopic (first second : ℕ) : Summary where
  statistics := some (twoPublishers first second)
  channels := (OrderedDict.single 1 ⟨"/camera/image", "cdr", 1⟩).set 2 ⟨"/camera/image", "cdr", 1⟩
  schemas := OrderedDict.single 1 ⟨"sensor_msgs/msg/Image"⟩

theorem countsAllMessages_sharedTopic :
    CountsAllMessages (fun ns => ns / 1000000000) (fun count duration => count / duration) (sharedTopic 0 5)
        (twoPublishers 0 5) ↔
      ∀ topic, ∀ c ∈ (channelsOf (sharedTopic 0 5) topic).dropLast, channelCount (twoPublishers 0 5) c.1 = 0 :=
  countsAllMessages_iff (fun ns => ns / 1000000000) (fun count duration => count / duration) (sharedTopic 0 5)
    (twoPublishers 0 5) rfl

theorem first_publisher_lost :
    ¬ CountsAllMessages (fun ns => ns / 1000000000) (fun count duration => count / duration) (sharedTopic 3 5)
      (twoPublishers 3 5) := by
  intro h
  have hzero := (counts_iff _ _ rfl).mp h.counts "/camera/image" (1, ⟨"/camera/image", "cdr", 1⟩)
    (List.mem_singleton_self _)
  exact absurd hzero (by decide)

end Embedai.ImageTopics
