import Embedai.QualityScorer

namespace Embedai.QualityScorer

open Mcap Pipeline Rounding

def FirstImage (before : List TopicMeta) (t : TopicMeta) : Prop :=
  t.type = "image" ∧ ∀ u ∈ before, u.type ≠ "image"

def SlowsDown (expected : OrderedDict String ℚ) (others : List TopicMeta) (t : TopicMeta) : Prop :=
  ∃ r, rateOf expected t = some r ∧ r < average (others.filterMap (rateOf expected))

def weightedChange (d d' : QualityDetail) : ℚ :=
  (d'.frameRateStability - d.frameRateStability) * weightFrameRateStability +
    (d'.sensorCompleteness - d.sensorCompleteness) * weightSensorCompleteness +
    (d'.signalQuality - d.signalQuality) * weightSignalQuality

variable {before after : List TopicMeta} {t : TopicMeta}

theorem average_remove {before after : List ℚ} {r : ℚ} (h : average (before ++ after) ≤ r) :
    average (before ++ after) ≤ average (before ++ r :: after) := by
  have hsum : (before ++ r :: after).sum = (before ++ after).sum + r := by
    rw [List.sum_append, List.sum_append, List.sum_cons]
    ring
  have hlength : (before ++ r :: after).length = (before ++ after).length + 1 := by
    rw [List.length_append, List.length_append, List.length_cons, Nat.add_assoc]
  generalize hothers : before ++ after = others at h hsum hlength
  have hall : average (before ++ r :: after) = (others.sum + r) / (others.length + 1) := by
    rw [average, if_neg (by omega), hsum, hlength, Nat.cast_add_one]
  rw [hall]
  by_cases hnone : others.length = 0
  · rw [average, if_pos hnone] at h ⊢
    rw [List.eq_nil_of_length_eq_zero hnone]
    simpa using h
  · have hpos : (0 : ℚ) < others.length := Nat.cast_pos.mpr (Nat.pos_of_ne_zero hnone)
    rw [average, if_neg hnone] at h ⊢
    rw [div_le_iff₀ hpos] at h
    rw [div_le_div_iff₀ hpos (by linarith)]
    linarith

theorem frameRate_remove {expected : OrderedDict String ℚ} (h : ¬ SlowsDown expected (before ++ after) t) :
    average ((before ++ after).filterMap (rateOf expected)) ≤
      average ((before ++ t :: after).filterMap (rateOf expected)) := by
  rw [List.filterMap_append, List.filterMap_append]
  cases hrate : rateOf expected t with
  | none => rw [List.filterMap_cons_none hrate]
  | some r =>
    rw [List.filterMap_cons_some hrate]
    apply average_remove
    rw [← List.filterMap_append]
    by_contra hlt
    exact h ⟨r, hrate, not_le.mp hlt⟩

theorem fractionPresent_mono {required present present' : List String} (h : ∀ name ∈ present', name ∈ present) :
    fractionPresent required present' ≤ fractionPresent required present := by
  unfold fractionPresent
  split_ifs
  · exact le_refl 1
  · have hfilter : (required.dedup.filter (· ∈ present')).length ≤ (required.dedup.filter (· ∈ present)).length :=
      (List.monotone_filter_right _ fun name hname => by simpa using h name (by simpa using hname)).length_le
    apply div_le_div_of_nonneg_right _ (Nat.cast_nonneg _)
    exact_mod_cast hfilter

theorem scoreSignalQuality_remove {laplacianVar : List UInt8 → Except String (Option ℚ)} {file : Except String File}
    (h : ¬ FirstImage before t) :
    scoreSignalQuality laplacianVar file (before ++ after) =
      scoreSignalQuality laplacianVar file (before ++ t :: after) := by
  unfold scoreSignalQuality
  rw [List.filter_append, List.filter_append]
  cases hbefore : before.filter fun u => u.type = "image" with
  | cons u rest => rfl
  | nil =>
    have hnone : ∀ u ∈ before, u.type ≠ "image" := by simpa using hbefore
    have ht : t.type ≠ "image" := fun htype => h ⟨htype, hnone⟩
    rw [List.filter_cons_of_neg (by simpa using ht)]

theorem totalScore_mono {d d' : QualityDetail} (h : weightedChange d d' ≤ 0) :
    totalScore d'.frameRateStability d'.sensorCompleteness d'.signalQuality ≤
      totalScore d.frameRateStability d.sensorCompleteness d.signalQuality := by
  apply roundTo_mono
  unfold weightedChange at h
  linarith

theorem weightedChange_nonpos {d d' : QualityDetail} (hrate : d'.frameRateStability ≤ d.frameRateStability)
    (hcompleteness : d'.sensorCompleteness ≤ d.sensorCompleteness) (hsignal : d'.signalQuality ≤ d.signalQuality) :
    weightedChange d d' ≤ 0 := by
  unfold weightedChange weightFrameRateStability weightSensorCompleteness weightSignalQuality
  linarith

theorem losing_a_sensor (laplacianVar : List UInt8 → Except String (Option ℚ)) (file : Except String File)
    (schema : ProjectSchema) (format : String) (durationSeconds : ℚ) (before : List TopicMeta) (t : TopicMeta)
    (after : List TopicMeta) :
    ∃ d d', score laplacianVar file schema ⟨format, durationSeconds, before ++ t :: after⟩ = .ok (d.totalScore, d) ∧
      score laplacianVar file schema ⟨format, durationSeconds, before ++ after⟩ = .ok (d'.totalScore, d') ∧
      d'.sensorCompleteness ≤ d.sensorCompleteness ∧
      (¬ SlowsDown schema.expected (before ++ after) t → d'.frameRateStability ≤ d.frameRateStability) ∧
      (¬ FirstImage before t → d'.signalQuality = d.signalQuality) ∧
      (weightedChange d d' ≤ 0 → d'.totalScore ≤ d.totalScore) ∧
      (¬ SlowsDown schema.expected (before ++ after) t → ¬ FirstImage before t → d'.totalScore ≤ d.totalScore) := by
  let d := detailOf laplacianVar file schema (before ++ t :: after)
  let d' := detailOf laplacianVar file schema (before ++ after)
  have hcompleteness : d'.sensorCompleteness ≤ d.sensorCompleteness := by
    apply roundTo_mono
    apply fractionPresent_mono
    intro name hname
    simp only [List.map_append, List.map_cons, List.mem_append, List.mem_cons] at hname ⊢
    exact hname.imp_right Or.inr
  have hrate (h : ¬ SlowsDown schema.expected (before ++ after) t) : d'.frameRateStability ≤ d.frameRateStability :=
    roundTo_mono 4 (frameRate_remove h)
  have hsignal (h : ¬ FirstImage before t) : d'.signalQuality = d.signalQuality := scoreSignalQuality_remove h
  have htotal : weightedChange d d' ≤ 0 → d'.totalScore ≤ d.totalScore := totalScore_mono
  refine ⟨d, d', score_eq .., score_eq .., hcompleteness, hrate, hsignal, htotal, fun hslow hfirst => ?_⟩
  exact htotal (weightedChange_nonpos (hrate hslow) hcompleteness (hsignal hfirst).le)

def recorded (name : String) (frequencyHz : ℚ) : TopicMeta :=
  ⟨name, "imu", 50, frequencyHz, 0, 10, "sensor_msgs/msg/Imu"⟩

def twoSensors : ProjectSchema where
  topicFrequency := some ((OrderedDict.single "/imu/left" 10).set "/imu/right" 10)
  requiredTopics := none

theorem losing_slow_sensor_raises : ∃ d d',
    score (fun _ => .ok none) (.error "no such file") twoSensors
      ⟨"mcap", 10, [recorded "/imu/left" 10, recorded "/imu/right" 5]⟩ = .ok (d.totalScore, d) ∧
    score (fun _ => .ok none) (.error "no such file") twoSensors ⟨"mcap", 10, [recorded "/imu/left" 10]⟩ =
      .ok (d'.totalScore, d') ∧
    d.totalScore < d'.totalScore :=
  ⟨_, _, score_eq .., score_eq .., by decide +kernel⟩

end Embedai.QualityScorer
