import Mathlib.Algebra.Order.BigOperators.Group.List
import Mathlib.Data.List.Dedup
import Embedai.QualityScorer

namespace Embedai.QualityScorer

open Mcap Pipeline Rounding
open Handlers (except_bind_eq_ok)

variable {α β : Type}

def NoZeroDivision (x : Except ScoreError α) : Prop := x ≠ .error .zeroDivision

theorem NoZeroDivision.bind {x : Except ScoreError α} {f : α → Except ScoreError β} (hx : NoZeroDivision x)
    (hf : ∀ a, x = .ok a → NoZeroDivision (f a)) : NoZeroDivision (x >>= f) := by
  cases x with
  | error e =>
    intro h
    cases h
    exact hx rfl
  | ok a => exact hf a rfl

theorem raise_ok {x : Except String α} {a : α} (h : raise x = .ok a) : x = .ok a := by
  cases x <;> cases h
  rfl

theorem noZeroDivision_ok (a : α) : NoZeroDivision (.ok a) := nofun

theorem noZeroDivision_raise (x : Except String α) : NoZeroDivision (raise x) := by
  cases x <;> exact nofun

theorem noZeroDivision_divide {x y : ℚ} (h : y ≠ 0) : NoZeroDivision (divide x y) := by
  rw [divide_of_ne_zero h]
  exact noZeroDivision_ok _

theorem rateValue_mem_Icc (frequencyHz expectedHz : ℚ) : rateValue frequencyHz expectedHz ∈ Set.Icc 0 1 := by
  unfold rateValue
  split_ifs
  · exact ⟨zero_le_one, le_refl 1⟩
  · have habs : 0 ≤ |1 - frequencyHz / expectedHz| := abs_nonneg _
    exact ⟨le_max_left _ _, max_le zero_le_one (by linarith)⟩

theorem rateOf_mem_Icc {expected : OrderedDict String ℚ} {topic : TopicMeta} {r : ℚ}
    (h : rateOf expected topic = some r) : r ∈ Set.Icc (0 : ℚ) 1 := by
  obtain ⟨expectedHz, -, h⟩ := Option.bind_eq_some_iff.mp h
  split_ifs at h
  cases h
  exact rateValue_mem_Icc ..

theorem average_mem_Icc {scores : List ℚ} (h : ∀ r ∈ scores, r ∈ Set.Icc (0 : ℚ) 1) :
    average scores ∈ Set.Icc (0 : ℚ) 1 := by
  unfold average
  split_ifs with hlength
  · exact ⟨zero_le_one, le_refl 1⟩
  · have hpos : (0 : ℚ) < scores.length := Nat.cast_pos.mpr (Nat.pos_of_ne_zero hlength)
    have hsum := List.sum_le_card_nsmul scores 1 fun r hr => (h r hr).2
    rw [nsmul_eq_mul, mul_one] at hsum
    exact ⟨div_nonneg (List.sum_nonneg fun r hr => (h r hr).1) hpos.le, (div_le_one hpos).mpr hsum⟩

theorem fractionPresent_mem_Icc (required present : List String) :
    fractionPresent required present ∈ Set.Icc (0 : ℚ) 1 := by
  unfold fractionPresent
  split_ifs with hlength
  · exact ⟨zero_le_one, le_refl 1⟩
  · have hpos : (0 : ℚ) < required.length := Nat.cast_pos.mpr (Nat.pos_of_ne_zero hlength)
    have hfilter : (required.dedup.filter (· ∈ present)).length ≤ required.length :=
      (List.length_filter_le _ _).trans required.dedup_sublist.length_le
    exact ⟨by positivity, (div_le_one hpos).mpr (mod_cast hfilter)⟩

section Sharpness

variable {laplacianVar : List UInt8 → Except String (Option ℚ)}
  (hvar : ∀ data v, laplacianVar data = .ok (some v) → 0 ≤ v)

theorem noZeroDivision_variances (frames : List (List UInt8)) (indices : List ℕ) :
    NoZeroDivision (variances laplacianVar frames indices) := by
  induction indices with
  | nil => exact noZeroDivision_ok _
  | cons idx indices ih =>
    rw [variances]
    split
    · exact nofun
    · apply (noZeroDivision_raise _).bind
      intro lapVar _
      apply ih.bind
      intro rest _
      split <;> exact noZeroDivision_ok _

include hvar in
theorem variances_nonneg {frames : List (List UInt8)} {indices : List ℕ} {lapVars : List ℚ}
    (h : variances laplacianVar frames indices = .ok lapVars) : ∀ v ∈ lapVars, 0 ≤ v := by
  induction indices generalizing lapVars with
  | nil =>
    cases h
    exact nofun
  | cons idx indices ih =>
    rw [variances] at h
    split at h
    · cases h
    · rename_i raw _
      obtain ⟨lapVar, hlap, h⟩ := except_bind_eq_ok.mp h
      obtain ⟨rest, hrest, h⟩ := except_bind_eq_ok.mp h
      cases lapVar with
      | none =>
        cases h
        exact ih hrest
      | some v =>
        cases h
        exact List.forall_mem_cons.mpr ⟨hvar raw v (raise_ok hlap), ih hrest⟩

theorem noZeroDivision_sampleSharpness (file : Except String File) (topicName : String) :
    NoZeroDivision (sampleSharpness laplacianVar file topicName) := by
  rw [sampleSharpness]
  apply (noZeroDivision_raise file).bind
  intro content _
  dsimp only
  split_ifs with hframes
  · exact noZeroDivision_ok _
  · apply (noZeroDivision_variances _ _).bind
    intro lapVars _
    split_ifs with hlapVars
    · exact noZeroDivision_ok _
    · apply (noZeroDivision_divide (Nat.cast_ne_zero.mpr hlapVars)).bind
      intro meanVar _
      apply (noZeroDivision_divide (by norm_num [sharpThreshold])).bind
      intro ratio _
      exact noZeroDivision_ok _

include hvar in
theorem sampleSharpness_mem_Icc {file : Except String File} {topicName : String} {sharpness : ℚ}
    (h : sampleSharpness laplacianVar file topicName = .ok sharpness) : sharpness ∈ Set.Icc (0 : ℚ) 1 := by
  have hfallback : (9 / 10 : ℚ) ∈ Set.Icc (0 : ℚ) 1 := by norm_num
  obtain ⟨content, -, h⟩ := except_bind_eq_ok.mp h
  dsimp only at h
  split_ifs at h with hframes
  · cases h
    exact hfallback
  · obtain ⟨lapVars, hlapVars, h⟩ := except_bind_eq_ok.mp h
    split_ifs at h with hnone
    · cases h
      exact hfallback
    · rw [divide_of_ne_zero (Nat.cast_ne_zero.mpr hnone)] at h
      obtain ⟨_, hmean, h⟩ := except_bind_eq_ok.mp h
      cases hmean
      rw [divide_of_ne_zero (by norm_num [sharpThreshold])] at h
      obtain ⟨_, hratio, h⟩ := except_bind_eq_ok.mp h
      cases hratio
      cases h
      have hsum := List.sum_nonneg (variances_nonneg hvar hlapVars)
      have hratio : 0 ≤ lapVars.sum / lapVars.length / sharpThreshold := by
        have hthreshold : 0 ≤ sharpThreshold := by norm_num [sharpThreshold]
        positivity
      exact mod_cast roundTo_mem_Icc 4 (a := 0) (b := 1)
        ⟨by exact_mod_cast le_min zero_le_one hratio, by exact_mod_cast min_le_left _ _⟩

include hvar in
theorem scoreSignalQuality_mem_Icc (file : Except String File) (topics : List TopicMeta) :
    scoreSignalQuality laplacianVar file topics ∈ Set.Icc (0 : ℚ) 1 := by
  unfold scoreSignalQuality
  split
  · exact ⟨zero_le_one, le_refl 1⟩
  · split
    · rename_i sharpness h
      exact sampleSharpness_mem_Icc hvar h
    · norm_num

end Sharpness

theorem roundTo_mem_unit {x : ℚ} (h : x ∈ Set.Icc (0 : ℚ) 1) : roundTo 4 x ∈ Set.Icc (0 : ℚ) 1 := by
  have hbounds := roundTo_mem_Icc (x := x) 4 (a := 0) (b := 1)
  rw [Int.cast_zero, Int.cast_one] at hbounds
  exact hbounds h

theorem totalScore_mem_Icc {fpsScore completeness signal : ℚ} (hfps : fpsScore ∈ Set.Icc (0 : ℚ) 1)
    (hcompleteness : completeness ∈ Set.Icc (0 : ℚ) 1) (hsignal : signal ∈ Set.Icc (0 : ℚ) 1) :
    totalScore fpsScore completeness signal ∈ Set.Icc (0 : ℚ) 1 := by
  obtain ⟨hfps0, hfps1⟩ := hfps
  obtain ⟨hcompleteness0, hcompleteness1⟩ := hcompleteness
  obtain ⟨hsignal0, hsignal1⟩ := hsignal
  apply roundTo_mem_unit
  rw [weightFrameRateStability, weightSensorCompleteness, weightSignalQuality]
  constructor <;> linarith

theorem totalScore_one : totalScore 1 1 1 = 1 := by
  have hweights :
      1 * weightFrameRateStability + 1 * weightSensorCompleteness + 1 * weightSignalQuality = ((1 : ℤ) : ℚ) := by
    norm_num [weightFrameRateStability, weightSensorCompleteness, weightSignalQuality]
  rw [totalScore, hweights, roundTo_intCast, Int.cast_one]

theorem scores_in_range (laplacianVar : List UInt8 → Except String (Option ℚ)) (file : Except String File)
    (schema : ProjectSchema) (episodeMeta : EpisodeMeta)
    (hvar : ∀ data v, laplacianVar data = .ok (some v) → 0 ≤ v) :
    (∀ topicName, NoZeroDivision (sampleSharpness laplacianVar file topicName)) ∧
    ∃ detail, score laplacianVar file schema episodeMeta = .ok (detail.totalScore, detail) ∧
      detail.frameRateStability ∈ Set.Icc (0 : ℚ) 1 ∧ detail.sensorCompleteness ∈ Set.Icc (0 : ℚ) 1 ∧
      detail.signalQuality ∈ Set.Icc (0 : ℚ) 1 ∧ detail.totalScore ∈ Set.Icc (0 : ℚ) 1 ∧
      (detail.frameRateStability = 1 → detail.sensorCompleteness = 1 → detail.signalQuality = 1 →
        detail.totalScore = 1) := by
  have hfps : roundTo 4 (average (episodeMeta.topics.filterMap (rateOf schema.expected))) ∈ Set.Icc (0 : ℚ) 1 := by
    apply roundTo_mem_unit
    apply average_mem_Icc
    intro r hr
    obtain ⟨topic, -, hrate⟩ := List.mem_filterMap.mp hr
    exact rateOf_mem_Icc hrate
  have hcompleteness := roundTo_mem_unit
    (fractionPresent_mem_Icc schema.required (episodeMeta.topics.map TopicMeta.name))
  have hsignal := scoreSignalQuality_mem_Icc hvar file episodeMeta.topics
  refine ⟨noZeroDivision_sampleSharpness file, detailOf laplacianVar file schema episodeMeta.topics,
    score_eq laplacianVar file schema episodeMeta, hfps, hcompleteness, hsignal,
    totalScore_mem_Icc hfps hcompleteness hsignal, ?_⟩
  intro hfpsOne hcompletenessOne hsignalOne
  change totalScore (detailOf laplacianVar file schema episodeMeta.topics).frameRateStability
    (detailOf laplacianVar file schema episodeMeta.topics).sensorCompleteness
    (detailOf laplacianVar file schema episodeMeta.topics).signalQuality = 1
  rw [hfpsOne, hcompletenessOne, hsignalOne, totalScore_one]

def oneImage : File where
  summary := none
  messages := [⟨some ⟨"sensor_msgs/msg/CompressedImage"⟩, ⟨"/camera/image", "cdr", 1⟩, ⟨0, [255, 216]⟩⟩]

def oneImageMeta : EpisodeMeta where
  format := "mcap"
  durationSeconds := 10
  topics := [⟨"/camera/image", "image", 150, 15, 0, 10, "sensor_msgs/msg/CompressedImage"⟩]

def cameraSchema : ProjectSchema where
  topicFrequency := some (OrderedDict.single "/camera/image" 30)
  requiredTopics := some ["/camera/image", "/camera/image"]

def blurred (data : List UInt8) : Except String (Option ℚ) := if data = [] then .ok none else .ok (some 25)

theorem blurred_nonneg (data : List UInt8) (v : ℚ) (h : blurred data = .ok (some v)) : 0 ≤ v := by
  unfold blurred at h
  split_ifs at h
  · cases Except.ok.inj h
  · obtain rfl := Option.some.inj (Except.ok.inj h)
    norm_num

theorem scores_in_range_oneImage :
    (∀ topicName, NoZeroDivision (sampleSharpness blurred (.ok oneImage) topicName)) ∧
    ∃ detail, score blurred (.ok oneImage) cameraSchema oneImageMeta = .ok (detail.totalScore, detail) ∧
      detail.frameRateStability ∈ Set.Icc (0 : ℚ) 1 ∧ detail.sensorCompleteness ∈ Set.Icc (0 : ℚ) 1 ∧
      detail.signalQuality ∈ Set.Icc (0 : ℚ) 1 ∧ detail.totalScore ∈ Set.Icc (0 : ℚ) 1 ∧
      (detail.frameRateStability = 1 → detail.sensorCompleteness = 1 → detail.signalQuality = 1 →
        detail.totalScore = 1) :=
  scores_in_range blurred (.ok oneImage) cameraSchema oneImageMeta blurred_nonneg

end Embedai.QualityScorer
