import Mathlib.Data.Rat.Floor
import Embedai.EpisodeProcessor
import Embedai.McapFile
import Embedai.Rounding

/-!
The quality scorer of the pipeline, with exact rationals. Division by zero is an error of its own.
-/

namespace Embedai.QualityScorer

open Mcap Pipeline Rounding

inductive ScoreError
  | zeroDivision
  | raised (text : String)

structure ProjectSchema where
  topicFrequency : Option (OrderedDict String ℚ)
  requiredTopics : Option (List String)

def weightFrameRateStability : ℚ := 4 / 10

def weightSensorCompleteness : ℚ := 4 / 10

def weightSignalQuality : ℚ := 2 / 10

def tolerance : ℚ := 10 / 100

def sharpThreshold : ℚ := 100

def divide (x y : ℚ) : Except ScoreError ℚ := if y = 0 then .error .zeroDivision else .ok (x / y)

def ProjectSchema.expected (schema : ProjectSchema) : OrderedDict String ℚ :=
  schema.topicFrequency.getD OrderedDict.empty

def ProjectSchema.required (schema : ProjectSchema) : List String := schema.requiredTopics.getD []

def rateScore (frequencyHz expectedHz : ℚ) : Except ScoreError ℚ := do
  let ratio ← divide frequencyHz expectedHz
  return if |1 - ratio| ≤ tolerance then 1 else max 0 (1 - |1 - ratio|)

/-- The loop of `_score_frame_rate`. -/
def rateScores (expected : OrderedDict String ℚ) : List TopicMeta → Except ScoreError (List ℚ)
  | [] => return []
  | topic :: topics =>
    match expected.get? topic.name with
    | none => rateScores expected topics
    | some expectedHz =>
      if expectedHz ≤ 0 then rateScores expected topics
      else do
        let score ← rateScore topic.frequencyHz expectedHz
        let scores ← rateScores expected topics
        return score :: scores

def scoreFrameRate (schema : ProjectSchema) (topics : List TopicMeta) : Except ScoreError ℚ :=
  if schema.expected.length = 0 then return 1
  else do
    let scores ← rateScores schema.expected topics
    if scores.length = 0 then return 1
    else
      let mean ← divide scores.sum scores.length
      return roundTo 4 mean

def scoreCompleteness (schema : ProjectSchema) (topics : List TopicMeta) : Except ScoreError ℚ :=
  if schema.required.length = 0 then return 1
  else do
    let present := topics.map TopicMeta.name
    let fraction ← divide (schema.required.dedup.filter (· ∈ present)).length schema.required.length
    return roundTo 4 fraction

section Signal

-- The variance of the Laplacian of a message that decodes to an image that is not empty; what reading the file gives.
variable (laplacianVar : List UInt8 → Except String (Option ℚ)) (file : Except String File)

def raise {α : Type} : Except String α → Except ScoreError α
  | .ok a => .ok a
  | .error text => .error (.raised text)

def sampleIndices (n : ℕ) : List ℕ := (List.range (min 5 n)).map fun i => i * (n - 1) / 4

def variances (frames : List (List UInt8)) : List ℕ → Except ScoreError (List ℚ)
  | [] => return []
  | idx :: indices =>
    match frames[idx]? with
    | none => .error (.raised "list index out of range")
    | some raw => do
      let lapVar ← raise (laplacianVar raw)
      let rest ← variances frames indices
      match lapVar with
      | none => return rest
      | some lapVar => return lapVar :: rest

def sampleSharpness (topicName : String) : Except ScoreError ℚ := do
  let content ← raise file
  let frames := ((content.messages.filter fun e => e.channel.topic = topicName).take 50).map fun e => e.message.data
  if frames.length = 0 then return 9 / 10
  else
    let lapVars ← variances laplacianVar frames (sampleIndices frames.length)
    if lapVars.length = 0 then return 9 / 10
    else
      let meanVar ← divide lapVars.sum lapVars.length
      let ratio ← divide meanVar sharpThreshold
      return roundTo 4 (min 1 ratio)

def scoreSignalQuality (topics : List TopicMeta) : ℚ :=
  match topics.filter fun t => t.type = "image" with
  | [] => 1
  | t :: _ =>
    match sampleSharpness laplacianVar file t.name with
    | .ok sharpness => sharpness
    | .error _ => 9 / 10

def totalScore (fpsScore completeness signal : ℚ) : ℚ :=
  roundTo 4 (fpsScore * weightFrameRateStability + completeness * weightSensorCompleteness +
    signal * weightSignalQuality)

def score (schema : ProjectSchema) (episodeMeta : EpisodeMeta) : Except ScoreError (ℚ × QualityDetail) := do
  let fpsScore ← scoreFrameRate schema episodeMeta.topics
  let completeness ← scoreCompleteness schema episodeMeta.topics
  let signal := scoreSignalQuality laplacianVar file episodeMeta.topics
  let total := totalScore fpsScore completeness signal
  return (total, {
    frameRateStability := fpsScore
    sensorCompleteness := completeness
    signalQuality := signal
    totalScore := total })

end Signal

def rateValue (frequencyHz expectedHz : ℚ) : ℚ :=
  if |1 - frequencyHz / expectedHz| ≤ tolerance then 1 else max 0 (1 - |1 - frequencyHz / expectedHz|)

def rateOf (expected : OrderedDict String ℚ) (topic : TopicMeta) : Option ℚ :=
  (expected.get? topic.name).bind fun expectedHz =>
    if expectedHz ≤ 0 then none else some (rateValue topic.frequencyHz expectedHz)

def average (scores : List ℚ) : ℚ := if scores.length = 0 then 1 else scores.sum / scores.length

def fractionPresent (required present : List String) : ℚ :=
  if required.length = 0 then 1 else (required.dedup.filter (· ∈ present)).length / required.length

theorem divide_of_ne_zero {x y : ℚ} (h : y ≠ 0) : divide x y = .ok (x / y) := if_neg h

theorem rateScores_eq (expected : OrderedDict String ℚ) (topics : List TopicMeta) :
    rateScores expected topics = .ok (topics.filterMap (rateOf expected)) := by
  induction topics with
  | nil => rfl
  | cons topic topics ih =>
    rw [rateScores, List.filterMap_cons, rateOf]
    cases hget : expected.get? topic.name with
    | none => exact ih
    | some expectedHz =>
      rw [Option.bind_some]
      by_cases hpos : expectedHz ≤ 0
      · simp only [if_pos hpos]
        exact ih
      · have hscore : rateScore topic.frequencyHz expectedHz = .ok (rateValue topic.frequencyHz expectedHz) := by
          rw [rateScore, divide_of_ne_zero (ne_of_gt (not_le.mp hpos))]
          rfl
        simp only [if_neg hpos, hscore, ih]
        rfl

theorem scoreFrameRate_eq (schema : ProjectSchema) (topics : List TopicMeta) :
    scoreFrameRate schema topics = .ok (roundTo 4 (average (topics.filterMap (rateOf schema.expected)))) := by
  have hone : roundTo 4 (1 : ℚ) = 1 := mod_cast roundTo_intCast 4 (1 : ℤ)
  have hnone : topics.filterMap (rateOf schema.expected) = [] →
      roundTo 4 (average (topics.filterMap (rateOf schema.expected))) = 1 := by
    intro h
    rw [h]
    exact hone
  rw [scoreFrameRate]
  split_ifs with hexpected
  · have hget : ∀ name, schema.expected.get? name = none := by
      intro name
      rw [OrderedDict.get?_eq_none, OrderedDict.keys, List.eq_nil_of_length_eq_zero hexpected]
      exact List.not_mem_nil
    rw [hnone (List.filterMap_eq_nil_iff.mpr fun t _ => by rw [rateOf, hget, Option.bind_none])]
    rfl
  · rw [rateScores_eq]
    by_cases hscores : topics.filterMap (rateOf schema.expected) = []
    · rw [hnone hscores, hscores]
      rfl
    · have hlength : (topics.filterMap (rateOf schema.expected)).length ≠ 0 := mt List.eq_nil_of_length_eq_zero hscores
      change (if _ then _ else _) = _
      rw [if_neg hlength, divide_of_ne_zero (Nat.cast_ne_zero.mpr hlength), average, if_neg hlength]
      rfl

theorem scoreCompleteness_eq (schema : ProjectSchema) (topics : List TopicMeta) :
    scoreCompleteness schema topics =
      .ok (roundTo 4 (fractionPresent schema.required (topics.map TopicMeta.name))) := by
  rw [scoreCompleteness, fractionPresent]
  split_ifs with hrequired
  · exact congrArg Except.ok (mod_cast (roundTo_intCast (K := ℚ) 4 (1 : ℤ)).symm)
  · simp only [divide_of_ne_zero (Nat.cast_ne_zero.mpr hrequired)]
    rfl

def detailOf (laplacianVar : List UInt8 → Except String (Option ℚ)) (file : Except String File)
    (schema : ProjectSchema) (topics : List TopicMeta) : QualityDetail :=
  let fpsScore := roundTo 4 (average (topics.filterMap (rateOf schema.expected)))
  let completeness := roundTo 4 (fractionPresent schema.required (topics.map TopicMeta.name))
  let signal := scoreSignalQuality laplacianVar file topics
  ⟨fpsScore, completeness, signal, totalScore fpsScore completeness signal⟩

theorem score_eq (laplacianVar : List UInt8 → Except String (Option ℚ)) (file : Except String File)
    (schema : ProjectSchema) (episodeMeta : EpisodeMeta) :
    score laplacianVar file schema episodeMeta =
      .ok ((detailOf laplacianVar file schema episodeMeta.topics).totalScore,
        detailOf laplacianVar file schema episodeMeta.topics) := by
  rw [score, scoreFrameRate_eq, scoreCompleteness_eq]
  rfl

end Embedai.QualityScorer
