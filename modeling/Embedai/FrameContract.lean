import Embedai.FrameSearch

namespace Embedai.FrameExtractor

open Mcap NearestSearch

variable {Img : Type} (typestore : Typestore) (cv2 : Imaging Img)

def imageOf (e : Entry) : Option (List UInt8) := (readImage typestore cv2 e).join

def decodableMessages (file : File) (topic : String) : List Entry :=
  (candidates file topic).filter fun e => (imageOf typestore cv2 e).isSome

structure MeetsContract (file : File) (topic : String) (absoluteTargetNs maxTimeDiffNs : ℤ)
    (result : Option FrameResult) : Prop where
  closest : ∀ frame ∈ result, ∃ e ∈ decodableMessages typestore cv2 file topic,
    (∀ f ∈ decodableMessages typestore cv2 file topic, timeDiff absoluteTargetNs e ≤ timeDiff absoluteTargetNs f) ∧
      timeDiff absoluteTargetNs e ≤ maxTimeDiffNs ∧ imageOf typestore cv2 e = some frame.data ∧
        frame.timestampNs = e.message.logTime
  none_iff : result = none ↔
    ¬ ∃ e ∈ decodableMessages typestore cv2 file topic, timeDiff absoluteTargetNs e ≤ maxTimeDiffNs

structure Closest (file : File) (topic : String) (absoluteTargetNs maxTimeDiffNs : ℤ) (e : Entry) : Prop where
  decodable : e ∈ decodableMessages typestore cv2 file topic
  nearest : ∀ f ∈ decodableMessages typestore cv2 file topic,
    timeDiff absoluteTargetNs e ≤ timeDiff absoluteTargetNs f
  within : timeDiff absoluteTargetNs e ≤ maxTimeDiffNs

def Finds (p : Entry → Prop) (l : List Entry) (absoluteTargetNs maxTimeDiffNs : ℤ) : Prop :=
  ∃ before e after, l = before ++ e :: after ∧ p e ∧ (imageOf typestore cv2 e).isSome ∧
    ArrivesAt (timeDiff absoluteTargetNs) maxTimeDiffNs (readImage typestore cv2) before e after

def StandsIn (p : Entry → Prop) (l : List Entry) (absoluteTargetNs maxTimeDiffNs : ℤ) : Prop :=
  ∃ e before q after earlier, p e ∧ l = before ++ q :: after ∧ readImage typestore cv2 q = none ∧
    ArrivesAt (timeDiff absoluteTargetNs) maxTimeDiffNs (readImage typestore cv2) before q after ∧
    q.message.logTime = e.message.logTime ∧
    LastNearer (timeDiff absoluteTargetNs) (fun b => (readImage typestore cv2 b).isSome) before earlier ∧
    imageOf typestore cv2 earlier = imageOf typestore cv2 e

def Displaced (l : List Entry) (absoluteTargetNs maxTimeDiffNs : ℤ) : Prop :=
  ∀ before e after, l = before ++ e :: after → (imageOf typestore cv2 e).isSome →
    Nearer (timeDiff absoluteTargetNs) before e → ∃ between c rest, after = between ++ c :: rest ∧
      readImage typestore cv2 c = some none ∧
      Approaches (timeDiff absoluteTargetNs) maxTimeDiffNs (readImage typestore cv2) (before ++ e :: between) c

def ContractKept (file : File) (topic : String) (absoluteTargetNs maxTimeDiffNs : ℤ) : Prop :=
  (∀ e ∈ decodableMessages typestore cv2 file topic, maxTimeDiffNs < timeDiff absoluteTargetNs e) ∧
      (Listed file topic → Displaced typestore cv2 (candidates file topic) absoluteTargetNs maxTimeDiffNs) ∨
    Listed file topic ∧
      (Finds typestore cv2 (Closest typestore cv2 file topic absoluteTargetNs maxTimeDiffNs) (candidates file topic)
          absoluteTargetNs maxTimeDiffNs ∨
        StandsIn typestore cv2 (Closest typestore cv2 file topic absoluteTargetNs maxTimeDiffNs)
          (candidates file topic) absoluteTargetNs maxTimeDiffNs)

variable {typestore cv2} {file : File} {topic : String} {absoluteTargetNs maxTimeDiffNs : ℤ}

theorem imageOf_eq_some {e : Entry} {data : List UInt8} :
    imageOf typestore cv2 e = some data ↔ readImage typestore cv2 e = some (some data) := by
  rw [imageOf, Option.join_eq_some_iff]

theorem frameOf_eq_some {b : FrameBest} {frame : FrameResult} :
    frameOf b = some frame ↔
      ∃ q data, b = ⟨some q, some (some data)⟩ ∧ frame = ⟨data, q.message.logTime, "jpeg"⟩ := by
  constructor
  · intro h
    obtain ⟨data, hdata, hframe⟩ := Option.bind_eq_some_iff.mp h
    obtain ⟨q, hq, rfl⟩ := Option.map_eq_some_iff.mp hframe
    refine ⟨q, data, ?_, rfl⟩
    cases b
    rw [Option.join_eq_some_iff] at hdata
    cases hq
    cases hdata
    rfl
  · rintro ⟨q, data, rfl, rfl⟩
    rfl

theorem mem_decodableMessages {e : Entry} :
    e ∈ decodableMessages typestore cv2 file topic ↔
      e ∈ candidates file topic ∧ (imageOf typestore cv2 e).isSome := by
  rw [decodableMessages, List.mem_filter]

theorem frame_iff {l : List Entry} {frame : FrameResult} :
    frameOf (findNearest typestore cv2 absoluteTargetNs maxTimeDiffNs l) = some frame ↔
      ∃ before q after, l = before ++ q :: after ∧
        ArrivesAt (timeDiff absoluteTargetNs) maxTimeDiffNs (readImage typestore cv2) before q after ∧
        frame.timestampNs = q.message.logTime ∧ frame.format = "jpeg" ∧
        (imageOf typestore cv2 q = some frame.data ∨ readImage typestore cv2 q = none ∧ ∃ earlier,
          LastNearer (timeDiff absoluteTargetNs) (fun b => (readImage typestore cv2 b).isSome) before earlier ∧
            imageOf typestore cv2 earlier = some frame.data) := by
  simp only [imageOf_eq_some]
  rw [frameOf_eq_some]
  constructor
  · rintro ⟨q, data, hsearch, rfl⟩
    obtain ⟨before, after, hl, harrives, hread⟩ := search_eq_iff.mp hsearch
    exact ⟨before, q, after, hl, harrives, rfl, rfl, hread⟩
  · rintro ⟨before, q, after, hl, harrives, htime, hformat, hread⟩
    refine ⟨q, frame.data, search_eq_iff.mpr ⟨before, after, hl, harrives, hread⟩, ?_⟩
    cases frame
    cases htime
    cases hformat
    rfl

theorem Closest.of_same {e q : Entry} (h : Closest typestore cv2 file topic absoluteTargetNs maxTimeDiffNs e)
    (hq : q ∈ candidates file topic) (htime : q.message.logTime = e.message.logTime)
    (himage : imageOf typestore cv2 q = imageOf typestore cv2 e) :
    Closest typestore cv2 file topic absoluteTargetNs maxTimeDiffNs q := by
  have hdiff : timeDiff absoluteTargetNs q = timeDiff absoluteTargetNs e := by rw [timeDiff, htime, timeDiff]
  have hsome := (mem_decodableMessages.mp h.decodable).2
  refine ⟨mem_decodableMessages.mpr ⟨hq, himage ▸ hsome⟩, ?_, ?_⟩
  · rw [hdiff]
    exact h.nearest
  · rw [hdiff]
    exact h.within

theorem frame_of_closest_iff :
    (∃ frame e, frameOf (findNearest typestore cv2 absoluteTargetNs maxTimeDiffNs (candidates file topic)) =
        some frame ∧ Closest typestore cv2 file topic absoluteTargetNs maxTimeDiffNs e ∧
        imageOf typestore cv2 e = some frame.data ∧ frame.timestampNs = e.message.logTime) ↔
      Finds typestore cv2 (Closest typestore cv2 file topic absoluteTargetNs maxTimeDiffNs) (candidates file topic)
          absoluteTargetNs maxTimeDiffNs ∨
        StandsIn typestore cv2 (Closest typestore cv2 file topic absoluteTargetNs maxTimeDiffNs)
          (candidates file topic) absoluteTargetNs maxTimeDiffNs := by
  constructor
  · rintro ⟨frame, e, hframe, hclosest, himage, htime⟩
    obtain ⟨before, q, after, hl, harrives, hq, -, hread | ⟨hread, earlier, hearlier, hvalue⟩⟩ := frame_iff.mp hframe
    · left
      have hmem : q ∈ candidates file topic := by simp [hl]
      have hclosest := hclosest.of_same hmem (hq.symm.trans htime) (hread.trans himage.symm)
      exact ⟨before, q, after, hl, hclosest, by simp [hread], harrives⟩
    · right
      exact ⟨e, before, q, after, earlier, hclosest, hl, hread, harrives, hq.symm.trans htime, hearlier,
        hvalue.trans himage.symm⟩
  · rintro (⟨before, e, after, hl, hclosest, hsome, harrives⟩ |
      ⟨e, before, q, after, earlier, hclosest, hl, hread, harrives, htime, hearlier, hvalue⟩)
    · obtain ⟨data, hdata⟩ := Option.isSome_iff_exists.mp hsome
      refine ⟨⟨data, e.message.logTime, "jpeg"⟩, e, ?_, hclosest, hdata, rfl⟩
      exact frame_iff.mpr ⟨before, e, after, hl, harrives, rfl, rfl, .inl hdata⟩
    · obtain ⟨data, hdata⟩ := Option.isSome_iff_exists.mp (mem_decodableMessages.mp hclosest.decodable).2
      refine ⟨⟨data, q.message.logTime, "jpeg"⟩, e, ?_, hclosest, hdata, htime⟩
      exact frame_iff.mpr ⟨before, q, after, hl, harrives, rfl, rfl,
        .inr ⟨hread, earlier, hearlier, hvalue.trans hdata⟩⟩

theorem frameOf_eq_none {l : List Entry} :
    frameOf (findNearest typestore cv2 absoluteTargetNs maxTimeDiffNs l) = none ↔
      ∀ e, LastTaken (timeDiff absoluteTargetNs) maxTimeDiffNs (readImage typestore cv2)
        (fun b => (readImage typestore cv2 b).isSome) l e → imageOf typestore cv2 e = none := by
  constructor
  · intro hnone e he
    by_contra himage
    obtain ⟨data, hdata⟩ := Option.ne_none_iff_exists'.mp himage
    have hvalue := search_value.mpr ⟨e, he, imageOf_eq_some.mp hdata⟩
    cases hnearest : (findNearest typestore cv2 absoluteTargetNs maxTimeDiffNs l).nearest with
    | none =>
      have habsent := search_value_of_nearest hnearest
      rw [hvalue] at habsent
      cases habsent
    | some q =>
      rw [frameOf, hnearest, findNearest, hvalue] at hnone
      cases hnone
  · intro h
    cases hframe : frameOf (findNearest typestore cv2 absoluteTargetNs maxTimeDiffNs l) with
    | none => rfl
    | some frame =>
      obtain ⟨q, data, hsearch, -⟩ := frameOf_eq_some.mp hframe
      obtain ⟨e, he, hread⟩ := search_value.mp (congrArg Best.value hsearch)
      have hnone := h e he
      rw [imageOf_eq_some.mpr hread] at hnone
      cases hnone

theorem frameOf_eq_none_iff_displaced {l : List Entry}
    (h : ∀ e ∈ l, (imageOf typestore cv2 e).isSome → maxTimeDiffNs < timeDiff absoluteTargetNs e) :
    frameOf (findNearest typestore cv2 absoluteTargetNs maxTimeDiffNs l) = none ↔
      Displaced typestore cv2 l absoluteTargetNs maxTimeDiffNs := by
  rw [frameOf_eq_none]
  constructor
  · rintro hlast before e after rfl hsome hnearer
    have hfar : maxTimeDiffNs < timeDiff absoluteTargetNs e := h e (by simp) hsome
    -- Nothing before `e` is within the tolerance, so the search comes to it.
    have htaken : TakesUp (timeDiff absoluteTargetNs) maxTimeDiffNs (readImage typestore cv2) before e :=
      ⟨hnearer, passesThrough_of_far fun b hb => le_of_lt (lt_trans hfar (hnearer b hb))⟩
    obtain ⟨data, hdata⟩ := Option.isSome_iff_exists.mp hsome
    have hreadable : (readImage typestore cv2 e).isSome := by rw [imageOf_eq_some.mp hdata]; rfl
    have hlater := htaken.exists_last (p := fun b => (readImage typestore cv2 b).isSome) hreadable after
    rcases hlater with he | ⟨between, c, rest, hafter, hc, hctaken, hclast⟩
    · have hnone := hlast e he
      rw [hdata] at hnone
      cases hnone
    · obtain ⟨image, himage⟩ := Option.isSome_iff_exists.mp hc
      have hnone := hlast c hclast
      rw [imageOf, himage, Option.join_some] at hnone
      exact ⟨between, c, rest, hafter, hnone ▸ himage, hctaken.approaches⟩
  · rintro hdisplaced e ⟨before, after, rfl, -, htaken, hlast⟩
    by_contra himage
    have hsome := Option.isSome_iff_ne_none.mpr himage
    obtain ⟨between, c, rest, hafter, hread, happroach⟩ := hdisplaced before e after rfl hsome htaken.nearer
    exact hlast between c rest hafter (by simp [hread]) happroach.takesUp

theorem meetsContract_iff_of_within (result : Option FrameResult)
    (h : ∃ e ∈ decodableMessages typestore cv2 file topic, timeDiff absoluteTargetNs e ≤ maxTimeDiffNs) :
    MeetsContract typestore cv2 file topic absoluteTargetNs maxTimeDiffNs result ↔
      ∃ frame e, result = some frame ∧ Closest typestore cv2 file topic absoluteTargetNs maxTimeDiffNs e ∧
        imageOf typestore cv2 e = some frame.data ∧ frame.timestampNs = e.message.logTime := by
  constructor
  · intro hcontract
    cases result with
    | none => exact absurd h (hcontract.none_iff.mp rfl)
    | some frame =>
      obtain ⟨e, hmem, hnearest, hwithin, himage, htime⟩ := hcontract.closest frame rfl
      exact ⟨frame, e, rfl, ⟨hmem, hnearest, hwithin⟩, himage, htime⟩
  · rintro ⟨frame, e, rfl, hclosest, himage, htime⟩
    refine ⟨?_, by simpa using h⟩
    rintro frame' hframe'
    cases hframe'
    exact ⟨e, hclosest.decodable, hclosest.nearest, hclosest.within, himage, htime⟩

theorem meetsContract_iff_of_outside (result : Option FrameResult)
    (h : ¬ ∃ e ∈ decodableMessages typestore cv2 file topic, timeDiff absoluteTargetNs e ≤ maxTimeDiffNs) :
    MeetsContract typestore cv2 file topic absoluteTargetNs maxTimeDiffNs result ↔ result = none := by
  constructor
  · intro hcontract
    exact hcontract.none_iff.mpr h
  · rintro rfl
    exact ⟨by simp, by simpa using h⟩

theorem clamp_of_mem {timeRange : Option (ℕ × ℕ)} {t : ℤ}
    (h : ∀ range ∈ timeRange, (range.1 : ℤ) ≤ t ∧ t ≤ range.2) : clamp timeRange t = t := by
  cases timeRange with
  | none => rfl
  | some range =>
    have hmem := h range rfl
    simp only [clamp]
    rw [if_neg (not_lt_of_ge hmem.1), if_neg (not_lt_of_ge hmem.2)]

theorem exists_within {l : List Entry}
    (h : Finds typestore cv2 (Closest typestore cv2 file topic absoluteTargetNs maxTimeDiffNs) l absoluteTargetNs
        maxTimeDiffNs ∨
      StandsIn typestore cv2 (Closest typestore cv2 file topic absoluteTargetNs maxTimeDiffNs) l absoluteTargetNs
        maxTimeDiffNs) :
    ∃ e ∈ decodableMessages typestore cv2 file topic, timeDiff absoluteTargetNs e ≤ maxTimeDiffNs := by
  rcases h with ⟨_, e, _, _, hclosest, _⟩ | ⟨e, _, _, _, _, hclosest, _⟩
  · exact ⟨e, hclosest.decodable, hclosest.within⟩
  · exact ⟨e, hclosest.decodable, hclosest.within⟩

theorem meetsContract_iff (file : File) (topic : String) (targetTimestampNs maxTimeDiffNs timeOffsetNs : ℤ)
    (hrange : ∀ range ∈ getTimeRange file, (range.1 : ℤ) ≤ targetTimestampNs + timeOffsetNs ∧
      targetTimestampNs + timeOffsetNs ≤ range.2) :
    MeetsContract typestore cv2 file topic (targetTimestampNs + timeOffsetNs) maxTimeDiffNs
        (extractFrame typestore cv2 file topic targetTimestampNs maxTimeDiffNs timeOffsetNs) ↔
      ContractKept typestore cv2 file topic (targetTimestampNs + timeOffsetNs) maxTimeDiffNs := by
  rw [extractFrame_eq, clamp_of_mem hrange]
  by_cases hwithin : ∃ e ∈ decodableMessages typestore cv2 file topic,
      timeDiff (targetTimestampNs + timeOffsetNs) e ≤ maxTimeDiffNs
  · rw [meetsContract_iff_of_within _ hwithin, ContractKept]
    have hsome : ¬ ∀ e ∈ decodableMessages typestore cv2 file topic,
        maxTimeDiffNs < timeDiff (targetTimestampNs + timeOffsetNs) e := by
      obtain ⟨e, he, hle⟩ := hwithin
      exact fun h => not_lt_of_ge hle (h e he)
    rw [or_iff_right fun h => hsome h.1]
    by_cases hlisted : Listed file topic
    · rw [if_pos hlisted, and_iff_right hlisted]
      exact frame_of_closest_iff
    · simp [hlisted]
  · have hfar : ∀ e ∈ decodableMessages typestore cv2 file topic,
        maxTimeDiffNs < timeDiff (targetTimestampNs + timeOffsetNs) e := by
      intro e he
      by_contra hle
      exact hwithin ⟨e, he, le_of_not_gt hle⟩
    rw [meetsContract_iff_of_outside _ hwithin, ContractKept, or_iff_left fun h => hwithin (exists_within h.2),
      and_iff_right hfar]
    by_cases hlisted : Listed file topic
    · rw [if_pos hlisted, frameOf_eq_none_iff_displaced]
      · exact ⟨fun h _ => h, fun h => h hlisted⟩
      · exact fun e he hsome => hfar e (mem_decodableMessages.mpr ⟨he, hsome⟩)
    · simp [hlisted]

theorem twoFrames_target :
    ∀ range ∈ getTimeRange twoFrames, (range.1 : ℤ) ≤ 50000000 + 0 ∧ 50000000 + 0 ≤ (range.2 : ℤ) := by
  intro range h
  cases h
  decide

theorem meetsContract_iff_twoFrames :
    MeetsContract compressedStore withoutCv2 twoFrames "/camera/image" (50000000 + 0) 100000000
        (extractFrame compressedStore withoutCv2 twoFrames "/camera/image" 50000000 100000000 0) ↔
      ContractKept compressedStore withoutCv2 twoFrames "/camera/image" (50000000 + 0) 100000000 :=
  meetsContract_iff twoFrames "/camera/image" 50000000 100000000 0 twoFrames_target

theorem first_within_not_closest :
    (∀ range ∈ getTimeRange twoFrames, (range.1 : ℤ) ≤ 50000000 + 0 ∧ 50000000 + 0 ≤ (range.2 : ℤ)) ∧
      ¬ MeetsContract compressedStore withoutCv2 twoFrames "/camera/image" (50000000 + 0) 100000000
        (extractFrame compressedStore withoutCv2 twoFrames "/camera/image" 50000000 100000000 0) := by
  refine ⟨twoFrames_target, fun h => ?_⟩
  obtain ⟨e, -, hnearest, -, -, htime⟩ := h.closest ⟨[1], 0, "jpeg"⟩ rfl
  have hsecond : cameraMessage 50000000 [2] ∈ decodableMessages compressedStore withoutCv2 twoFrames "/camera/image" :=
    mem_decodableMessages.mpr ⟨.tail _ (.head _), rfl⟩
  have hle := hnearest _ hsecond
  rw [timeDiff, ← htime] at hle
  exact absurd hle (by decide)

end Embedai.FrameExtractor
