import Embedai.FrameContract

namespace Embedai.FrameExtractor

open Mcap NearestSearch

variable {Img : Type} (typestore : Typestore) (cv2 : Imaging Img)

def withoutUndecodable (file : File) : File :=
  { file with messages := file.messages.filter fun e => (imageOf typestore cv2 e).isSome }

variable {typestore cv2} {file : File} {topic : String} {absoluteTargetNs maxTimeDiffNs : ℤ}

theorem candidates_withoutUndecodable :
    candidates (withoutUndecodable typestore cv2 file) topic = decodableMessages typestore cv2 file topic := by
  rw [candidates, withoutUndecodable, decodableMessages, candidates, List.filter_filter, List.filter_filter]
  apply List.filter_congr
  intro e _
  rw [Bool.and_comm]

theorem frame_decodableMessages {a : Entry}
    (h : answer (timeDiff absoluteTargetNs) maxTimeDiffNs (decodableMessages typestore cv2 file topic) = some a) :
    ∃ data, imageOf typestore cv2 a = some data ∧
      frameOf (findNearest typestore cv2 absoluteTargetNs maxTimeDiffNs (decodableMessages typestore cv2 file topic)) =
        some ⟨data, a.message.logTime, "jpeg"⟩ := by
  have hdecodes : ∀ e ∈ decodableMessages typestore cv2 file topic,
      ∃ data, readImage typestore cv2 e = some (some data) := by
    intro e he
    obtain ⟨data, hdata⟩ := Option.isSome_iff_exists.mp (mem_decodableMessages.mp he).2
    exact ⟨data, imageOf_eq_some.mp hdata⟩
  obtain ⟨data, hdata⟩ := hdecodes a (answer_mem h)
  refine ⟨data, imageOf_eq_some.mpr hdata, ?_⟩
  rw [findNearest_of_decodes hdecodes, h, Option.bind_some, hdata]
  rfl

theorem arrivesAt_decodable {before after : List Entry} {e : Entry} (hsome : (imageOf typestore cv2 e).isSome)
    (h : ArrivesAt (timeDiff absoluteTargetNs) maxTimeDiffNs (readImage typestore cv2) before e after) :
    ArrivesAt (timeDiff absoluteTargetNs) maxTimeDiffNs (readImage typestore cv2)
      (before.filter fun b => (imageOf typestore cv2 b).isSome) e
      (after.filter fun b => (imageOf typestore cv2 b).isSome) := by
  obtain ⟨⟨far, run, rfl, hfar, hrun, -⟩, -, hnearest⟩ := h
  have hnone : run.filter (fun b => (imageOf typestore cv2 b).isSome) = [] := by
    rw [List.filter_eq_nil_iff]
    intro b hb
    simp [imageOf, (hrun b hb).2]
  refine ⟨⟨far.filter fun b => (imageOf typestore cv2 b).isSome, [], ?_, ?_, ?_, ?_⟩, ?_, ?_⟩
  · rw [List.filter_append, hnone]
  · exact fun b hb => hfar b (List.mem_of_mem_filter hb)
  · simp
  · exact List.pairwise_singleton _ _
  · intro _ hread
    rw [imageOf, hread] at hsome
    cases hsome
  · exact fun hle c hc => hnearest hle c (List.mem_of_mem_filter hc)

theorem frame_of_finds
    (h : Finds typestore cv2 (fun _ => True) (candidates file topic) absoluteTargetNs maxTimeDiffNs) :
    frameOf (findNearest typestore cv2 absoluteTargetNs maxTimeDiffNs (candidates file topic)) =
      frameOf (findNearest typestore cv2 absoluteTargetNs maxTimeDiffNs
        (decodableMessages typestore cv2 file topic)) := by
  obtain ⟨before, e, after, hl, -, hsome, harrives⟩ := h
  obtain ⟨data, hdata⟩ := Option.isSome_iff_exists.mp hsome
  have hdecodable : decodableMessages typestore cv2 file topic =
      before.filter (fun b => (imageOf typestore cv2 b).isSome) ++
        e :: after.filter (fun b => (imageOf typestore cv2 b).isSome) := by
    rw [decodableMessages, hl, List.filter_append, List.filter_cons, if_pos hsome]
  have hframe : frameOf (findNearest typestore cv2 absoluteTargetNs maxTimeDiffNs (candidates file topic)) =
      some ⟨data, e.message.logTime, "jpeg"⟩ :=
    frame_iff.mpr ⟨before, e, after, hl, harrives, rfl, rfl, .inl hdata⟩
  rw [hframe]
  exact (frame_iff.mpr ⟨_, e, _, hdecodable, arrivesAt_decodable hsome harrives, rfl, rfl, .inl hdata⟩).symm

theorem frame_of_standsIn {a : Entry}
    (ha : answer (timeDiff absoluteTargetNs) maxTimeDiffNs (decodableMessages typestore cv2 file topic) = some a)
    (h : StandsIn typestore cv2 (fun e => e = a) (candidates file topic) absoluteTargetNs maxTimeDiffNs) :
    frameOf (findNearest typestore cv2 absoluteTargetNs maxTimeDiffNs (candidates file topic)) =
      frameOf (findNearest typestore cv2 absoluteTargetNs maxTimeDiffNs
        (decodableMessages typestore cv2 file topic)) := by
  obtain ⟨e, before, q, after, earlier, rfl, hl, hread, harrives, htime, hearlier, himage⟩ := h
  obtain ⟨data, hdata, hframe⟩ := frame_decodableMessages ha
  rw [hframe]
  exact frame_iff.mpr ⟨before, q, after, hl, harrives, htime.symm, rfl,
    .inr ⟨hread, earlier, hearlier, himage.trans hdata⟩⟩

theorem not_frame_of_nil (h : decodableMessages typestore cv2 file topic = []) :
    frameOf (findNearest typestore cv2 absoluteTargetNs maxTimeDiffNs (candidates file topic)) = none := by
  cases hframe : frameOf (findNearest typestore cv2 absoluteTargetNs maxTimeDiffNs (candidates file topic)) with
  | none => rfl
  | some frame =>
    have himage : ∃ e ∈ candidates file topic, imageOf typestore cv2 e = some frame.data := by
      obtain ⟨before, q, after, hl, -, -, -, hq | ⟨-, earlier, ⟨_, _, rfl, -⟩, hearlier⟩⟩ := frame_iff.mp hframe
      · exact ⟨q, by simp [hl], hq⟩
      · exact ⟨earlier, by simp [hl], hearlier⟩
    obtain ⟨e, he, hdata⟩ := himage
    have hmem : e ∈ decodableMessages typestore cv2 file topic := mem_decodableMessages.mpr ⟨he, by simp [hdata]⟩
    rw [h] at hmem
    cases hmem

theorem frames_agree_iff {a : Entry}
    (ha : answer (timeDiff absoluteTargetNs) maxTimeDiffNs (decodableMessages typestore cv2 file topic) = some a) :
    frameOf (findNearest typestore cv2 absoluteTargetNs maxTimeDiffNs (candidates file topic)) =
        frameOf (findNearest typestore cv2 absoluteTargetNs maxTimeDiffNs
          (decodableMessages typestore cv2 file topic)) ↔
      Finds typestore cv2 (fun _ => True) (candidates file topic) absoluteTargetNs maxTimeDiffNs ∨
        StandsIn typestore cv2 (fun e => e = a) (candidates file topic) absoluteTargetNs maxTimeDiffNs := by
  constructor
  · intro hagree
    obtain ⟨data, hdata, hframe⟩ := frame_decodableMessages ha
    obtain ⟨before, q, after, hl, harrives, htime, -, hq | ⟨hread, earlier, hearlier, himage⟩⟩ :=
      frame_iff.mp (hagree.trans hframe)
    · exact .inl ⟨before, q, after, hl, trivial, by simp [hq], harrives⟩
    · exact .inr ⟨a, before, q, after, earlier, rfl, hl, hread, harrives, htime.symm, hearlier, himage.trans hdata.symm⟩
  · rintro (hfinds | hstands)
    · exact frame_of_finds hfinds
    · exact frame_of_standsIn ha hstands

def UndecodableHarmless (typestore : Typestore) (cv2 : Imaging Img) (file : File) (topic : String)
    (absoluteTargetNs maxTimeDiffNs : ℤ) : Prop :=
  ∀ a, answer (timeDiff absoluteTargetNs) maxTimeDiffNs (decodableMessages typestore cv2 file topic) = some a →
    Finds typestore cv2 (fun _ => True) (candidates file topic) absoluteTargetNs maxTimeDiffNs ∨
      StandsIn typestore cv2 (fun e => e = a) (candidates file topic) absoluteTargetNs maxTimeDiffNs

theorem extractFrame_withoutUndecodable_iff (file : File) (topic : String)
    (targetTimestampNs maxTimeDiffNs timeOffsetNs : ℤ) :
    extractFrame typestore cv2 file topic targetTimestampNs maxTimeDiffNs timeOffsetNs =
        extractFrame typestore cv2 (withoutUndecodable typestore cv2 file) topic targetTimestampNs maxTimeDiffNs
          timeOffsetNs ↔
      (Listed file topic → UndecodableHarmless typestore cv2 file topic
        (clamp (getTimeRange file) (targetTimestampNs + timeOffsetNs)) maxTimeDiffNs) := by
  rw [extractFrame_eq, extractFrame_eq, candidates_withoutUndecodable]
  change (if Listed file topic then _ else _) = (if Listed file topic then frameOf (findNearest typestore cv2
    (clamp (getTimeRange file) _) _ _) else _) ↔ _
  by_cases hlisted : Listed file topic
  · rw [if_pos hlisted, if_pos hlisted, forall_prop_of_true hlisted, UndecodableHarmless]
    cases ha : answer (timeDiff (clamp (getTimeRange file) (targetTimestampNs + timeOffsetNs))) maxTimeDiffNs
        (decodableMessages typestore cv2 file topic) with
    | none =>
      have hnil := answer_eq_none.mp ha
      rw [not_frame_of_nil hnil, hnil]
      simp [findNearest, search, frameOf]
    | some a =>
      rw [frames_agree_iff ha]
      simp
  · rw [if_neg hlisted, if_neg hlisted]
    exact iff_of_true rfl fun h => absurd h hlisted

def shadowedFrame : File := cameraFile [⟨some cameraSchema, cameraChannel, ⟨0, []⟩⟩, cameraMessage 1000000 [1]]

theorem undecodable_shadows_frame :
    extractFrame compressedStore withoutCv2 shadowedFrame "/camera/image" 0 100000000 0 ≠
      extractFrame compressedStore withoutCv2 (withoutUndecodable compressedStore withoutCv2 shadowedFrame)
        "/camera/image" 0 100000000 0 := by
  have hnone : extractFrame compressedStore withoutCv2 shadowedFrame "/camera/image" 0 100000000 0 = none := rfl
  have hsome : extractFrame compressedStore withoutCv2 (withoutUndecodable compressedStore withoutCv2 shadowedFrame)
      "/camera/image" 0 100000000 0 = some ⟨[1], 1000000, "jpeg"⟩ := rfl
  rw [hnone, hsome]
  exact Option.some_ne_none _ ∘ Eq.symm

end Embedai.FrameExtractor
