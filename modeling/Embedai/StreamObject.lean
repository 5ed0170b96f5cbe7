import Mathlib.Algebra.Order.Ring.Nat
import Embedai.FrameSlices
import Embedai.StreamDurability

namespace Embedai.StreamServer

open Slices

namespace SliceBuffer

/-- The snapshot is sorted in an array of its own. -/
def serialize (marshal : StreamFrame → Option (List UInt8)) (sorted : SeqSort) (b : SliceBuffer) :
    Option (List UInt8) × SliceBuffer :=
  let snapshot := b.heap.sortedCopy nilFrame sorted.sort b.frames
  have hsorted := Heap.sortedCopy_spec nilFrame (fun frames => (sorted.perm frames).length_eq) b.inBounds
  (encode marshal (snapshot.2.elems snapshot.1), { b with heap := snapshot.2, inBounds := hsorted.2.2 })

variable {marshal : StreamFrame → Option (List UInt8)} {sorted : SeqSort}

theorem serialize_view (b : SliceBuffer) : (b.serialize marshal sorted).1 = b.view.serialize marshal sorted := by
  obtain ⟨hsnapshot, -⟩ := Heap.sortedCopy_spec nilFrame (fun frames => (sorted.perm frames).length_eq) b.inBounds
  exact congrArg (encode marshal) hsnapshot

theorem view_serialize (b : SliceBuffer) : (b.serialize marshal sorted).2.view = b.view := by
  obtain ⟨-, hsame, -⟩ := Heap.sortedCopy_spec nilFrame (fun frames => (sorted.perm frames).length_eq) b.inBounds
  exact congrArg (fun frames => FrameBuffer.mk frames b.maxAge b.lastSeq) hsame

end SliceBuffer

def bigEndian (b3 b2 b1 b0 : UInt8) : ℕ := b3.toNat * 2 ^ 24 + b2.toNat * 2 ^ 16 + b1.toNat * 2 ^ 8 + b0.toNat

def readRecord : List UInt8 → Option (List UInt8 × List UInt8)
  | b3 :: b2 :: b1 :: b0 :: rest =>
    if bigEndian b3 b2 b1 b0 ≤ rest.length then some (rest.splitAt (bigEndian b3 b2 b1 b0)) else none
  | _ => none

theorem length_of_readRecord {object data rest : List UInt8} (h : readRecord object = some (data, rest)) :
    rest.length < object.length := by
  match object with
  | b3 :: b2 :: b1 :: b0 :: tail =>
    rw [readRecord] at h
    split_ifs at h
    rw [List.splitAt_eq] at h
    cases h
    rw [List.length_drop]
    simp only [List.length_cons]
    omega
  | [] | [_] | [_, _] | [_, _, _] => cases h

def readRecords (object : List UInt8) : Option (List (List UInt8)) :=
  if object = [] then some []
  else
    match _h : readRecord object with
    | none => none
    | some (data, rest) => (readRecords rest).map (data :: ·)
termination_by object.length
decreasing_by exact length_of_readRecord _h

def readFrames (unmarshal : List UInt8 → Option StreamFrame) (object : List UInt8) : Option (List StreamFrame) :=
  (readRecords object).bind (fun records => records.mapM unmarshal)

theorem bigEndian_lengthPrefix {n : ℕ} (hn : n < 2 ^ 32) :
    bigEndian (UInt8.ofNat (n / 2 ^ 24)) (UInt8.ofNat (n / 2 ^ 16)) (UInt8.ofNat (n / 2 ^ 8)) (UInt8.ofNat n) = n := by
  simp only [bigEndian, UInt8.toNat_ofNat']
  omega

theorem readRecord_record {data rest : List UInt8} (hdata : data.length < 2 ^ 32) :
    readRecord (lengthPrefix data.length ++ data ++ rest) = some (data, rest) := by
  rw [lengthPrefix, List.append_assoc, List.cons_append, List.cons_append, List.cons_append, List.cons_append,
    List.nil_append, readRecord, bigEndian_lengthPrefix hdata, if_pos (by rw [List.length_append]; omega),
    List.splitAt_eq, List.take_left, List.drop_left]

theorem readRecords_record {data rest : List UInt8} (hdata : data.length < 2 ^ 32) :
    readRecords (lengthPrefix data.length ++ data ++ rest) = (readRecords rest).map (data :: ·) := by
  have hne : lengthPrefix data.length ++ data ++ rest ≠ [] := by
    simp [lengthPrefix]
  rw [readRecords, if_neg hne]
  split
  · rename_i hnone
    rw [readRecord_record hdata] at hnone
    cases hnone
  · rename_i hsome
    rw [readRecord_record hdata] at hsome
    cases hsome
    rfl

theorem readFrames_encode {marshal : StreamFrame → Option (List UInt8)} {unmarshal : List UInt8 → Option StreamFrame}
    {frames : List StreamFrame}
    (h : ∀ f ∈ frames, ∃ data, marshal f = some data ∧ data.length < 2 ^ 32 ∧ unmarshal data = some f) :
    ∃ object, encode marshal frames = some object ∧ readFrames unmarshal object = some frames := by
  induction frames with
  | nil =>
    refine ⟨[], rfl, ?_⟩
    rw [readFrames, readRecords]
    rfl
  | cons f frames ih =>
    obtain ⟨data, hmarshal, hlength, hunmarshal⟩ := h f (List.mem_cons_self ..)
    obtain ⟨object, hencode, hread⟩ := ih (fun g hg => h g (List.mem_cons_of_mem _ hg))
    obtain ⟨parts, hparts, rfl⟩ := Option.map_eq_some_iff.mp hencode
    obtain ⟨records, hrecords, hframes⟩ := Option.bind_eq_some_iff.mp hread
    refine ⟨lengthPrefix data.length ++ data ++ parts.flatten, ?_, ?_⟩
    · rw [encode, List.mapM_cons, record, hmarshal, hparts]
      rfl
    · rw [readFrames, readRecords_record hlength, hrecords, Option.map_some, Option.bind_some, List.mapM_cons,
        hunmarshal, hframes]
      rfl

theorem stream_object_roundTrip (marshal : StreamFrame → Option (List UInt8))
    (unmarshal : List UInt8 → Option StreamFrame) (sorted : SeqSort) (b : SliceBuffer)
    (h : ∀ f ∈ b.elems, ∃ data, marshal f = some data ∧ data.length < 2 ^ 32 ∧ unmarshal data = some f) :
    (∃ object frames, (b.serialize marshal sorted).1 = some object ∧ readFrames unmarshal object = some frames ∧
      frames.Perm b.elems ∧ frames.Pairwise (fun f g => f.seqNum ≤ g.seqNum)) ∧
    (b.serialize marshal sorted).2.view = b.view := by
  have hperm := sorted.perm b.elems
  obtain ⟨object, hencode, hread⟩ := readFrames_encode (fun f hf => h f (hperm.mem_iff.mp hf))
  refine ⟨⟨object, sorted.sort b.elems, ?_, hread, hperm, sorted.nondecreasing b.elems⟩, b.view_serialize⟩
  rw [b.serialize_view]
  exact hencode

/-- The fields of a message that has single-byte numbers, and no texts. -/
def shortFields : ℕ → List UInt8 → StreamFrame → Option StreamFrame
  | _, [], f => some f
  | n + 1, 32 :: seqNum :: rest, f => shortFields n rest { f with seqNum := seqNum.toNat }
  | n + 1, 40 :: timestampNs :: rest, f => shortFields n rest { f with timestampNs := timestampNs.toNat }
  | n + 1, 58 :: len :: rest, f =>
    shortFields n (rest.drop len.toNat) { f with payload := rest.take len.toNat }
  | n + 1, 64 :: isLast :: rest, f => shortFields n rest { f with isLast := isLast ≠ 0 }
  | _, _, _ => none

def shortUnmarshal (data : List UInt8) : Option StreamFrame := shortFields data.length data nilFrame

def threeBuffered : SliceBuffer :=
  .after (fun n => n) window [.add (frameAt 2 7 [1, 2] false), .add (frameAt 1 9 [] true), .add (frameAt 0 0 [] false)]

theorem stream_object_roundTrip_threeBuffered :
    (∃ object frames, (threeBuffered.serialize protoMarshal mergeSeqSort).1 = some object ∧
      readFrames shortUnmarshal object = some frames ∧ frames.Perm threeBuffered.elems ∧
      frames.Pairwise (fun f g => f.seqNum ≤ g.seqNum)) ∧
    (threeBuffered.serialize protoMarshal mergeSeqSort).2.view = threeBuffered.view := by
  have helems : threeBuffered.elems = [frameAt 2 7 [1, 2] false, frameAt 1 9 [] true, frameAt 0 0 [] false] := by
    decide
  apply stream_object_roundTrip
  intro f hf
  rw [helems] at hf
  simp only [List.mem_cons, List.not_mem_nil, or_false] at hf
  rcases hf with rfl | rfl | rfl
  · exact ⟨_, rfl, by decide, by decide⟩
  · exact ⟨_, rfl, by decide, by decide⟩
  · exact ⟨_, rfl, by decide, by decide⟩

end Embedai.StreamServer
