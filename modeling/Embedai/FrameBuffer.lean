import Mathlib.Algebra.Ring.Int.Defs
import Mathlib.Algebra.Ring.Nat
import Mathlib.Data.List.Perm.Basic
import Mathlib.Tactic.Common
import Embedai.ListMaps

namespace Embedai.StreamServer

structure StreamFrame where
  sessionId : String
  projectId : String
  robotId : String
  seqNum : ℕ
  timestampNs : ℤ
  topic : String
  payload : List UInt8
  isLast : Bool
  deriving DecidableEq

structure FrameBuffer where
  frames : List StreamFrame
  maxAge : ℤ
  lastSeq : ℕ

namespace FrameBuffer

def new (maxAge : ℤ) : FrameBuffer := ⟨[], maxAge, 0⟩

def evictExpired (b : FrameBuffer) (nowNs : ℤ) : FrameBuffer :=
  let cutoff := nowNs - b.maxAge
  { b with frames := b.frames.filter (fun f => cutoff ≤ f.timestampNs) }

def add (b : FrameBuffer) (f : StreamFrame) : FrameBuffer :=
  let b := { b with
    frames := b.frames ++ [f]
    lastSeq := if b.lastSeq < f.seqNum then f.seqNum else b.lastSeq }
  if 0 < f.timestampNs then b.evictExpired f.timestampNs else b

def len (b : FrameBuffer) : ℕ := b.frames.length

def reset (b : FrameBuffer) : FrameBuffer := { b with frames := [], lastSeq := 0 }

end FrameBuffer

/-- `sort.Slice` by sequence number: frames of one number may come in any order. -/
structure SeqSort where
  sort : List StreamFrame → List StreamFrame
  perm : ∀ frames, (sort frames).Perm frames
  nondecreasing : ∀ frames, (sort frames).Pairwise (fun f g => f.seqNum ≤ g.seqNum)

def lengthPrefix (n : ℕ) : List UInt8 :=
  [UInt8.ofNat (n / 2 ^ 24), UInt8.ofNat (n / 2 ^ 16), UInt8.ofNat (n / 2 ^ 8), UInt8.ofNat n]

variable (marshal : StreamFrame → Option (List UInt8))

def record (f : StreamFrame) : Option (List UInt8) :=
  (marshal f).map (fun data => lengthPrefix data.length ++ data)

def encode (frames : List StreamFrame) : Option (List UInt8) := (frames.mapM (record marshal)).map List.flatten

def FrameBuffer.serialize (sorted : SeqSort) (b : FrameBuffer) : Option (List UInt8) :=
  encode marshal (sorted.sort b.frames)

def Contains (object : List UInt8) (f : StreamFrame) : Prop :=
  ∃ frames, encode marshal frames = some object ∧ f ∈ frames

def varint : ℕ → ℕ → List UInt8
  | 0, _ => []
  | fuel + 1, n => if n < 128 then [UInt8.ofNat n] else UInt8.ofNat (n % 128 + 128) :: varint fuel (n / 128)

def varintField (number n : ℕ) : List UInt8 := if n = 0 then [] else varint 10 (8 * number) ++ varint 10 n

def bytesField (number : ℕ) (data : List UInt8) : List UInt8 :=
  if data = [] then [] else varint 10 (8 * number + 2) ++ varint 10 data.length ++ data

def stringField (number : ℕ) (text : String) : List UInt8 :=
  bytesField number (text.toList.flatMap String.utf8EncodeChar)

def protoMarshal (f : StreamFrame) : Option (List UInt8) :=
  some (stringField 1 f.sessionId ++ stringField 2 f.projectId ++ stringField 3 f.robotId ++ varintField 4 f.seqNum ++
    varintField 5 (f.timestampNs % 2 ^ 64).toNat ++ stringField 6 f.topic ++ bytesField 7 f.payload ++
    varintField 8 f.isLast.toNat)

def Expires (maxAge : ℤ) (f g : StreamFrame) : Prop := 0 < g.timestampNs ∧ f.timestampNs < g.timestampNs - maxAge

instance (maxAge : ℤ) (f g : StreamFrame) : Decidable (Expires maxAge f g) :=
  inferInstanceAs (Decidable (_ ∧ _))

def survivors (maxAge : ℤ) : List StreamFrame → List StreamFrame
  | [] => []
  | f :: later => if ∃ g ∈ f :: later, Expires maxAge f g then survivors maxAge later else f :: survivors maxAge later

theorem frames_add (b : FrameBuffer) (g : StreamFrame) :
    (b.add g).frames = (b.frames ++ [g]).filter (fun f => ¬ Expires b.maxAge f g) := by
  by_cases hg : 0 < g.timestampNs
  · simp only [FrameBuffer.add, hg, if_true, FrameBuffer.evictExpired, Expires, true_and, Int.not_lt]
  · simp only [FrameBuffer.add, hg, if_false, Expires, false_and, not_false_iff, decide_true, List.filter_true]

theorem maxAge_add (b : FrameBuffer) (g : StreamFrame) : (b.add g).maxAge = b.maxAge := by
  by_cases hg : 0 < g.timestampNs <;> simp only [FrameBuffer.add, FrameBuffer.evictExpired, hg, if_true, if_false]

theorem survivors_append (maxAge : ℤ) (fs : List StreamFrame) (g : StreamFrame) :
    survivors maxAge (fs ++ [g]) = (survivors maxAge fs ++ [g]).filter (fun f => ¬ Expires maxAge f g) := by
  induction fs with
  | nil =>
    by_cases hg : Expires maxAge g g <;> simp [survivors, hg]
  | cons f fs ih =>
    rw [List.cons_append, survivors, survivors, ih]
    by_cases hold : ∃ h ∈ f :: fs, Expires maxAge f h
    · obtain ⟨h, hmem, hexp⟩ := hold
      have hlater : ∃ h ∈ f :: (fs ++ [g]), Expires maxAge f h :=
        ⟨h, List.mem_append_left [g] hmem, hexp⟩
      rw [if_pos hlater, if_pos ⟨h, hmem, hexp⟩]
    · rw [if_neg hold, List.cons_append, List.filter_cons]
      have hiff : (∃ h ∈ f :: (fs ++ [g]), Expires maxAge f h) ↔ Expires maxAge f g := by
        constructor
        · rintro ⟨h, hmem, hexp⟩
          rcases List.mem_append.mp (show h ∈ (f :: fs) ++ [g] from hmem) with hmem | hmem
          · exact absurd ⟨h, hmem, hexp⟩ hold
          · exact List.mem_singleton.mp hmem ▸ hexp
        · exact fun hexp => ⟨g, by simp, hexp⟩
      by_cases hg : Expires maxAge f g
      · rw [if_pos (hiff.mpr hg)]
        simp [hg]
      · rw [if_neg (fun h => hg (hiff.mp h))]
        simp [hg]

theorem mem_survivors {maxAge : ℤ} {fs : List StreamFrame} {f : StreamFrame} {i : ℕ} (hi : fs[i]? = some f)
    (h : ∀ j g, i ≤ j → fs[j]? = some g → ¬ Expires maxAge f g) : f ∈ survivors maxAge fs := by
  induction fs generalizing i with
  | nil => simp at hi
  | cons e fs ih =>
    rw [survivors]
    cases i with
    | zero =>
      rw [List.getElem?_cons_zero, Option.some.injEq] at hi
      subst hi
      have hnone : ¬ ∃ g ∈ e :: fs, Expires maxAge e g := by
        rintro ⟨g, hg, hexp⟩
        obtain ⟨j, hj⟩ := List.mem_iff_getElem?.mp hg
        exact h j g (Nat.zero_le j) hj hexp
      rw [if_neg hnone]
      exact List.mem_cons_self ..
    | succ i =>
      have htail : f ∈ survivors maxAge fs := by
        apply ih (i := i) hi
        intro j g hj hg
        exact h (j + 1) g (Nat.succ_le_succ hj) hg
      split
      · exact htail
      · exact List.mem_cons_of_mem _ htail

theorem survivors_ne_nil {maxAge : ℤ} (hmax : 0 ≤ maxAge) {fs : List StreamFrame} (h : fs ≠ []) :
    survivors maxAge fs ≠ [] := by
  rw [← List.dropLast_concat_getLast h, survivors_append, List.filter_append]
  have hself : ¬ Expires maxAge (fs.getLast h) (fs.getLast h) := by
    unfold Expires
    omega
  simp [hself]

theorem length_le_of_contains {marshal : StreamFrame → Option (List UInt8)} {object data : List UInt8}
    {f : StreamFrame} (h : Contains marshal object f) (hf : record marshal f = some data) :
    data.length ≤ object.length := by
  obtain ⟨frames, hframes, hmem⟩ := h
  obtain ⟨parts, hparts, rfl⟩ := Option.map_eq_some_iff.mp hframes
  obtain ⟨p, hp, hrecord⟩ := ListMaps.exists_mem_mapM hparts hmem
  rw [hf, Option.some.injEq] at hrecord
  subst hrecord
  exact (List.sublist_flatten_of_mem hp).length_le

end Embedai.StreamServer
