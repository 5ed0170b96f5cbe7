import Mathlib.Data.List.Range
import Embedai.FrameBuffer
import Embedai.Slices

namespace Embedai.StreamServer

open Slices

/-- What an array has in the places behind its slice. -/
def nilFrame : StreamFrame := ⟨"", "", "", 0, 0, "", [], false⟩

structure SliceBuffer where
  heap : Heap StreamFrame
  frames : Slice
  maxAge : ℤ
  lastSeq : ℕ
  inBounds : frames.InBounds heap

namespace SliceBuffer

def new (maxAge : ℤ) : SliceBuffer := ⟨Heap.empty, ⟨0, 0⟩, maxAge, 0, ⟨Nat.zero_lt_one, Nat.zero_le _⟩⟩

def evictExpired (nowNs : ℤ) (b : SliceBuffer) : SliceBuffer :=
  let cutoff := (nowNs - b.maxAge).bmod (2 ^ 64)
  let keep (f : StreamFrame) : Bool := cutoff ≤ f.timestampNs
  { b with
    heap := (b.heap.filterInPlace keep b.frames).2
    frames := (b.heap.filterInPlace keep b.frames).1
    inBounds := Heap.inBounds_filterInPlace keep b.inBounds }

/-- `grow` is the spare capacity that `append` gives a new array. -/
def append (grow : ℕ → ℕ) (f : StreamFrame) (b : SliceBuffer) : SliceBuffer :=
  { b with
    heap := (b.heap.append nilFrame grow b.frames f).2
    frames := (b.heap.append nilFrame grow b.frames f).1
    lastSeq := if b.lastSeq < f.seqNum then f.seqNum else b.lastSeq
    inBounds := Heap.inBounds_append nilFrame grow f b.inBounds }

def add (grow : ℕ → ℕ) (f : StreamFrame) (b : SliceBuffer) : SliceBuffer :=
  if 0 < f.timestampNs then (b.append grow f).evictExpired f.timestampNs else b.append grow f

def len (b : SliceBuffer) : ℕ := b.frames.len

def reset (b : SliceBuffer) : SliceBuffer :=
  { b with frames := ⟨b.frames.array, 0⟩, lastSeq := 0, inBounds := ⟨b.inBounds.1, Nat.zero_le _⟩ }

def elems (b : SliceBuffer) : List StreamFrame := b.heap.elems b.frames

def view (b : SliceBuffer) : FrameBuffer := ⟨b.elems, b.maxAge, b.lastSeq⟩

theorem view_new (maxAge : ℤ) : (new maxAge).view = FrameBuffer.new maxAge := rfl

theorem view_reset (b : SliceBuffer) : b.reset.view = b.view.reset := rfl

theorem len_view (b : SliceBuffer) : b.view.len = b.len := Heap.length_elems b.inBounds

theorem cutoff_eq {nowNs maxAge : ℤ} (hnow : 0 < nowNs) (hnow' : nowNs < 2 ^ 63) (hmax : 0 ≤ maxAge)
    (hmax' : maxAge < 2 ^ 63) : (nowNs - maxAge).bmod (2 ^ 64) = nowNs - maxAge :=
  Int.bmod_eq_of_le_mul_two (by omega) (by omega)

theorem view_evictExpired {nowNs : ℤ} {b : SliceBuffer}
    (h : (nowNs - b.maxAge).bmod (2 ^ 64) = nowNs - b.maxAge) :
    (b.evictExpired nowNs).view = b.view.evictExpired nowNs := by
  rw [view, elems, evictExpired]
  dsimp only
  rw [Heap.elems_filterInPlace _ b.inBounds, h]
  rfl

theorem view_append (grow : ℕ → ℕ) (f : StreamFrame) (b : SliceBuffer) :
    (b.append grow f).view = { b.view with
      frames := b.view.frames ++ [f]
      lastSeq := if b.view.lastSeq < f.seqNum then f.seqNum else b.view.lastSeq } := by
  rw [view, elems, append]
  dsimp only
  rw [Heap.elems_append nilFrame grow f b.inBounds]
  rfl

theorem view_add (grow : ℕ → ℕ) {f : StreamFrame} {b : SliceBuffer} (hf : f.timestampNs < 2 ^ 63)
    (hmax : 0 ≤ b.maxAge) (hmax' : b.maxAge < 2 ^ 63) : (b.add grow f).view = b.view.add f := by
  rw [add, FrameBuffer.add]
  by_cases hpos : 0 < f.timestampNs
  · have hcutoff : (f.timestampNs - (b.append grow f).maxAge).bmod (2 ^ 64) = f.timestampNs - b.maxAge :=
      cutoff_eq hpos hf hmax hmax'
    rw [if_pos hpos, if_pos hpos, view_evictExpired hcutoff, view_append]
  · rw [if_neg hpos, if_neg hpos, view_append]

end SliceBuffer

inductive BufferOp
  | add (f : StreamFrame)
  | reset

namespace SliceBuffer

def apply (grow : ℕ → ℕ) (b : SliceBuffer) : BufferOp → SliceBuffer
  | .add f => b.add grow f
  | .reset => b.reset

def after (grow : ℕ → ℕ) (maxAge : ℤ) (ops : List BufferOp) : SliceBuffer := ops.foldl (apply grow) (new maxAge)

end SliceBuffer

def addedSince (ops : List BufferOp) : List StreamFrame :=
  ops.foldl (fun fs op => match op with
    | .add f => fs ++ [f]
    | .reset => []) []

def Unexpired (maxAge : ℤ) (fs : List StreamFrame) (i : ℕ) : Prop :=
  ∀ f, fs[i]? = some f → ∀ j g, i ≤ j → fs[j]? = some g → 0 < g.timestampNs → g.timestampNs - maxAge ≤ f.timestampNs

def Int64 (n : ℤ) : Prop := -2 ^ 63 ≤ n ∧ n < 2 ^ 63

section Runs

variable {grow : ℕ → ℕ} {maxAge : ℤ} {ops : List BufferOp}

theorem addedSince_concat_add (ops : List BufferOp) (f : StreamFrame) :
    addedSince (ops ++ [.add f]) = addedSince ops ++ [f] := by
  rw [addedSince, List.foldl_append]
  rfl

theorem addedSince_concat_reset (ops : List BufferOp) : addedSince (ops ++ [.reset]) = [] := by
  rw [addedSince, List.foldl_append]
  rfl

theorem after_concat (grow : ℕ → ℕ) (maxAge : ℤ) (ops : List BufferOp) (op : BufferOp) :
    SliceBuffer.after grow maxAge (ops ++ [op]) = (SliceBuffer.after grow maxAge ops).apply grow op := by
  rw [SliceBuffer.after, List.foldl_append]
  rfl

theorem lastSeq_add (b : FrameBuffer) (f : StreamFrame) : (b.add f).lastSeq = max b.lastSeq f.seqNum := by
  have hmax : (if b.lastSeq < f.seqNum then f.seqNum else b.lastSeq) = max b.lastSeq f.seqNum := by
    split_ifs with h
    · exact (max_eq_right h.le).symm
    · exact (max_eq_left (not_lt.mp h)).symm
  rw [← hmax, FrameBuffer.add]
  split_ifs <;> rfl

structure Buffered (maxAge : ℤ) (fs : List StreamFrame) (b : FrameBuffer) : Prop where
  frames : b.frames = survivors maxAge fs
  maxAge : b.maxAge = maxAge
  lastSeq : b.lastSeq = ((fs.map StreamFrame.seqNum).max?).getD 0

theorem max?_concat (ns : List ℕ) (n : ℕ) : ((ns ++ [n]).max?).getD 0 = max ((ns.max?).getD 0) n := by
  cases ns with
  | nil => simp
  | cons m ns =>
    rw [List.cons_append, List.max?_cons', List.max?_cons', List.foldl_append]
    rfl

theorem Buffered.add {fs : List StreamFrame} {b : FrameBuffer} (h : Buffered maxAge fs b) (f : StreamFrame) :
    Buffered maxAge (fs ++ [f]) (b.add f) := by
  refine ⟨?_, (maxAge_add b f).trans h.maxAge, ?_⟩
  · rw [frames_add, h.frames, h.maxAge, survivors_append]
  · rw [lastSeq_add, h.lastSeq, List.map_append, List.map_singleton, max?_concat]

theorem Buffered.reset {fs : List StreamFrame} {b : FrameBuffer} (h : Buffered maxAge fs b) :
    Buffered maxAge [] b.reset := ⟨rfl, h.maxAge, rfl⟩

variable (grow) in
theorem buffered_after (hmax : 0 ≤ maxAge) (hmax' : maxAge < 2 ^ 63)
    (hops : ∀ f, .add f ∈ ops → f.timestampNs < 2 ^ 63) :
    Buffered maxAge (addedSince ops) (SliceBuffer.after grow maxAge ops).view := by
  induction ops using List.reverseRecOn with
  | nil =>
    rw [SliceBuffer.after, List.foldl_nil, SliceBuffer.view_new]
    exact ⟨rfl, rfl, rfl⟩
  | append_singleton ops op ih =>
    have hbuffered := ih (fun f hf => hops f (List.mem_append_left _ hf))
    rw [after_concat]
    cases op with
    | add f =>
      have hage : (SliceBuffer.after grow maxAge ops).maxAge = maxAge := hbuffered.maxAge
      have hview := SliceBuffer.view_add grow (hops f (by simp)) (b := SliceBuffer.after grow maxAge ops)
        (by rw [hage]; exact hmax) (by rw [hage]; exact hmax')
      rw [addedSince_concat_add, SliceBuffer.apply, hview]
      exact hbuffered.add f
    | reset =>
      rw [addedSince_concat_reset, SliceBuffer.apply, SliceBuffer.view_reset]
      exact hbuffered.reset

theorem unexpired_succ {fs : List StreamFrame} {f : StreamFrame} {i : ℕ} :
    Unexpired maxAge (f :: fs) (i + 1) ↔ Unexpired maxAge fs i := by
  constructor
  · intro h e he j g hj hg
    exact h e he (j + 1) g (Nat.succ_le_succ hj) hg
  · intro h e he j g hj hg
    cases j with
    | zero => cases hj
    | succ j => exact h e he j g (Nat.le_of_succ_le_succ hj) hg

theorem unexpired_zero {fs : List StreamFrame} {f : StreamFrame} :
    Unexpired maxAge (f :: fs) 0 ↔ ¬ ∃ g ∈ f :: fs, Expires maxAge f g := by
  constructor
  · rintro h ⟨g, hg, hpos, hlt⟩
    obtain ⟨j, hj⟩ := List.mem_iff_getElem?.mp hg
    have hle := h f rfl j g (Nat.zero_le j) hj hpos
    omega
  · intro h e he j g _ hg hpos
    cases he
    by_contra hlt
    exact h ⟨g, List.mem_of_getElem? hg, hpos, by omega⟩

theorem survivors_indices (maxAge : ℤ) (fs : List StreamFrame) :
    ∃ kept : List ℕ, kept.Pairwise (· < ·) ∧ (∀ i, i ∈ kept ↔ i < fs.length ∧ Unexpired maxAge fs i) ∧
      (survivors maxAge fs).map some = kept.map (fs[·]?) := by
  induction fs with
  | nil => exact ⟨[], List.Pairwise.nil, by simp, rfl⟩
  | cons f fs ih =>
    obtain ⟨kept, hsorted, hmem, hframes⟩ := ih
    have hlater : (kept.map Nat.succ).Pairwise (· < ·) :=
      List.pairwise_map.mpr (hsorted.imp (fun hij => Nat.succ_lt_succ hij))
    have hsame : (kept.map Nat.succ).map ((f :: fs)[·]?) = kept.map (fs[·]?) := by
      rw [List.map_map]
      rfl
    have hsucc : ∀ i, i + 1 ∈ kept.map Nat.succ ↔ i + 1 < (f :: fs).length ∧ Unexpired maxAge (f :: fs) (i + 1) := by
      intro i
      rw [List.mem_map_of_injective Nat.succ_injective, hmem, unexpired_succ, List.length_cons, Nat.succ_lt_succ_iff]
    have hzero : 0 ∉ kept.map Nat.succ := by simp
    rw [survivors]
    by_cases hexpires : ∃ g ∈ f :: fs, Expires maxAge f g
    · rw [if_pos hexpires]
      refine ⟨kept.map Nat.succ, hlater, ?_, by rw [hframes, hsame]⟩
      intro i
      cases i with
      | zero => exact ⟨fun h => absurd h hzero, fun h => absurd hexpires (unexpired_zero.mp h.2)⟩
      | succ i => exact hsucc i
    · rw [if_neg hexpires]
      refine ⟨0 :: kept.map Nat.succ, List.pairwise_cons.mpr ⟨by simp, hlater⟩, ?_, ?_⟩
      · intro i
        cases i with
        | zero => simp [unexpired_zero.mpr hexpires]
        | succ i =>
          rw [List.mem_cons, hsucc i]
          simp
      · rw [List.map_cons, List.map_cons, hframes, hsame]
        rfl

theorem buffer_characterised (grow : ℕ → ℕ) (maxAge : ℤ) (ops : List BufferOp) (hmax : 0 ≤ maxAge)
    (hmax' : maxAge < 2 ^ 63) (hops : ∀ f, .add f ∈ ops → Int64 f.timestampNs) :
    (∃ kept : List ℕ, kept.Pairwise (· < ·) ∧
      (∀ i, i ∈ kept ↔ i < (addedSince ops).length ∧ Unexpired maxAge (addedSince ops) i) ∧
      (SliceBuffer.after grow maxAge ops).elems.map some = kept.map ((addedSince ops)[·]?)) ∧
    (SliceBuffer.after grow maxAge ops).lastSeq = (((addedSince ops).map StreamFrame.seqNum).max?).getD 0 := by
  obtain ⟨hframes, -, hseq⟩ := buffered_after grow hmax hmax' (fun f hf => (hops f hf).2)
  obtain ⟨kept, hsorted, hmem, hkept⟩ := survivors_indices maxAge (addedSince ops)
  refine ⟨⟨kept, hsorted, hmem, ?_⟩, hseq⟩
  rw [← hkept, ← hframes]
  rfl

end Runs

def framesOutOfOrder : List BufferOp :=
  [.add ⟨"s", "", "", 9, 10 ^ 10, "", [], false⟩, .reset, .add ⟨"s", "", "", 1, 1, "", [], false⟩,
    .add ⟨"s", "", "", 3, 7 * 10 ^ 9, "", [], false⟩, .add ⟨"s", "", "", 2, -5, "", [], false⟩]

theorem buffer_characterised_framesOutOfOrder :
    (∃ kept : List ℕ, kept.Pairwise (· < ·) ∧
      (∀ i, i ∈ kept ↔ i < (addedSince framesOutOfOrder).length ∧
        Unexpired (5 * 10 ^ 9) (addedSince framesOutOfOrder) i) ∧
      (SliceBuffer.after (fun n => n) (5 * 10 ^ 9) framesOutOfOrder).elems.map some =
        kept.map ((addedSince framesOutOfOrder)[·]?)) ∧
    (SliceBuffer.after (fun n => n) (5 * 10 ^ 9) framesOutOfOrder).lastSeq = 3 := by
  have hops : ∀ f, .add f ∈ framesOutOfOrder → Int64 f.timestampNs := by
    simp [framesOutOfOrder, Int64]
  exact buffer_characterised (fun n => n) (5 * 10 ^ 9) framesOutOfOrder (by decide) (by decide) hops

example : (SliceBuffer.after (fun n => n) (5 * 10 ^ 9) framesOutOfOrder).elems.map StreamFrame.seqNum = [3, 2] := by
  decide

end Embedai.StreamServer
