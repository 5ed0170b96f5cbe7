import Mathlib.Algebra.Ring.Nat
import Mathlib.Data.List.Basic

/-!
Hexadecimal digits, and the strings that Python's `int(s, 16)` takes: white space around the number, a sign, the
prefix `0x`, single underscores between digits, and the decimal digits of every script (Unicode 14).
-/

namespace Embedai.Hexadecimal

def hexDigit (n : ℕ) : Char := if n < 10 then Char.ofNat (48 + n) else Char.ofNat (87 + n)

def hexValue (c : Char) : Option ℕ :=
  if '0' ≤ c ∧ c ≤ '9' then some (c.toNat - 48)
  else if 'a' ≤ c ∧ c ≤ 'f' then some (c.toNat - 87)
  else if 'A' ≤ c ∧ c ≤ 'F' then some (c.toNat - 55)
  else none

def digits (width n : ℕ) : List Char :=
  match width with
  | 0 => []
  | width + 1 => digits width (n / 16) ++ [hexDigit (n % 16)]

/-- The code points of the digit zero in the scripts other than ASCII. -/
def decimalZeros : List ℕ :=
  [0x660, 0x6f0, 0x7c0, 0x966, 0x9e6, 0xa66, 0xae6, 0xb66, 0xbe6, 0xc66, 0xce6, 0xd66, 0xde6, 0xe50, 0xed0, 0xf20,
    0x1040, 0x1090, 0x17e0, 0x1810, 0x1946, 0x19d0, 0x1a80, 0x1a90, 0x1b50, 0x1bb0, 0x1c40, 0x1c50, 0xa620, 0xa8d0,
    0xa900, 0xa9d0, 0xa9f0, 0xaa50, 0xabf0, 0xff10, 0x104a0, 0x10d30, 0x11066, 0x110f0, 0x11136, 0x111d0, 0x112f0,
    0x11450, 0x114d0, 0x11650, 0x116c0, 0x11730, 0x118e0, 0x11950, 0x11c50, 0x11d50, 0x11da0, 0x16a60, 0x16ac0,
    0x16b50, 0x1d7ce, 0x1d7d8, 0x1d7e2, 0x1d7ec, 0x1d7f6, 0x1e140, 0x1e2f0, 0x1e950, 0x1fbf0]

def unicodeSpaces : List ℕ :=
  [0x85, 0xa0, 0x1680, 0x2000, 0x2001, 0x2002, 0x2003, 0x2004, 0x2005, 0x2006, 0x2007, 0x2008, 0x2009, 0x200a,
    0x2028, 0x2029, 0x202f, 0x205f, 0x3000]

def toAscii (c : Char) : Char :=
  if c.toNat < 127 then c
  else if c.toNat ∈ unicodeSpaces then ' '
  else match decimalZeros.find? (fun first => first ≤ c.toNat ∧ c.toNat < first + 10) with
    | some first => hexDigit (c.toNat - first)
    | none => '?'

def isSpace (c : Char) : Bool := c = ' ' ∨ 9 ≤ c.toNat ∧ c.toNat ≤ 13

def strip (p : Char → Bool) (s : List Char) : List Char := ((s.dropWhile p).reverse.dropWhile p).reverse

/-- `start` says that no underscore may stand here: nothing or an underscore came before. -/
def readDigits (start : Bool) (n : ℕ) : List Char → Option ℕ
  | [] => if start then none else some n
  | c :: rest =>
    if c = '_' then (if start then none else readDigits true n rest)
    else (hexValue c).bind (fun d => readDigits false (16 * n + d) rest)

def dropSign : List Char → List Char
  | '+' :: rest => rest
  | s => s

def dropRadix : List Char → List Char
  | '0' :: 'x' :: '_' :: rest => rest
  | '0' :: 'X' :: '_' :: rest => rest
  | '0' :: 'x' :: rest => rest
  | '0' :: 'X' :: rest => rest
  | s => s

/-- `int(s, 16)` for a string without a minus sign. -/
def parse (s : List Char) : Option ℕ := readDigits true 0 (dropRadix (dropSign (strip isSpace (s.map toAscii))))

def IsDigit (c : Char) : Prop := ∃ d < 16, c = hexDigit d

theorem hexDigit_facts : ∀ d < 16, hexValue (hexDigit d) = some d ∧ toAscii (hexDigit d) = hexDigit d ∧
    isSpace (hexDigit d) = false ∧ hexDigit d ≠ '_' ∧ hexDigit d ≠ '+' ∧ hexDigit d ≠ 'x' ∧ hexDigit d ≠ 'X' := by
  decide

theorem length_digits (width n : ℕ) : (digits width n).length = width := by
  induction width generalizing n with
  | zero => rfl
  | succ width ih => rw [digits, List.length_append, ih, List.length_singleton]

theorem digits_eq_map (width n : ℕ) :
    digits width n = (List.range width).map (fun i => hexDigit (n / 16 ^ (width - 1 - i) % 16)) := by
  induction width generalizing n with
  | zero => rfl
  | succ width ih =>
    rw [digits, ih, List.range_succ, List.map_append, List.map_singleton]
    congr 1
    · apply List.map_congr_left
      intro i hi
      have hexp : width + 1 - 1 - i = (width - 1 - i) + 1 := by
        have := List.mem_range.mp hi
        omega
      rw [hexp, Nat.pow_succ', Nat.div_div_eq_div_mul]
    · simp

theorem isDigit_of_mem {width n : ℕ} {c : Char} (h : c ∈ digits width n) : IsDigit c := by
  induction width generalizing n with
  | zero => cases h
  | succ width ih =>
    rw [digits, List.mem_append, List.mem_singleton] at h
    rcases h with h | h
    · exact ih h
    · exact ⟨n % 16, Nat.mod_lt _ (by decide), h⟩

theorem strip_of_not {p : Char → Bool} {s : List Char} (h : ∀ c ∈ s, p c = false) : strip p s = s := by
  have hdrop : ∀ t : List Char, (∀ c ∈ t, p c = false) → t.dropWhile p = t := by
    intro t ht
    cases t with
    | nil => rfl
    | cons c t => exact List.dropWhile_cons_of_neg (by rw [ht c (List.mem_cons_self ..)]; exact Bool.false_ne_true)
  rw [strip, hdrop s h, hdrop s.reverse (fun c hc => h c (List.mem_reverse.mp hc)), List.reverse_reverse]

theorem dropRadix_of_digits {s : List Char} (h : ∀ c ∈ s, IsDigit c) : dropRadix s = s := by
  have hx : ∀ c ∈ s, c ≠ 'x' ∧ c ≠ 'X' := by
    intro c hc
    obtain ⟨d, hd, rfl⟩ := h c hc
    exact ⟨(hexDigit_facts d hd).2.2.2.2.2.1, (hexDigit_facts d hd).2.2.2.2.2.2⟩
  unfold dropRadix
  split
  · exact absurd rfl (hx 'x' (by simp)).1
  · exact absurd rfl (hx 'X' (by simp)).2
  · exact absurd rfl (hx 'x' (by simp)).1
  · exact absurd rfl (hx 'X' (by simp)).2
  · rfl

theorem dropSign_of_digits {s : List Char} (h : ∀ c ∈ s, IsDigit c) : dropSign s = s := by
  unfold dropSign
  split
  · obtain ⟨d, hd, he⟩ := h '+' (by simp)
    exact absurd he.symm (hexDigit_facts d hd).2.2.2.2.1
  · rfl

theorem readDigits_append {s : List Char} (h : ∀ c ∈ s, IsDigit c) (hs : s ≠ []) (start : Bool) (m n : ℕ)
    (rest : List Char) (hm : readDigits start m s = some n) :
    readDigits start m (s ++ rest) = readDigits false n rest := by
  induction s generalizing start m with
  | nil => exact absurd rfl hs
  | cons c s ih =>
    obtain ⟨d, hd, rfl⟩ := h c (List.mem_cons_self ..)
    obtain ⟨hvalue, -, -, hunderscore, -⟩ := hexDigit_facts d hd
    rw [readDigits, if_neg hunderscore, hvalue, Option.bind_some] at hm
    rw [List.cons_append, readDigits, if_neg hunderscore, hvalue, Option.bind_some]
    cases s with
    | nil =>
      cases hm
      rfl
    | cons c' s => exact ih (fun e he => h e (List.mem_cons_of_mem _ he)) (List.cons_ne_nil _ _) false _ hm

theorem readDigits_digits {width : ℕ} (hw : width ≠ 0) (n : ℕ) :
    readDigits true 0 (digits width n) = some (n % 16 ^ width) := by
  induction width generalizing n with
  | zero => exact absurd rfl hw
  | succ width ih =>
    obtain ⟨hvalue, -, -, hunderscore, -⟩ := hexDigit_facts (n % 16) (Nat.mod_lt _ (by decide))
    have hstep : ∀ start m, readDigits start m [hexDigit (n % 16)] = some (16 * m + n % 16) := by
      intro start m
      rw [readDigits, if_neg hunderscore, hvalue, Option.bind_some]
      rfl
    rcases Nat.eq_zero_or_pos width with rfl | hpos
    · rw [digits, digits, List.nil_append, hstep]
      simp
    · rw [digits, readDigits_append (fun c hc => isDigit_of_mem hc) ?_ true 0 _ _ (ih (by omega) (n / 16)), hstep]
      · rw [Nat.pow_succ', Nat.mod_mul]
        congr 1
        omega
      · intro hnil
        have := length_digits width (n / 16)
        rw [hnil, List.length_nil] at this
        omega

theorem parse_digits {width : ℕ} (hw : width ≠ 0) (n : ℕ) : parse (digits width n) = some (n % 16 ^ width) := by
  have hdigit : ∀ c ∈ digits width n, IsDigit c := fun c hc => isDigit_of_mem hc
  have hascii : (digits width n).map toAscii = digits width n := by
    rw [← List.map_id (digits width n), List.map_map]
    apply List.map_congr_left
    intro c hc
    obtain ⟨d, hd, rfl⟩ := hdigit c hc
    exact (hexDigit_facts d hd).2.1
  have hstrip : strip isSpace (digits width n) = digits width n := by
    apply strip_of_not
    intro c hc
    obtain ⟨d, hd, rfl⟩ := hdigit c hc
    exact (hexDigit_facts d hd).2.2.1
  rw [parse, hascii, hstrip, dropSign_of_digits hdigit, dropRadix_of_digits hdigit, readDigits_digits hw]

end Embedai.Hexadecimal
