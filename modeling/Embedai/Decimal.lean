import Mathlib.Algebra.Ring.Int.Defs
import Mathlib.Algebra.Ring.Nat
import Mathlib.Logic.Function.Basic

namespace Embedai.Decimal

def zeroPadded (width n : ℕ) : String :=
  String.ofList (List.replicate (width - (Nat.toDigits 10 n).length) '0' ++ Nat.toDigits 10 n)

def natOfDigits? (digits : List Char) : Option ℕ :=
  if digits ≠ [] ∧ digits.all Char.isDigit then some (Nat.ofDigitChars 10 digits 0) else none

def int64? (n : ℤ) : Option ℤ := if -2 ^ 63 ≤ n ∧ n < 2 ^ 63 then some n else none

def unsigned (digits : List Char) : Option ℤ := (natOfDigits? digits).bind (fun n => int64? n)

def atoi (s : String) : Option ℤ :=
  match s.toList with
  | '-' :: digits => (natOfDigits? digits).bind (fun n => int64? (-n))
  | '+' :: digits => unsigned digits
  | digits => unsigned digits

theorem zeroPadded_injective (width : ℕ) : Function.Injective (zeroPadded width) := by
  intro m n h
  have hvalue : ∀ k, Nat.ofDigitChars 10 (zeroPadded width k).toList 0 = k := by
    intro k
    rw [zeroPadded, String.toList_ofList, Nat.ofDigitChars_append, Nat.ofDigitChars_replicate_zero, Nat.mul_zero]
    exact Nat.ofDigitChars_ten_toDigits
  rw [← hvalue m, ← hvalue n, h]

theorem isDigit_of_mem_zeroPadded {width n : ℕ} {c : Char} (h : c ∈ (zeroPadded width n).toList) : c.isDigit := by
  rw [zeroPadded, String.toList_ofList] at h
  rcases List.mem_append.mp h with hzero | hdigit
  · rw [List.eq_of_mem_replicate hzero]
    decide
  · exact Nat.isDigit_of_mem_toDigits (by decide) (by decide) hdigit

theorem natOfDigits?_toDigits (n : ℕ) : natOfDigits? (Nat.toDigits 10 n) = some n := by
  have hdigits : (Nat.toDigits 10 n).all Char.isDigit = true :=
    List.all_eq_true.mpr (fun c hc => Nat.isDigit_of_mem_toDigits (by decide) (by decide) hc)
  rw [natOfDigits?, if_pos ⟨Nat.toDigits_ne_nil, hdigits⟩, Nat.ofDigitChars_ten_toDigits]

theorem unsigned_toDigits {n : ℕ} (h : n < 2 ^ 63) : unsigned (Nat.toDigits 10 n) = some (n : ℤ) := by
  have hrange : int64? (n : ℤ) = some (n : ℤ) := by
    rw [int64?, if_pos]
    constructor <;> omega
  exact Option.bind_eq_some_iff.mpr ⟨n, natOfDigits?_toDigits n, hrange⟩

theorem atoi_toString {n : ℕ} (h : n < 2 ^ 63) : atoi (toString n) = some (n : ℤ) := by
  have hl : (toString n).toList = Nat.toDigits 10 n := Nat.toList_repr
  have hdigit : ∀ c ∈ Nat.toDigits 10 n, c.isDigit :=
    fun c hc => Nat.isDigit_of_mem_toDigits (by decide) (by decide) hc
  unfold atoi
  rw [hl]
  split
  · rename_i digits heq
    rw [heq] at hdigit
    exact absurd (hdigit '-' (List.mem_cons_self ..)) (by decide)
  · rename_i digits heq
    rw [heq] at hdigit
    exact absurd (hdigit '+' (List.mem_cons_self ..)) (by decide)
  · exact unsigned_toDigits h

theorem toList_toString_int (n : ℤ) : (toString n).toList =
    if 0 ≤ n then Nat.toDigits 10 n.toNat else '-' :: Nat.toDigits 10 (-n).toNat := by
  rw [Int.toString_eq_repr, Int.repr_eq_if]
  split_ifs
  · exact Nat.toList_repr
  · rw [String.toList_append, Nat.toList_repr]
    rfl

theorem toDigits_injective : Function.Injective (Nat.toDigits 10) := by
  intro m n h
  rw [← Nat.ofDigitChars_ten_toDigits (n := m), h, Nat.ofDigitChars_ten_toDigits]

theorem toString_int_injective : Function.Injective (toString : ℤ → String) := by
  intro m n h
  have hminus : ∀ k, '-' ∉ Nat.toDigits 10 k :=
    fun k hmem => absurd (Nat.isDigit_of_mem_toDigits (by decide) (by decide) hmem) (by decide)
  have hlist := congrArg String.toList h
  rw [toList_toString_int, toList_toString_int] at hlist
  split_ifs at hlist with hm hn hn
  · have hnat := toDigits_injective hlist
    omega
  · exact absurd (hlist ▸ List.mem_cons_self ..) (hminus m.toNat)
  · exact absurd (hlist ▸ List.mem_cons_self ..) (hminus n.toNat)
  · have hnat := toDigits_injective (List.cons.inj hlist).2
    omega

theorem underscore_not_mem_toString (n : ℤ) : '_' ∉ (toString n).toList := by
  rw [toList_toString_int]
  split_ifs
  · exact Nat.underscore_not_in_toDigits
  · exact List.not_mem_cons_of_ne_of_not_mem (by decide) Nat.underscore_not_in_toDigits

end Embedai.Decimal
