import Embedai.Hexadecimal

namespace Embedai

structure Uuid where
  bits : BitVec 128
  deriving DecidableEq

namespace Uuid

open Hexadecimal (hexDigit)

def digits (u : Uuid) : List Char :=
  (List.range 32).map (fun i => hexDigit (u.bits.toNat / 16 ^ (31 - i) % 16))

def text (u : Uuid) : String :=
  let d := u.digits
  String.ofList (d.take 8 ++ '-' :: (d.drop 8).take 4 ++ '-' :: (d.drop 12).take 4 ++
    '-' :: (d.drop 16).take 4 ++ '-' :: d.drop 20)

def isBrace (c : Char) : Bool := c = '{' ∨ c = '}'

/-- `str.replace(pattern, "")`; `skip` characters belong to the occurrence found last. -/
def removeAll (pattern : List Char) : ℕ → List Char → List Char
  | _, [] => []
  | skip + 1, _ :: rest => removeAll pattern skip rest
  | 0, c :: rest =>
    if pattern <+: c :: rest then removeAll pattern (pattern.length - 1) rest else c :: removeAll pattern 0 rest

def parse (s : String) : Option Uuid :=
  let bare := removeAll "uuid:".toList 0 (removeAll "urn:".toList 0 s.toList)
  let hex := (Hexadecimal.strip isBrace bare).filter (· ≠ '-')
  if hex.length = 32 then (Hexadecimal.parse hex).map (fun n => ⟨BitVec.ofNat 128 n⟩) else none

theorem digits_eq (u : Uuid) : u.digits = Hexadecimal.digits 32 u.bits.toNat :=
  (Hexadecimal.digits_eq_map 32 u.bits.toNat).symm

theorem removeAll_of_not_mem {pattern s : List Char} {c : Char} (hp : pattern.head? = some c) (hs : c ∉ s) :
    removeAll pattern 0 s = s := by
  induction s with
  | nil => rfl
  | cons d s ih =>
    rw [List.mem_cons, not_or] at hs
    rw [removeAll, if_neg, ih hs.2]
    rintro ⟨rest, hrest⟩
    cases pattern with
    | nil => cases hp
    | cons e pattern =>
      cases hp
      cases hrest
      exact hs.1 rfl

theorem mem_text {u : Uuid} {c : Char} (h : c ∈ u.text.toList) : c = '-' ∨ Hexadecimal.IsDigit c := by
  have hdigit : ∀ c ∈ u.digits, Hexadecimal.IsDigit c := by
    intro c hc
    rw [digits_eq] at hc
    exact Hexadecimal.isDigit_of_mem hc
  simp only [text, String.toList_ofList, List.mem_append, List.mem_cons] at h
  rcases h with (((h | rfl | h) | rfl | h) | rfl | h) | rfl | h
  · exact Or.inr (hdigit c (List.mem_of_mem_take h))
  · exact Or.inl rfl
  · exact Or.inr (hdigit c (List.mem_of_mem_drop (List.mem_of_mem_take h)))
  · exact Or.inl rfl
  · exact Or.inr (hdigit c (List.mem_of_mem_drop (List.mem_of_mem_take h)))
  · exact Or.inl rfl
  · exact Or.inr (hdigit c (List.mem_of_mem_drop (List.mem_of_mem_take h)))
  · exact Or.inl rfl
  · exact Or.inr (hdigit c (List.mem_of_mem_drop h))

theorem slash_not_mem_text (u : Uuid) : '/' ∉ u.text.toList := by
  intro h
  rcases mem_text h with hdash | ⟨d, hd, hdigit⟩
  · cases hdash
  · have hfacts : ∀ d < 16, '/' ≠ hexDigit d := by decide
    exact hfacts d hd hdigit

theorem hexDigit_ne : ∀ d < 16, hexDigit d ≠ '-' ∧ hexDigit d ≠ 'u' ∧ isBrace (hexDigit d) = false := by
  decide

theorem filter_text (u : Uuid) : u.text.toList.filter (· ≠ '-') = u.digits := by
  have hdigit : ∀ c ∈ u.digits, c ≠ '-' := by
    intro c hc
    rw [digits_eq] at hc
    obtain ⟨d, hd, rfl⟩ := Hexadecimal.isDigit_of_mem hc
    exact (hexDigit_ne d hd).1
  have hkeep : ∀ l : List Char, (∀ c ∈ l, c ∈ u.digits) → l.filter (· ≠ '-') = l := by
    intro l hl
    rw [List.filter_eq_self]
    intro c hc
    exact decide_eq_true (hdigit c (hl c hc))
  have hpart : ∀ n k, (u.digits.drop n).take k ++ u.digits.drop (n + k) = u.digits.drop n := by
    intro n k
    rw [← List.drop_drop]
    exact List.take_append_drop k _
  have htake : ∀ n k, ∀ c ∈ (u.digits.drop n).take k, c ∈ u.digits :=
    fun n k c hc => List.mem_of_mem_drop (List.mem_of_mem_take hc)
  simp only [text, String.toList_ofList, List.filter_append, List.filter_cons, ne_eq, decide_not, decide_true,
    Bool.not_true, Bool.false_eq_true, if_false] at *
  rw [hkeep _ (fun c hc => List.mem_of_mem_take hc), hkeep _ (htake 8 4), hkeep _ (htake 12 4), hkeep _ (htake 16 4),
    hkeep _ (fun c hc => List.mem_of_mem_drop hc)]
  simp only [List.append_assoc]
  rw [hpart 16 4, hpart 12 4, hpart 8 4, List.take_append_drop]

theorem strip_text (u : Uuid) : Hexadecimal.strip isBrace u.text.toList = u.text.toList := by
  apply Hexadecimal.strip_of_not
  intro c hc
  rcases mem_text hc with rfl | ⟨d, hd, rfl⟩
  · decide
  · exact (hexDigit_ne d hd).2.2

theorem removeAll_text (u : Uuid) {pattern : List Char} (h : pattern.head? = some 'u') :
    removeAll pattern 0 u.text.toList = u.text.toList := by
  apply removeAll_of_not_mem h
  intro hu
  rcases mem_text hu with he | ⟨d, hd, he⟩
  · exact absurd he (by decide)
  · exact (hexDigit_ne d hd).2.1 he.symm

theorem parse_text (u : Uuid) : parse u.text = some u := by
  have hlen : u.digits.length = 32 := by rw [digits_eq, Hexadecimal.length_digits]
  have hvalue : Hexadecimal.parse u.digits = some u.bits.toNat := by
    rw [digits_eq, Hexadecimal.parse_digits (by decide), Nat.mod_eq_of_lt]
    exact u.bits.isLt
  simp only [parse]
  rw [removeAll_text u rfl, removeAll_text u rfl, strip_text, filter_text, if_pos hlen, hvalue, Option.map_some,
    BitVec.ofNat_toNat, BitVec.setWidth_eq]

theorem text_ne_of_parse {s : String} (h : parse s = none) (u : Uuid) : u.text ≠ s := by
  intro htext
  have hparse := parse_text u
  rw [htext, h] at hparse
  cases hparse

theorem text_ne_empty (u : Uuid) : u.text ≠ "" := text_ne_of_parse (by decide +kernel) u

theorem text_injective : Function.Injective text := by
  intro u v h
  have hu := parse_text u
  rw [h, parse_text, Option.some.injEq] at hu
  exact hu.symm

end Uuid

end Embedai
