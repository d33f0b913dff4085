import Mathlib.Algebra.Group.Nat.Defs
import Mathlib.Data.List.Induction
import Mathlib.Data.List.TakeDrop
import Mathlib.Data.List.TakeWhile
import MemoryBus.Decimal

/-! Numbers in base ten, with zeros in front or without, and what is read where they stand. -/
namespace MemoryBus.Decimal

variable {width most n : Nat} {s rest : List Char} {c : Char}

theorem isDigit_of_mem_digits {n : Nat} {c : Char} (hc : c ∈ digits n) : c.isDigit = true :=
  Nat.isDigit_of_mem_toDigits (by decide) (by decide) hc

theorem digits_ne_nil (n : Nat) : digits n ≠ [] := Nat.toDigits_ne_nil

/-- Only zero is written with a zero in front. -/
theorem eq_zero_of_head?_digits {n : Nat} (hn : (digits n).head? = some '0') : n = 0 := by
  induction n using Nat.strongRecOn with
  | _ n ih =>
    unfold digits at hn ih
    rw [Nat.toDigits_eq_if (by decide)] at hn
    split at hn
    · simpa using hn
    · have hfront : (Nat.toDigits 10 (n / 10)).head? = some '0' := by
        obtain ⟨c, s, hs⟩ := List.exists_cons_of_ne_nil (Nat.toDigits_ne_nil (n := n / 10) (b := 10))
        simpa [hs] using hn
      have hzero := ih (n / 10) (by omega) hfront
      omega

theorem digits_eq_or_head?_ne (n : Nat) : digits n = ['0'] ∨ (digits n).head? ≠ some '0' := by
  by_cases hhead : (digits n).head? = some '0'
  · obtain rfl := eq_zero_of_head?_digits hhead
    exact .inl rfl
  · exact .inr hhead

theorem value_digits (n : Nat) : value (digits n) = n := Nat.ofDigitChars_ten_toDigits

/-- Digits end where something else follows. -/
theorem span_append (hs : ∀ c ∈ s, c.isDigit = true) (hc : c.isDigit = false) :
    span (s ++ c :: rest) = (s, c :: rest) := by
  rw [span, List.span_eq_takeWhile_dropWhile, List.takeWhile_append_of_pos hs,
    List.dropWhile_append_of_pos hs, List.takeWhile_cons_of_neg (by simp [hc]),
    List.dropWhile_cons_of_neg (by simp [hc]), List.append_nil]

theorem length_padded (hwidth : 0 < width) (hn : n < 10 ^ width) : (padded width n).length = width := by
  have hle := (Nat.length_toDigits_le_iff (by decide) hwidth).mpr hn
  rw [padded, List.length_leftpad]
  exact Nat.max_eq_left hle

theorem isDigit_of_mem_padded {c : Char} (hc : c ∈ padded width n) : c.isDigit = true := by
  rw [padded, List.leftpad, List.mem_append, List.mem_replicate] at hc
  rcases hc with ⟨-, rfl⟩ | hc
  · rfl
  · exact isDigit_of_mem_digits hc

theorem value_padded (width n : Nat) : value (padded width n) = n := by
  have hzeros (k : Nat) : (List.replicate k '0').foldl (fun n c => 10 * n + digitValue c) 0 = 0 := by
    induction k with
    | zero => rfl
    | succ k ih => exact ih
  rw [value, padded, List.leftpad, List.foldl_append, hzeros]
  exact value_digits n

theorem spanUpTo_append (hs : ∀ c ∈ s, c.isDigit = true) (hmost : s.length ≤ most)
    (hrest : s.length = most ∨ ∀ c ∈ rest.head?, c.isDigit = false) :
    spanUpTo most (s ++ rest) = (s, rest) := by
  induction s generalizing most with
  | nil =>
    cases most with
    | zero => cases rest <;> rfl
    | succ most =>
      cases rest with
      | nil => rfl
      | cons c rest =>
        have hc : c.isDigit = false := (hrest.resolve_left (by simp)) c rfl
        simp [spanUpTo, hc]
  | cons c s ih =>
    cases most with
    | zero => simp at hmost
    | succ most =>
      have hc := hs c (by simp)
      have hle : s.length ≤ most := by simpa using hmost
      have hspan := ih (fun c hc => hs c (by simp [hc])) hle (by simpa using hrest)
      rw [List.cons_append, spanUpTo, if_pos hc, hspan]

theorem length_padded_le {most : Nat} (hwidth : width ≤ most) (hmost : 0 < most) (hn : n < 10 ^ most) :
    (padded width n).length ≤ most := by
  have hle := (Nat.length_toDigits_le_iff (by decide) hmost).mpr hn
  rw [padded, List.length_leftpad]
  exact Nat.max_le.mpr ⟨hwidth, hle⟩

theorem value_lt (hs : ∀ c ∈ s, c.isDigit = true) : value s < 10 ^ s.length := by
  induction s using List.reverseRecOn with
  | nil => simp [value]
  | append_singleton s c ih =>
    have hc := hs c (by simp)
    have hs' := ih fun c hc => hs c (by simp [hc])
    have hle : digitValue c ≤ 9 := by
      simp only [Char.isDigit, Bool.and_eq_true, decide_eq_true_eq, UInt32.le_iff_toNat_le] at hc
      have hhigh : c.toNat ≤ 57 := hc.2
      have hzero : '0'.toNat = 48 := rfl
      unfold digitValue
      omega
    have hvalue : value (s ++ [c]) = 10 * value s + digitValue c := by simp [value]
    rw [hvalue, List.length_append, List.length_singleton, Nat.pow_succ]
    omega

theorem spanUpTo_spec {digits : List Char} (h : spanUpTo most s = (digits, rest)) :
    digits.length ≤ most ∧ ∀ c ∈ digits, c.isDigit = true := by
  induction most, s using spanUpTo.induct generalizing digits rest with
  | case1 most c s hc ds rest' hspan ih =>
    rw [spanUpTo, if_pos hc, hspan] at h
    obtain ⟨hlength, hdigits⟩ := ih hspan
    cases h
    exact ⟨by simpa using hlength, by simpa [hc] using hdigits⟩
  | case2 most c s hc =>
    rw [spanUpTo, if_neg hc] at h
    cases h
    simp
  | case3 most s hne =>
    rw [spanUpTo] at h
    · cases h
      simp
    · exact hne

theorem exists_padded (width n : Nat) : ∃ c s, padded width n = c :: s ∧ c.isDigit = true := by
  obtain ⟨c, s, hs⟩ := List.exists_cons_of_ne_nil (List.append_ne_nil_of_right_ne_nil
    (List.replicate (width - (digits n).length) '0') (digits_ne_nil n))
  have hpadded : padded width n = c :: s := hs
  exact ⟨c, s, hpadded, isDigit_of_mem_padded (hpadded ▸ List.mem_cons_self)⟩

end MemoryBus.Decimal
