import Mathlib.Data.List.Induction
import Mathlib.Tactic.Ring
import MemoryBus.Proofs.Decimals
import MemoryBus.Timestamp

/-! Days and dates, and instants with the text that they are written as. -/
namespace MemoryBus

namespace Date

variable {y n : Int} {months : List Nat}

def yearLength (y : Int) : Nat := if isLeapYear y then 366 else 365

theorem sum_monthLengths (y : Int) : (monthLengths y).sum = yearLength y := by
  unfold monthLengths yearLength
  split <;> rfl

theorem yearStart_succ (y : Int) : yearStart (y + 1) = yearStart y + yearLength y := by
  simp only [yearStart, yearLength, isLeapYear, Bool.and_eq_true, Bool.or_eq_true, beq_iff_eq, bne_iff_ne]
  split <;> omega

theorem yearStart_yearOf (n : Int) : yearStart (yearOf n) ≤ n ∧ n < yearStart (yearOf n + 1) := by
  -- Four centuries have 146097 days, so the guess is off by less than a year on either side.
  have hlow : yearStart (1970 + n * 400 / 146097 - 1) ≤ n := by
    unfold yearStart
    omega
  have hhigh : n < yearStart (1970 + n * 400 / 146097 + 1 + 1) := by
    unfold yearStart
    omega
  simp only [yearOf]
  split
  · rw [Int.sub_add_cancel]
    exact ⟨hlow, ‹_›⟩
  · split
    · exact ⟨‹_›, hhigh⟩
    · omega

theorem monthAndDay_spec {n : Nat} (hn : n < months.sum) :
    ∃ m d, monthAndDay months n = (m + 1, d + 1) ∧ d < months.getD m 0 ∧ (months.take m).sum + d = n := by
  induction months generalizing n with
  | nil => simp at hn
  | cons len rest ih =>
    rw [List.sum_cons] at hn
    rw [monthAndDay]
    split
    · exact ⟨0, n, rfl, ‹_›, by simp⟩
    · obtain ⟨m, d, hmd, hd, hsum⟩ := ih (n := n - len) (by omega)
      refine ⟨m + 1, d, by rw [hmd], hd, ?_⟩
      rw [List.take_succ_cons, List.sum_cons]
      omega

theorem getD_monthLengths_le (y : Int) (m : Nat) : (monthLengths y).getD m 0 ≤ if m < 12 then 31 else 0 := by
  unfold monthLengths
  rcases m with _ | _ | _ | _ | _ | _ | _ | _ | _ | _ | _ | _ | m <;> simp
  split <;> decide

/-- The day of the year, counted from zero, is one of a month. -/
theorem ofDays_spec (n : Int) : ∃ m d, ofDays n = ⟨yearOf n, m + 1, d + 1⟩ ∧
    d < (monthLengths (yearOf n)).getD m 0 ∧
    yearStart (yearOf n) + ((monthLengths (yearOf n)).take m).sum + d = n := by
  obtain ⟨hstart, hend⟩ := yearStart_yearOf n
  rw [yearStart_succ, ← sum_monthLengths] at hend
  have hlt : (n - yearStart (yearOf n)).toNat < (monthLengths (yearOf n)).sum := by omega
  obtain ⟨m, d, hmd, hd, hsum⟩ := monthAndDay_spec hlt
  refine ⟨m, d, by rw [ofDays, hmd], hd, by omega⟩

@[simp] theorem year_ofDays (n : Int) : (ofDays n).year = yearOf n := rfl

theorem toDays_ofDays (n : Int) : (ofDays n).toDays = n := by
  obtain ⟨m, d, hdate, -, hsum⟩ := ofDays_spec n
  rw [hdate]
  simp only [toDays, Nat.add_sub_cancel, ← List.sum_eq_foldl_nat]
  omega

theorem isValid_ofDays (n : Int) : (ofDays n).isValid = true := by
  obtain ⟨m, d, hdate, hd, -⟩ := ofDays_spec n
  rw [hdate]
  simpa [isValid] using hd

theorem ofDays_le (n : Int) : (ofDays n).month ≤ 12 ∧ (ofDays n).day ≤ 31 := by
  obtain ⟨m, d, hdate, hd, -⟩ := ofDays_spec n
  have hle := getD_monthLengths_le (yearOf n) m
  rw [hdate]
  constructor <;> dsimp only <;> split at hle <;> omega

end Date

theorem not_isBlank_of_isDigit {c : Char} (hc : c.isDigit = true) : isBlank c = false := by
  simp only [Char.isDigit, Bool.and_eq_true, decide_eq_true_eq, UInt32.le_iff_toNat_le] at hc
  have hlow : 48 ≤ c.toNat := hc.1
  have hhigh : c.toNat ≤ 57 := hc.2
  simp only [isBlank, Bool.or_eq_false_iff, Bool.and_eq_false_iff, decide_eq_false_iff_not, beq_eq_false_iff_ne]
  omega

theorem skipBlanks_cons {c : Char} (hc : isBlank c = false) (s : List Char) : skipBlanks (c :: s) = c :: s :=
  List.dropWhile_cons_of_neg (by simp [hc])

namespace Timestamp

variable {width n clock nanos : Nat} {c : Char} {rest : List Char} {t : Timestamp}

theorem readNumber_padded (hwidth : 0 < width) (hn : n < 10 ^ width) (rest : List Char) :
    readNumber width (Decimal.padded width n ++ rest) = some (n, rest) := by
  obtain ⟨c, s, hs, hc⟩ := Decimal.exists_padded width n
  have hlength := Decimal.length_padded hwidth hn
  have hspan : Decimal.spanUpTo width (skipBlanks (Decimal.padded width n ++ rest)) =
      (Decimal.padded width n, rest) := by
    rw [hs, List.cons_append, skipBlanks_cons (not_isBlank_of_isDigit hc), ← List.cons_append, ← hs]
    exact Decimal.spanUpTo_append (fun _ => Decimal.isDigit_of_mem_padded) hlength.le (.inl hlength)
  rw [readNumber, hspan, hs]
  simp only
  rw [← hs, Decimal.value_padded]

theorem readLongNumber_padded (hc : c.isDigit = false) (width n : Nat) (rest : List Char) :
    readLongNumber (Decimal.padded width n ++ c :: rest) = some (n, c :: rest) := by
  have hspan : Decimal.span (Decimal.padded width n ++ c :: rest) = (Decimal.padded width n, c :: rest) :=
    Decimal.span_append (fun _ => Decimal.isDigit_of_mem_padded) hc
  obtain ⟨d, s, hs, -⟩ := Decimal.exists_padded width n
  rw [readLongNumber, hspan, hs]
  simp only
  rw [← hs, Decimal.value_padded]

theorem readMark_cons (hc : isBlank c = false) (rest : List Char) : readMark c (c :: rest) = some rest := by
  rw [readMark, skipBlanks_cons hc]
  exact if_pos rfl

theorem readYear_writeYear (y : Int) (rest : List Char) :
    readYear (writeYear y ++ '-' :: rest) = some (y, '-' :: rest) := by
  unfold writeYear
  split
  · obtain ⟨c, s, hs, hc⟩ := Decimal.exists_padded 4 y.toNat
    have hlt : y.toNat < 10 ^ 4 := by omega
    have hnumber := readNumber_padded (by decide) hlt ('-' :: rest)
    rw [hs, List.cons_append] at hnumber ⊢
    unfold readYear
    rw [skipBlanks_cons (not_isBlank_of_isDigit hc)]
    split
    · cases List.cons.inj ‹_› |>.1
      cases hc
    · cases List.cons.inj ‹_› |>.1
      cases hc
    · simp only [hnumber, Option.map_some, Option.some.injEq, Prod.mk.injEq, and_true]
      omega
  · split
    · rw [List.cons_append, readYear, skipBlanks_cons (by decide)]
      simp only [readLongNumber_padded (c := '-') rfl, Option.map_some, Option.some.injEq, Prod.mk.injEq, and_true]
      omega
    · rw [List.cons_append, readYear, skipBlanks_cons (by decide)]
      simp only [readLongNumber_padded (c := '-') rfl, Option.map_some, Option.some.injEq, Prod.mk.injEq, and_true]
      omega

theorem readDate_write (date : Date) (hmonth : date.month < 10 ^ 2) (hday : date.day < 10 ^ 2)
    (rest : List Char) :
    readDate (writeYear date.year ++ '-' :: Decimal.padded 2 date.month ++ '-' :: Decimal.padded 2 date.day ++
      rest) = some (date, rest) := by
  simp only [readDate, List.append_assoc, List.cons_append, readYear_writeYear, Option.bind_eq_bind,
    Option.bind_some, readMark_cons (c := '-') (by decide), readNumber_padded (Nat.succ_pos 1) hmonth,
    readNumber_padded (Nat.succ_pos 1) hday]
  rfl

theorem readFraction_padded (hwidth : 0 < width) (hle : width ≤ 9) (hn : n < 10 ^ width) (hc : c.isDigit = false)
    (rest : List Char) :
    readFraction ('.' :: (Decimal.padded width n ++ c :: rest)) = some (n * 10 ^ (9 - width), c :: rest) := by
  have hlength := Decimal.length_padded hwidth hn
  have hspan : Decimal.spanUpTo 9 (Decimal.padded width n ++ c :: rest) = (Decimal.padded width n, c :: rest) :=
    Decimal.spanUpTo_append (fun _ => Decimal.isDigit_of_mem_padded) (by omega) (.inr (by simp [hc]))
  obtain ⟨d, s, hs, -⟩ := Decimal.exists_padded width n
  rw [readFraction, hspan, hs]
  simp only
  rw [← hs, Decimal.value_padded, hlength, List.dropWhile_cons_of_neg (by simp [hc])]
  rfl

theorem readFraction_writeFraction (hn : nanos < second) (rest : List Char) :
    readFraction (writeFraction nanos ++ 'Z' :: rest) = some (nanos, 'Z' :: rest) := by
  unfold second at hn
  unfold writeFraction
  split
  · subst nanos
    rfl
  · split
    · rw [List.cons_append, readFraction_padded (by decide) (by decide) (by omega) rfl]
      congr 2
      omega
    · split
      · rw [List.cons_append, readFraction_padded (by decide) (by decide) (by omega) rfl]
        congr 2
        omega
      · rw [List.cons_append, readFraction_padded (by decide) (by decide) (by omega) rfl]
        congr 2
        omega

theorem readFraction_lt {s : List Char} (h : readFraction s = some (n, rest)) : n < second := by
  unfold readFraction at h
  split at h
  · split at h
    · cases h
    · rename_i digits rest' _ hspan
      obtain ⟨hlength, hdigits⟩ := Decimal.spanUpTo_spec hspan
      obtain ⟨rfl, -⟩ := Prod.mk.inj (Option.some.inj h)
      have hscale : 0 < 10 ^ (9 - digits.length) := Nat.pow_pos (by decide)
      have hlt := Nat.mul_lt_mul_of_pos_right (Decimal.value_lt hdigits) hscale
      rwa [← Nat.pow_add, Nat.add_sub_cancel' hlength] at hlt
  · cases h
    decide

theorem readOffset_mod {s : List Char} {offset : Int} (h : readOffset s = some (offset, rest)) :
    offset % 60 = 0 := by
  have hnumeric {s : List Char} (h : readOffset.numeric s = some (offset, rest)) : offset % 60 = 0 := by
    simp only [readOffset.numeric, Option.bind_eq_bind, Option.bind_eq_some_iff] at h
    obtain ⟨⟨sign, _⟩, -, ⟨hours, _⟩, -, ⟨minutes, _⟩, -, -, -, hvalue⟩ := h
    obtain ⟨rfl, -⟩ := Prod.mk.inj (Option.some.inj hvalue)
    have heq : sign * ((hours * 3600 + minutes * 60 : Nat) : Int) = 60 * (sign * (hours * 60 + minutes)) := by
      push_cast
      ring
    dsimp only
    rw [heq, Int.mul_emod_right]
  unfold readOffset at h
  split at h
  · cases h
    rfl
  · cases h
    rfl
  · split at h
    · cases h
      rfl
    · exact hnumeric h
  · exact hnumeric h

theorem readClock_spec {s : List Char} (h : readClock s = some (clock, nanos, rest)) :
    nanos < 2 * second ∧ (second ≤ nanos → clock % 60 = 59) := by
  simp only [readClock, Option.bind_eq_bind, Option.bind_eq_some_iff] at h
  obtain ⟨⟨hour, _⟩, -, _, -, ⟨minute, _⟩, -, _, -, ⟨sec, _⟩, -, ⟨fraction, _⟩, hfraction, _, hguard, hvalue⟩ := h
  obtain ⟨rfl, hrest⟩ := Prod.mk.inj (Option.some.inj hvalue)
  obtain ⟨rfl, -⟩ := Prod.mk.inj hrest
  have hlt := readFraction_lt hfraction
  obtain ⟨-, -, hsec⟩ : hour < 24 ∧ minute < 60 ∧ sec ≤ 60 := (Option.guard_eq_some' _).mp hguard
  dsimp only
  unfold second at hlt ⊢
  refine ⟨by omega, fun hleap => ?_⟩
  obtain rfl : sec = 60 := by omega
  omega

theorem readClock_write (hclock : clock < secondsPerDay) (hnanos : nanos < 2 * second) (rest : List Char) :
    readClock (Decimal.padded 2 (clock / 3600) ++ ':' :: Decimal.padded 2 (clock / 60 % 60) ++
        ':' :: Decimal.padded 2 (clock % 60 + nanos / second) ++ writeFraction (nanos % second) ++ 'Z' :: rest) =
      some (clock - clock % 60 + (clock % 60 + nanos / second - (clock % 60 + nanos / second) / 60),
        nanos % second + (clock % 60 + nanos / second) / 60 * second, 'Z' :: rest) := by
  unfold secondsPerDay at hclock
  have hleap : nanos / second ≤ 1 := by
    unfold second at hnanos ⊢
    omega
  have hfraction := readFraction_writeFraction (Nat.mod_lt nanos (show 0 < second by decide)) rest
  simp only [readClock, List.append_assoc, List.cons_append, Option.bind_eq_bind, Option.bind_some,
    readMark_cons (c := ':') (by decide), readNumber_padded (Nat.succ_pos 1) (n := clock / 3600) (by omega),
    readNumber_padded (Nat.succ_pos 1) (n := clock / 60 % 60) (by omega),
    readNumber_padded (Nat.succ_pos 1) (n := clock % 60 + nanos / second) (by omega), hfraction]
  have hguard : clock / 3600 < 24 ∧ clock / 60 % 60 < 60 ∧ clock % 60 + nanos / second ≤ 60 := by omega
  have hminutes : clock / 3600 * 3600 + clock / 60 % 60 * 60 = clock - clock % 60 := by omega
  simp [guard, hguard, hminutes]

def year (t : Timestamp) : Int := Date.yearOf (t.seconds / secondsPerDay)

/-- A leap second is the last of its minute. -/
def Regular (t : Timestamp) : Prop := second ≤ t.nanos → t.seconds % 60 = 59

instance (t : Timestamp) : Decidable t.Regular := inferInstanceAs (Decidable (_ → _))

/-- The instant that is read where `t` was written. A leap second out of place is taken for the second after it,
for it is written as that. -/
def readBack (t : Timestamp) : Timestamp :=
  if t.Regular then t else ⟨t.seconds + 1, t.nanos - second⟩

theorem readBack_eq_self : t.readBack = t ↔ t.Regular := by
  unfold readBack
  split
  · simpa
  · refine iff_of_false (fun heq => ?_) ‹_›
    have hseconds : t.seconds + 1 = t.seconds := congrArg Timestamp.seconds heq
    omega

theorem day_readBack (t : Timestamp) : t.readBack.seconds / secondsPerDay = t.seconds / secondsPerDay := by
  unfold readBack
  split
  · rfl
  · rename_i hregular
    unfold Regular at hregular
    unfold secondsPerDay
    dsimp only
    omega

/-- The seconds of the day and the nanoseconds that are written, second 60 being a leap second. -/
theorem readBack_eq (hnanos : t.nanos < 2 * second) {clock sec : Nat}
    (hclock : clock = (t.seconds % secondsPerDay).toNat) (hsec : sec = clock % 60 + t.nanos / second) :
    t.seconds / secondsPerDay * secondsPerDay + (clock - clock % 60 + (sec - sec / 60) : Nat) =
        t.readBack.seconds ∧
      t.nanos % second + sec / 60 * second = t.readBack.nanos := by
  obtain ⟨seconds, nanos⟩ := t
  unfold readBack
  unfold second at hnanos hsec ⊢
  unfold secondsPerDay at hclock ⊢
  split <;> rename_i hregular <;> unfold Regular second at hregular <;> dsimp only at * <;> omega

/-- What an instant is: one of the years, and less than a second more where it is a leap second. -/
structure Representable (t : Timestamp) : Prop where
  year : minYear ≤ t.year ∧ t.year ≤ maxYear
  nanos : t.nanos < 2 * second

theorem Representable.read?_write (ht : t.Representable) : read? t.write = some t.readBack := by
  obtain ⟨hyear, hnanos⟩ := ht
  unfold Timestamp.year at hyear
  have hclock : (t.seconds % secondsPerDay).toNat < secondsPerDay := by
    unfold secondsPerDay
    omega
  obtain ⟨hmonth, hday⟩ := Date.ofDays_le (t.seconds / secondsPerDay)
  have hdate := readDate_write (Date.ofDays (t.seconds / secondsPerDay)) (by omega) (by omega)
  have htime := readClock_write hclock hnanos []
  have hoffset : readOffset (skipBlanks ['Z']) = some (0, []) := rfl
  obtain ⟨hback, hnanosBack⟩ := readBack_eq hnanos rfl rfl
  simp only [List.append_assoc, List.cons_append] at hdate htime
  simp only [read?, write, List.append_assoc, List.cons_append, hdate, htime, hoffset, Option.bind_eq_bind,
    Option.bind_some, Int.sub_zero, Date.toDays_ofDays, hback, hnanosBack, day_readBack,
    Date.isValid_ofDays]
  simp [guard, hyear, skipBlanks]

theorem representable_of_read? {s : List Char} (h : read? s = some t) : t.Representable ∧ t.Regular := by
  simp only [read?, Option.bind_eq_bind, Option.bind_eq_some_iff] at h
  obtain ⟨⟨date, _⟩, -, -, -, h⟩ := h
  split at h
  case h_4 => cases h
  -- What follows the mark between the date and the clock does not depend on the mark.
  all_goals
    simp only [Option.bind_some, Option.bind_eq_some_iff] at h
    obtain ⟨⟨clock, nanos, _⟩, hclock, ⟨offset, _⟩, hoffset, -, -, _, hyear, hvalue⟩ := h
    obtain rfl := Option.some.inj hvalue
    obtain ⟨hnanos, hleap⟩ := readClock_spec hclock
    have hminute := readOffset_mod hoffset
    refine ⟨⟨(Option.guard_eq_some' _).mp hyear, hnanos⟩, fun hsecond => ?_⟩
    have hsec := hleap hsecond
    dsimp only at *
    unfold secondsPerDay
    omega

theorem length_writeYear_le {y : Int} (hmin : minYear ≤ y) (hmax : y ≤ maxYear) : (writeYear y).length ≤ 7 := by
  have hplaces {n : Nat} (hn : n < 1000000) : (Decimal.padded 4 n).length ≤ 6 :=
    Decimal.length_padded_le (by decide) (by decide) hn
  unfold minYear at hmin
  unfold maxYear at hmax
  unfold writeYear
  split
  · exact (hplaces (by omega)).trans (by decide)
  · split <;> exact Nat.succ_le_succ (hplaces (by omega))

theorem length_writeFraction_le (hn : nanos < second) : (writeFraction nanos).length ≤ 10 := by
  have hplaces {width n : Nat} (hwidth : width ≤ 9) (hn : n < 1000000000) : (Decimal.padded width n).length ≤ 9 :=
    Decimal.length_padded_le hwidth (by decide) hn
  unfold second at hn
  unfold writeFraction
  split
  · decide
  · split
    · exact Nat.succ_le_succ (hplaces (by decide) (by omega))
    · split
      · exact Nat.succ_le_succ (hplaces (by decide) (by omega))
      · exact Nat.succ_le_succ (hplaces (by decide) hn)

theorem length_write_le (ht : t.Representable) : t.write.length ≤ 33 := by
  have hyear := length_writeYear_le ht.year.1 ht.year.2
  have hfraction := length_writeFraction_le (Nat.mod_lt t.nanos (show 0 < second by decide))
  unfold year at hyear
  have hplaces (n : Nat) (hn : n < 10 ^ 2) := Decimal.length_padded (Nat.succ_pos 1) hn
  obtain ⟨hmonth, hday⟩ := Date.ofDays_le (t.seconds / secondsPerDay)
  have hclock : (t.seconds % secondsPerDay).toNat < 86400 := by
    unfold secondsPerDay
    omega
  have hleap : t.nanos / second ≤ 1 := by
    have hnanos := ht.nanos
    unfold second at hnanos ⊢
    omega
  simp only [write, List.length_append, List.length_cons, List.length_nil, Date.year_ofDays]
  rw [hplaces _ (by omega), hplaces _ (by omega), hplaces _ (by omega), hplaces _ (by omega), hplaces _ (by omega)]
  omega

end Timestamp
end MemoryBus
