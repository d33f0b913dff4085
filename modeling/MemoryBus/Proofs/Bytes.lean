import Mathlib.Tactic.Ring
import MemoryBus.Proofs.Banks

/-! Numbers as bytes, the highest first, and reading and writing a list of places in the banks. -/
namespace MemoryBus

namespace BigEndian

/-- The number that bytes spell. -/
def number (bytes : List UInt8) : Nat := bytes.foldl (fun n v => n * 256 + v.toNat) 0

/-- The `n` lowest bytes of a number. -/
def digits : Nat → Nat → List UInt8
  | 0, _ => []
  | n + 1, v => digits n (v / 256) ++ [UInt8.ofNat v]

theorem digits_add (m n v : Nat) : digits (m + n) v = digits m (v / 256 ^ n) ++ digits n v := by
  induction n generalizing v with
  | zero => simp [digits]
  | succ n ih =>
    rw [← Nat.add_assoc, digits, ih, digits, Nat.div_div_eq_div_mul, Nat.pow_succ', List.append_assoc]

theorem digits_mod (n v : Nat) : digits n (v % 256 ^ n) = digits n v := by
  induction n generalizing v with
  | zero => rfl
  | succ n ih =>
    have hrest : v % 256 ^ (n + 1) / 256 = v / 256 % 256 ^ n := by
      rw [Nat.pow_succ', Nat.mod_mul_right_div_self]
    have hlast : UInt8.ofNat (v % 256 ^ (n + 1)) = UInt8.ofNat v := by
      apply UInt8.toNat_inj.mp
      simp [Nat.pow_succ']
    rw [digits, digits, hrest, hlast, ih]

/-- Only what does not fit the bytes is lost. -/
theorem number_digits (n v : Nat) : number (digits n v) = v % 256 ^ n := by
  induction n generalizing v with
  | zero => simp [digits, number, Nat.mod_one]
  | succ n ih =>
    calc number (digits (n + 1) v) = number (digits n (v / 256)) * 256 + v % 256 := by
          simp [digits, number]
      _ = v % 256 + 256 * (v / 256 % 256 ^ n) := by rw [ih]; ring
      _ = v % 256 ^ (n + 1) := by rw [Nat.pow_succ', Nat.mod_mul]

theorem toNat_word (high low : UInt8) : (word high low).toNat = number [high, low] := by
  have hhigh : high.toNat < 2 ^ 8 := high.toNat_lt
  have hlow : low.toNat < 2 ^ 8 := low.toNat_lt
  have hfit : high.toNat <<< 8 % 65536 = high.toNat <<< 8 := by
    rw [Nat.shiftLeft_eq]
    omega
  calc (word high low).toNat = high.toNat <<< 8 ||| low.toNat := by simp [word, hfit]
    _ = high.toNat <<< 8 + low.toNat := (Nat.shiftLeft_add_eq_or_of_lt hlow _).symm
    _ = number [high, low] := by simp [number, Nat.shiftLeft_eq]

theorem toNat_long (high low : UInt16) :
    (long high low).toNat = high.toNat * 65536 + low.toNat := by
  have hhigh : high.toNat < 2 ^ 16 := high.toNat_lt
  have hlow : low.toNat < 2 ^ 16 := low.toNat_lt
  have hfit : high.toNat <<< 16 % 4294967296 = high.toNat <<< 16 := by
    rw [Nat.shiftLeft_eq]
    omega
  calc (long high low).toNat = high.toNat <<< 16 ||| low.toNat := by simp [long, hfit]
    _ = high.toNat <<< 16 + low.toNat := (Nat.shiftLeft_add_eq_or_of_lt hlow _).symm
    _ = high.toNat * 65536 + low.toNat := by rw [Nat.shiftLeft_eq]

theorem word_eq_number (high low : UInt8) : word high low = UInt16.ofNat (number [high, low]) := by
  rw [← toNat_word, UInt16.ofNat_toNat]

theorem long_eq_number (a b c d : UInt8) :
    long (word a b) (word c d) = UInt32.ofNat (number [a, b, c, d]) := by
  have hbytes : number [a, b, c, d] = (long (word a b) (word c d)).toNat := by
    rw [toNat_long, toNat_word, toNat_word]
    simp only [number, List.foldl_cons, List.foldl_nil]
    ring
  rw [hbytes, UInt32.ofNat_toNat]

theorem digits_word (v : UInt16) : digits 2 v.toNat = [wordHigh v, wordLow v] := by
  have hhigh : UInt8.ofNat (v.toNat / 256) = wordHigh v := by
    apply UInt8.toNat_inj.mp
    simp [wordHigh, Nat.shiftRight_eq_div_pow]
  have hlow : UInt8.ofNat v.toNat = wordLow v := by
    apply UInt8.toNat_inj.mp
    simp [wordLow]
  simp [digits, hhigh, hlow]

theorem digits_long (v : UInt32) : digits 4 v.toNat =
    [wordHigh (longHigh v), wordLow (longHigh v), wordHigh (longLow v), wordLow (longLow v)] := by
  have hv : v.toNat < 2 ^ 32 := v.toNat_lt
  have hhigh : v.toNat / 256 ^ 2 = (longHigh v).toNat := by
    simp only [longHigh, UInt32.toNat_toUInt16, UInt32.toNat_shiftRight, Nat.shiftRight_eq_div_pow]
    simp
    omega
  have hlow : v.toNat % 256 ^ 2 = (longLow v).toNat := by simp [longLow]
  calc digits 4 v.toNat = digits 2 (v.toNat / 256 ^ 2) ++ digits 2 (v.toNat % 256 ^ 2) := by
        rw [digits_mod, ← digits_add]
    _ = _ := by
        rw [hhigh, hlow, digits_word, digits_word]
        rfl

end BigEndian

namespace Banks

/-- The byte at a place, and zero where there is none. -/
def byteAt (s : Banks) : Option (Nat × Nat) → UInt8
  | none => 0
  | some (bank, offset) => (s.byte? bank offset).getD 0

/-- Writes a byte to a place, and drops it where there is none. -/
def put (s : Banks) (c : Option (Nat × Nat)) (v : UInt8) : Banks :=
  match c with
  | none => s
  | some (bank, offset) => s.setByte bank offset v

/-- Writes bytes to their places, one after the other. -/
def store (s : Banks) (xs : List (Option (Nat × Nat) × UInt8)) : Banks :=
  xs.foldl (fun s (c, v) => s.put c v) s

variable {s s' : Banks} {bank offset : Nat} {v : UInt8} {c c' : Option (Nat × Nat)}
  {xs : List (Option (Nat × Nat) × UInt8)}

/-- There is no place, or a bank has it. -/
def Has (s : Banks) (c : Option (Nat × Nat)) : Prop :=
  ∀ bank offset, c = some (bank, offset) → s.Reaches .byte bank offset

theorem Has.of_sizes (hc : s.Has c) (hs : s'.sizes = s.sizes) : s'.Has c := by
  intro bank offset heq
  rw [Reaches, hs]
  exact hc bank offset heq

@[simp] theorem sizes_put : (s.put c v).sizes = s.sizes := by
  cases c with
  | none => rfl
  | some place => exact sizes_setByte v

@[simp] theorem sizes_store : (s.store xs).sizes = s.sizes := by
  induction xs generalizing s with
  | nil => rfl
  | cons x xs ih => exact ih.trans sizes_put

theorem store_append (xs ys : List (Option (Nat × Nat) × UInt8)) :
    s.store (xs ++ ys) = (s.store xs).store ys := List.foldl_append

theorem store_of_none (hxs : ∀ x ∈ xs, x.1 = none) : s.store xs = s := by
  induction xs with
  | nil => rfl
  | cons x xs ih =>
    obtain ⟨c, v⟩ := x
    obtain rfl : c = none := hxs (c, v) (by simp)
    exact ih fun x hx => hxs x (by simp [hx])

theorem readByte_eq (h : s.Reaches .byte bank offset) :
    s.readByte bank offset = .ok (s.byteAt (some (bank, offset))) := by
  obtain ⟨v, hv⟩ := Option.isSome_iff_exists.mp (byte?_isSome.mpr h)
  simp [readByte, byteAt, hv]

theorem readWord_eq (h : s.Reaches .word bank offset) : s.readWord bank offset =
    .ok (BigEndian.word (s.byteAt (some (bank, offset))) (s.byteAt (some (bank, offset + 1)))) := by
  simp only [readWord, readByte_eq h.byte_of_word.1, readByte_eq h.byte_of_word.2]
  rfl

theorem getElem?_data (bytes : ByteArray) (i : Nat) : bytes[i]? = bytes.data[i]? := by
  by_cases hi : i < bytes.size
  · rw [getElem?_pos bytes i hi, getElem?_pos bytes.data i hi]
    rfl
  · rw [getElem?_neg bytes i hi, getElem?_neg bytes.data i hi]

theorem getElem?_set {bytes : ByteArray} (ho : offset < bytes.size) (i : Nat) :
    (bytes.set! offset v)[i]? = if i = offset then some v else bytes[i]? := by
  have ho' : offset < bytes.data.size := ho
  have hdata : (bytes.set! offset v).data = bytes.data.setIfInBounds offset v := rfl
  simp only [getElem?_data, hdata, Array.getElem?_setIfInBounds, ho', if_true, eq_comm]

theorem byte?_setByte (h : s.Reaches .byte bank offset) (bank' offset' : Nat) :
    (s.setByte bank offset v).byte? bank' offset' =
      if bank' = bank ∧ offset' = offset then some v else s.byte? bank' offset' := by
  obtain ⟨size, hsize, ho⟩ := h
  simp only [sizes, List.getElem?_map, Array.getElem?_toList, Option.map_eq_some_iff] at hsize
  obtain ⟨k, hk, rfl⟩ := hsize
  unfold byte? setByte
  by_cases hbank : bank' = bank
  · subst hbank
    simp only [Array.getElem?_modify, if_true, hk, Option.map_some, getElem?_set ho, true_and]
  · simp [Array.getElem?_modify, hbank, Ne.symm hbank]

theorem overwriteBank_single (bank offset : Nat) (v : UInt8) :
    s.overwriteBank bank offset [v] = s.setByte bank offset v := by
  have hset (bytes : ByteArray) : overwrite bytes offset [v] = bytes.set! offset v := by
    by_cases ho : offset < bytes.size
    · simp [overwrite, ho]
    · have hout : bytes.data.size ≤ offset := Nat.le_of_not_lt ho
      have hsame : bytes.data.setIfInBounds offset v = bytes.data :=
        Array.setIfInBounds_eq_of_size_le hout
      simp only [overwrite, List.foldl_cons, List.foldl_nil, if_neg ho]
      exact congrArg ByteArray.mk hsame.symm
  simp only [overwriteBank, setByte, hset]

theorem byte?_put (hc : s.Has c) (bank offset : Nat) : (s.put c v).byte? bank offset =
    if some (bank, offset) = c then some v else s.byte? bank offset := by
  cases c with
  | none => simp [put]
  | some place =>
    obtain ⟨bank', offset'⟩ := place
    simp [put, byte?_setByte (hc bank' offset' rfl)]

/-- Of several bytes written to one place the last stays, and where none is written nothing changes. -/
theorem byte?_store (hxs : ∀ x ∈ xs, s.Has x.1) (bank offset : Nat) : (s.store xs).byte? bank offset =
    (xs.reverse.lookup (some (bank, offset))).or (s.byte? bank offset) := by
  induction xs generalizing s with
  | nil => rfl
  | cons x xs ih =>
    obtain ⟨c, v⟩ := x
    have hrest : ∀ x ∈ xs, (s.put c v).Has x.1 :=
      fun x hx => (hxs x (by simp [hx])).of_sizes sizes_put
    have hhead : s.Has c := hxs (c, v) (by simp)
    change ((s.put c v).store xs).byte? bank offset = _
    rw [ih hrest, byte?_put hhead, List.reverse_cons, List.lookup_append, Option.or_assoc,
      List.lookup_cons]
    by_cases heq : some (bank, offset) = c
    · simp [heq]
    · simp [heq, beq_eq_false_iff_ne.mpr heq]

/-- What is written to different places can be read there. -/
theorem map_byteAt_store {cells : List (Option (Nat × Nat))} {bytes : List UInt8}
    (hlength : cells.length = bytes.length) (hcells : ∀ c ∈ cells, c ≠ none ∧ s.Has c)
    (hn : cells.Nodup) : cells.map (s.store (cells.zip bytes)).byteAt = bytes := by
  induction cells generalizing s bytes with
  | nil => exact (List.eq_nil_of_length_eq_zero hlength.symm).symm
  | cons c cells ih =>
    obtain ⟨v, bytes, rfl⟩ := List.exists_cons_of_length_eq_add_one hlength.symm
    obtain ⟨hc, hn⟩ := List.nodup_cons.mp hn
    obtain ⟨hplace, hhead⟩ := hcells c (by simp)
    have hrest : ∀ c' ∈ cells, c' ≠ none ∧ (s.put c v).Has c' := fun c' hc' =>
      ⟨(hcells c' (by simp [hc'])).1, (hcells c' (by simp [hc'])).2.of_sizes sizes_put⟩
    -- No later byte is written to the first place.
    have hlast : ((s.put c v).store (cells.zip bytes)).byteAt c = v := by
      obtain ⟨⟨bank, offset⟩, rfl⟩ := Option.ne_none_iff_exists'.mp hplace
      have hmiss : (cells.zip bytes).reverse.lookup (some (bank, offset)) = none := by
        refine List.lookup_eq_none_iff.mpr fun x hx => bne_iff_ne.mpr fun heq => hc ?_
        exact heq ▸ (List.of_mem_zip (List.mem_reverse.mp hx)).1
      have hzip : ∀ x ∈ cells.zip bytes, (s.put (some (bank, offset)) v).Has x.1 :=
        fun x hx => (hrest x.1 (List.of_mem_zip hx).1).2
      rw [byteAt, byte?_store hzip, hmiss, Option.none_or, byte?_put hhead, if_pos rfl,
        Option.getD_some]
    change _ :: cells.map ((s.put c v).store (cells.zip bytes)).byteAt = _
    rw [ih (by simpa using hlength) hrest hn]
    exact congrArg (· :: bytes) hlast

end Banks
end MemoryBus
