import MemoryBus.Proofs.Dating
import MemoryBus.Snapshot.Encoding

/-! Snapshots and the bytes of the files that they are saved to. -/
namespace MemoryBus

namespace Varint

variable {width count n : Nat} {rest : List UInt8}

@[simp] theorem length_littleEndian (count n : Nat) : (littleEndian count n).length = count := by
  induction count generalizing n with
  | zero => rfl
  | succ count ih => simp [littleEndian, ih]

theorem ofLittleEndian_littleEndian (hn : n < 256 ^ count) : ofLittleEndian (littleEndian count n) = n := by
  induction count generalizing n with
  | zero => simp_all [littleEndian, ofLittleEndian]
  | succ count ih =>
    have hrest : n / 256 < 256 ^ count := by
      rw [Nat.pow_succ] at hn
      omega
    rw [littleEndian, ofLittleEndian, ih hrest, Nat.toUInt8_eq, UInt8.toNat_ofNat']
    omega

theorem readBytes_littleEndian (count : Nat) (hn : n < 256 ^ count) (rest : List UInt8) :
    readBytes count (littleEndian count n ++ rest) = some (n, rest) := by
  simp [readBytes, ofLittleEndian_littleEndian hn]

theorem ofLittleEndian_lt (bytes : List UInt8) : ofLittleEndian bytes < 256 ^ bytes.length := by
  induction bytes with
  | nil => decide
  | cons b bytes ih =>
    have hb : b.toNat < 256 := b.toNat_lt
    rw [ofLittleEndian, List.length_cons, Nat.pow_succ]
    omega

theorem readBytes_lt {s : List UInt8} (hcount : count ≤ 8) (h : readBytes count s = some (n, rest)) :
    n < UInt64.size := by
  unfold readBytes at h
  dsimp only at h
  split at h
  · cases h
    exact (ofLittleEndian_lt _).trans_le (Nat.pow_le_pow_right (by decide) (‹_ = count›.trans_le hcount))
  · cases h

theorem read_lt {s : List UInt8} (h : read width s = some (n, rest)) : n < UInt64.size := by
  cases s with
  | nil => cases h
  | cons marker s =>
    simp only [read] at h
    split at h
    · cases h
      exact Nat.lt_trans marker.toNat_lt (by decide)
    · split at h
      · exact readBytes_lt (by decide) h
      · split at h
        · exact readBytes_lt (by decide) h
        · split at h
          · exact readBytes_lt (by decide) h
          · cases h

/-- A number is read with as many bytes as its width has, at the least. -/
theorem read_write (hwidth : width = 4 ∨ width = 8) (hn : n < 256 ^ width) (rest : List UInt8) :
    read width (write n ++ rest) = some (n, rest) := by
  unfold write
  split
  · have hmarker : n.toUInt8 < 251 := by
      rw [UInt8.lt_iff_toNat_lt, Nat.toUInt8_eq, UInt8.toNat_ofNat']
      exact Nat.lt_of_le_of_lt (Nat.mod_le _ _) ‹_›
    have hvalue : n.toUInt8.toNat = n := by
      rw [Nat.toUInt8_eq, UInt8.toNat_ofNat']
      omega
    simp [read, hmarker, hvalue]
  · split
    · have hle : 2 ≤ width := by omega
      simp [read, hle, readBytes_littleEndian 2 ‹_›]
    · split
      · have hle : 4 ≤ width := by omega
        simp [read, hle, readBytes_littleEndian 4 ‹_›]
      · obtain rfl : width = 8 := hwidth.resolve_left (by rintro rfl; exact absurd hn ‹_›)
        simp [read, readBytes_littleEndian 8 hn]

end Varint

namespace Snapshot

variable {α : Type} {bytes : List UInt8} {text : String} {k : BankImage} {banks : List BankImage} {s : Snapshot}

/-- The form is read as `a`, whatever stands after it, and no more than the form is. -/
def Reads (read : Reader α) (form : List UInt8) (a : α) : Prop := ∀ rest, read (form ++ rest) = some (a, rest)

theorem reads_bytes (hbytes : bytes.length < UInt64.size) : Reads readBytes (writeBytes bytes) bytes := by
  intro rest
  rw [writeBytes, readBytes, List.append_assoc, Varint.read_write (.inr rfl) hbytes]
  simp [guard]

theorem reads_text (htext : text.utf8ByteSize < UInt64.size) : Reads readText (writeText text) text := by
  intro rest
  have hbytes : text.toUTF8.data.toList.length < UInt64.size := htext
  have hvalid : String.fromUTF8? ⟨text.toUTF8.data.toList.toArray⟩ = some text := dif_pos text.isValidUTF8
  rw [writeText, readText, reads_bytes hbytes]
  simp only [Option.bind_eq_bind, Option.bind_some, hvalid]
  rfl

theorem reads_bank (hname : k.name.utf8ByteSize < UInt64.size) (hbytes : k.bytes.size < UInt64.size) :
    Reads readBank (writeBank k) k := by
  intro rest
  have hcontents : k.bytes.data.toList.length < UInt64.size := hbytes
  rw [writeBank, readBank, List.append_assoc, reads_text hname]
  simp only [Option.bind_eq_bind, Option.bind_some, reads_bytes hcontents rest]
  rfl

theorem reads_banks (hbanks : ∀ k ∈ banks, k.name.utf8ByteSize < UInt64.size ∧ k.bytes.size < UInt64.size) :
    Reads (readBanks banks.length) (banks.flatMap writeBank) banks := by
  intro rest
  induction banks with
  | nil => rfl
  | cons k banks ih =>
    obtain ⟨hname, hbytes⟩ := hbanks k (by simp)
    have hrest := ih fun k hk => hbanks k (by simp [hk])
    rw [List.length_cons, readBanks, List.flatMap_cons, List.append_assoc, reads_bank hname hbytes]
    simp only [Option.bind_eq_bind, Option.bind_some, hrest]
    rfl

/-- What a snapshot is: its time is an instant, and every length in it is a word. -/
structure Storable (s : Snapshot) : Prop where
  created : s.created.Representable
  count : s.banks.length < UInt64.size
  banks : ∀ k ∈ s.banks, k.name.utf8ByteSize < UInt64.size ∧ k.bytes.size < UInt64.size

theorem utf8ByteSize_ofList_le (chars : List Char) : (String.ofList chars).utf8ByteSize ≤ 4 * chars.length := by
  induction chars with
  | nil => decide
  | cons c chars ih =>
    have hc := c.utf8Size_le_four
    rw [String.ofList_cons, String.utf8ByteSize_append, String.utf8ByteSize_singleton, List.length_cons]
    omega

/-- The snapshot that is read where `s` was written. -/
def readBack (s : Snapshot) : Snapshot := { s with created := s.created.readBack }

theorem readBack_eq_self : s.readBack = s ↔ s.created.Regular := by
  rw [← Timestamp.readBack_eq_self]
  exact ⟨congrArg created, fun h => congrArg (fun t => { s with created := t }) h⟩

/-- The bytes of a snapshot are read as that snapshot, whatever stands after them, but for a leap second out of
place. -/
theorem decode?_encode (hs : s.Storable) (rest : List UInt8) :
    decode? (s.encode ++ rest) = some s.readBack := by
  have hversion := Varint.read_write (.inl rfl) (show s.version.toNat < 256 ^ 4 from s.version.toNat_lt)
  have hcreated : Reads readText (writeText (String.ofList s.created.write)) _ := reads_text <| by
    have hsize := utf8ByteSize_ofList_le s.created.write
    have hlength := Timestamp.length_write_le hs.created
    exact Nat.lt_of_le_of_lt (hsize.trans (Nat.mul_le_mul_left 4 hlength)) (by decide)
  have hcount := Varint.read_write (.inr rfl) (show s.banks.length < 256 ^ 8 from hs.count)
  simp only [decode?, encode, List.append_assoc, hversion, hcreated _, hcount, reads_banks hs.banks _,
    hs.created.read?_write, String.toList_ofList, Option.bind_eq_bind, Option.bind_some]
  simp [readBack]

theorem length_of_readBytes {form rest : List UInt8} (h : readBytes form = some (bytes, rest)) :
    bytes.length < UInt64.size := by
  simp only [readBytes, Option.bind_eq_bind, Option.bind_eq_some_iff] at h
  obtain ⟨⟨n, _⟩, hn, _, hlength, hvalue⟩ := h
  obtain ⟨rfl, -⟩ := Prod.mk.inj (Option.some.inj hvalue)
  exact ((Option.guard_eq_some' _).mp hlength).trans_lt (Varint.read_lt hn)

theorem size_of_readText {form rest : List UInt8} (h : readText form = some (text, rest)) :
    text.utf8ByteSize < UInt64.size := by
  simp only [readText, Option.bind_eq_bind, Option.bind_eq_some_iff] at h
  obtain ⟨⟨bytes, _⟩, hbytes, _, htext, hvalue⟩ := h
  obtain ⟨rfl, -⟩ := Prod.mk.inj (Option.some.inj hvalue)
  unfold String.fromUTF8? at htext
  split at htext
  · obtain rfl := Option.some.inj htext
    exact length_of_readBytes hbytes
  · cases htext

theorem sizes_of_readBanks {n : Nat} {form rest : List UInt8} (h : readBanks n form = some (banks, rest)) :
    banks.length = n ∧ ∀ k ∈ banks, k.name.utf8ByteSize < UInt64.size ∧ k.bytes.size < UInt64.size := by
  induction n generalizing form banks with
  | zero =>
    cases h
    simp
  | succ n ih =>
    simp only [readBanks, readBank, Option.bind_eq_bind, Option.bind_eq_some_iff] at h
    obtain ⟨⟨k, _⟩, ⟨⟨name, _⟩, hname, ⟨bytes, _⟩, hbytes, hk⟩, ⟨banks', _⟩, hbanks, hvalue⟩ := h
    obtain ⟨rfl, -⟩ := Prod.mk.inj (Option.some.inj hk)
    obtain ⟨rfl, rfl⟩ := Prod.mk.inj (Option.some.inj hvalue)
    obtain ⟨hlength, hrest⟩ := ih hbanks
    have hfirst : name.utf8ByteSize < UInt64.size ∧ bytes.length < UInt64.size :=
      ⟨size_of_readText hname, length_of_readBytes hbytes⟩
    exact ⟨congrArg (· + 1) hlength, List.forall_mem_cons.mpr ⟨hfirst, hrest⟩⟩

theorem storable_of_decode? (h : decode? bytes = some s) : s.Storable ∧ s.created.Regular := by
  simp only [decode?, Option.bind_eq_bind, Option.bind_eq_some_iff] at h
  obtain ⟨⟨version, _⟩, -, ⟨text, _⟩, -, created, hcreated, ⟨n, _⟩, hn, ⟨banks, _⟩, hbanks, hvalue⟩ := h
  obtain rfl := Option.some.inj hvalue
  obtain ⟨hlength, hsizes⟩ := sizes_of_readBanks hbanks
  obtain ⟨hinstant, hregular⟩ := Timestamp.representable_of_read? hcreated
  exact ⟨⟨hinstant, hlength.trans_lt (Varint.read_lt hn), hsizes⟩, hregular⟩

/-- The snapshots that files hold. -/
theorem storable_iff : s.Storable ∧ s.created.Regular ↔ ∃ bytes, decode? bytes = some s := by
  constructor
  · rintro ⟨hs, hregular⟩
    refine ⟨s.encode, ?_⟩
    rw [← List.append_nil s.encode, decode?_encode hs, readBack_eq_self.mpr hregular]
  · rintro ⟨bytes, h⟩
    exact storable_of_decode? h

end Snapshot
end MemoryBus
