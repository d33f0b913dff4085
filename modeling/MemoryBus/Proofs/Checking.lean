import Mathlib.Order.Bounds.Basic
import MemoryBus.Proofs.Faults
import MemoryBus.Proofs.Recency

/-! The check of a table against banks: it admits the tables of which no access can leave its bank, and says of
the first other entry how far its accesses reach. -/
namespace MemoryBus

namespace Backing

variable {k : Backing} {offset : Nat}

/-- Some byte, or some word at an even address, takes the byte at this offset. -/
def Touches (k : Backing) (offset : Nat) : Prop :=
  ∃ a, offset = k.offset a ∨ a &&& 1 = 0 ∧ offset = k.offset a + 1

theorem Touches.le_last (h : k.Touches offset) : offset ≤ k.lastOffset := by
  obtain ⟨a, rfl | ⟨ha, rfl⟩⟩ := h
  · exact k.offset_le_last a
  · exact offset_lt_last ha

/-- The address that has the bits of the mask reaches the last offset: as a byte, or as a word if the mask
leaves bit 0 out. -/
theorem touches_last (k : Backing) : k.Touches k.lastOffset := by
  have hoffset : k.offset k.mask = k.base.toNat + k.mask.toNat := by rw [offset, UInt32.and_self]
  by_cases hmask : k.mask &&& 1 = 0
  · exact ⟨k.mask, .inr ⟨hmask, by rw [lastOffset, if_pos hmask, hoffset]⟩⟩
  · exact ⟨k.mask, .inl (by rw [lastOffset, if_neg hmask, hoffset, Nat.add_zero])⟩

theorem isGreatest_last (k : Backing) : IsGreatest {offset | k.Touches offset} k.lastOffset :=
  ⟨k.touches_last, fun _ h => h.le_last⟩

/-- All bytes that accesses take are below a bound exactly if the last offset is. -/
theorem last_lt_iff {size : Nat} : k.lastOffset < size ↔
    ∀ a, k.offset a < size ∧ (a &&& 1 = 0 → k.offset a + 1 < size) := by
  constructor
  · intro h a
    exact ⟨Nat.lt_of_le_of_lt (k.offset_le_last a) h, fun ha => Nat.lt_of_le_of_lt (offset_lt_last ha) h⟩
  · intro h
    obtain ⟨a, ha | ⟨heven, ha⟩⟩ := k.touches_last
    · exact ha ▸ (h a).1
    · exact ha ▸ (h a).2 heven

end Backing

namespace Range

variable {r : Range} {s : Banks} {i : Nat} {e : TableError}

/-- Some access to the range is served from a bank. -/
def Ready (r : Range) : Prop := r.access.has .read = true ∨ r.access.has .write = true

/-- What keeps entry `i` from being served by the banks `s`: it says of no bank, or of one that is not there, or
it reaches past the end of its bank. -/
inductive Unfit (s : Banks) (i : Nat) (r : Range) : TableError → Prop
  | missing : r.Ready → r.backing = none → Unfit s i r (.missingBacking i)
  | unknown {k : Backing} : r.Ready → r.backing = some k → s.size? k.bank = none →
    Unfit s i r (.unknownBank i k.bank)
  | outOfBounds {k : Backing} {size last : Nat} : r.Ready → r.backing = some k →
    s.size? k.bank = some size → IsGreatest {offset | k.Touches offset} last → size ≤ last →
    Unfit s i r (.backingOutOfBounds i k.bank last size)

theorem misfit_eq_some : Table.misfit s.sizes i r = some e ↔ r.Unfit s i e := by
  have hready : r.isCacheable = true ↔ r.Ready := isCacheable_iff
  unfold Table.misfit
  by_cases hr : r.Ready
  · simp only [hready.mpr hr, Bool.not_true, Bool.false_eq_true, if_false, ← Banks.size?_eq_sizes]
    constructor
    · intro h
      cases hk : r.backing with
      | none =>
        obtain rfl : TableError.missingBacking i = e := by simpa [hk] using h
        exact .missing hr hk
      | some k =>
        cases hs : s.size? k.bank with
        | none =>
          obtain rfl : TableError.unknownBank i k.bank = e := by simpa [hk, hs] using h
          exact .unknown hr hk hs
        | some size =>
          obtain ⟨hle, rfl⟩ : size ≤ k.lastOffset ∧
              TableError.backingOutOfBounds i k.bank k.lastOffset size = e := by simpa [hk, hs] using h
          exact .outOfBounds hr hk hs k.isGreatest_last hle
    · intro h
      cases h with
      | missing _ hk => simp [hk]
      | unknown _ hk hs => simp [hk, hs]
      | @outOfBounds k size last _ hk hs hlast hle =>
        obtain rfl := hlast.unique k.isGreatest_last
        simp [hk, hs, hle]
  · have hc : r.isCacheable = false := by simpa using mt hready.mp hr
    refine iff_of_false (by simp [hc]) fun h => ?_
    cases h <;> exact hr ‹_›

end Range

namespace Table

variable {t : Table} {s s' : Banks}

theorem check_after (t : Table) (as : List UInt32) (sizes : List Nat) :
    (t.after as).check sizes = t.check sizes := by rw [check, entries_after, check]

/-- The check admits a table exactly if each entry that is ready says where it is kept, in a bank that there
is, and every byte and every word at an even address stays inside. Otherwise it reports the first entry, in the
order of building, that falls short, with the highest offset that an access to it takes. Lookups and new
contents of the banks make no difference, and banks that are added do not make an admitted table a bad one. -/
theorem check_sound_and_tight (t : Table) (s : Banks) :
    (t.check s.sizes = .ok () ↔ ∀ r ∈ t.entries, r.access.has .read = true ∨ r.access.has .write = true →
        ∃ k size, r.backing = some k ∧ s.size? k.bank = some size ∧
          ∀ a, k.base.toNat + (a &&& k.mask).toNat < size ∧
            (a &&& 1 = 0 → k.base.toNat + (a &&& k.mask).toNat + 1 < size)) ∧
      (∀ e, t.check s.sizes = .error e ↔ FirstFault (Range.Unfit s) t.entries e) ∧
      (∀ (as : List UInt32) (s' : Banks), s'.shape = s.shape →
        (t.after as).check s'.sizes = t.check s.sizes) ∧
      ∀ (as : List UInt32) (s' : Banks), s.shape <+: s'.shape → t.check s.sizes = .ok () →
        (t.after as).check s'.sizes = .ok () := by
  refine ⟨?_, fun e => ?_, fun as s' hs => ?_, fun as s' hs hok => ?_⟩
  · have hfits (r : Range) : r.Fits s.sizes ↔ (r.Ready → ∃ k size, r.backing = some k ∧
        s.size? k.bank = some size ∧ ∀ a, k.offset a < size ∧ (a &&& 1 = 0 → k.offset a + 1 < size)) := by
      simp only [Range.Fits, Range.isCacheable_iff, Range.Ready, Backing.last_lt_iff, Banks.size?_eq_sizes]
    simp only [check_ok_iff, hfits]
    rfl
  · simp only [check_error_iff, Range.misfit_eq_some]
  · rw [check_after, Banks.sizes_of_shape hs]
  · rw [check_after, check_ok_iff]
    exact fun r hr => (check_ok_iff.mp hok r hr).mono (Banks.sizes_prefix_of_shape hs)

/-- Of two windows that are too long the first is reported, with the byte that an even word has behind the last
masked address, also after a lookup has moved the second to the front. -/
theorem check_sound_and_tight_windows : ∃ (t : Table) (s : Banks),
    build [⟨0xFF00, 0x0100, .device, some ⟨7, 0, 0⟩, 0⟩, ⟨0xFF00, 0x0200, .read, some ⟨0, 3, 0x0A⟩, 0⟩,
      ⟨0xFF00, 0x0300, .write, some ⟨0, 0, 0x0F⟩, 0⟩] .guard = .ok t ∧
    s.sizes = [14] ∧ (t.after [0x0300]).order = [2, 0, 1, 3] ∧
    (t.after [0x0300]).check s.sizes = .error (.backingOutOfBounds 1 0 14 14) ∧
    IsGreatest {offset | Backing.Touches ⟨0, 3, 0x0A⟩ offset} 14 := by
  obtain ⟨t, s, hbuild, hsizes, horder, hentry, hcheck⟩ : ∃ (t : Table) (s : Banks),
      build [⟨0xFF00, 0x0100, .device, some ⟨7, 0, 0⟩, 0⟩, ⟨0xFF00, 0x0200, .read, some ⟨0, 3, 0x0A⟩, 0⟩,
        ⟨0xFF00, 0x0300, .write, some ⟨0, 0, 0x0F⟩, 0⟩] .guard = .ok t ∧
      s.sizes = [14] ∧ (t.after [0x0300]).order = [2, 0, 1, 3] ∧
      t.entries[1]? = some ⟨0xFF00, 0x0200, .read, some ⟨0, 3, 0x0A⟩, 0⟩ ∧
      t.check s.sizes = .error (.backingOutOfBounds 1 0 14 14) :=
    ⟨⟨.ofRanges _ _, .zero, _⟩, ⟨#[⟨"ram", ⟨.replicate 14 0⟩⟩]⟩, rfl, rfl, by decide, rfl, rfl⟩
  obtain ⟨-, hfirst, hsame, -⟩ := check_sound_and_tight t s
  refine ⟨t, s, hbuild, hsizes, horder, (hsame [0x0300] s rfl).trans hcheck, ?_⟩
  obtain ⟨i, r, hr, hunfit, -⟩ := (hfirst _).mp hcheck
  generalize he : TableError.backingOutOfBounds 1 0 14 14 = e at hunfit
  cases hunfit with
  | missing => cases he
  | unknown => cases he
  | @outOfBounds k size last _ hk _ hlast _ =>
    obtain ⟨rfl, -, rfl, -⟩ := TableError.backingOutOfBounds.inj he
    obtain rfl := Option.some.inj (hr.symm.trans hentry)
    obtain rfl := Option.some.inj hk
    exact hlast

end Table
end MemoryBus
