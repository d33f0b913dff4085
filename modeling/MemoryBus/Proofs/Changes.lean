import Mathlib.Logic.Relation
import MemoryBus.Handler
import MemoryBus.Image
import MemoryBus.Proofs.Lookup
import MemoryBus.Proofs.Restoring

/-! The operations on a memory map, and what holds of every map that they lead to. -/
namespace MemoryBus

variable {P : Table → Prop}

/-- One operation on a map. `P` holds of the tables that are installed. An operation that fails
changes nothing and is no step, unless it is the loading of an image. -/
inductive Change (P : Table → Prop) : MemoryMap → MemoryMap → Prop
  | find (m : MemoryMap) (a : UInt32) : Change P m (m.find a).2
  | install {m m' : MemoryMap} {t : Table} : P t → m.install t = .ok m' → Change P m m'
  | addBank (m : MemoryMap) (name : String) (bytes : ByteArray) : Change P m (m.addBank name bytes)
  | overwriteBank (m : MemoryMap) (i offset : Nat) (bytes : List UInt8) :
    Change P m (m.overwriteBank i offset bytes)
  | restore {m m' : MemoryMap} {s : Snapshot} : m.restore s = .ok m' → Change P m m'
  | loadImage (m : MemoryMap) (i : Nat) (path : String) (file : Option ImageFile) :
    Change P m (m.loadImage i path file).2
  /-- A line in the journal. -/
  | note (m : MemoryMap) (e : Event) : Change P m (m.note e)

/-- Any number of operations. -/
def Changes (P : Table → Prop) : MemoryMap → MemoryMap → Prop := Relation.ReflTransGen (Change P)

/-- The handler changes the map by operations only, and installs only tables with property `P`. -/
def Handler.Confined {σ : Type} (P : Table → Prop) (h : Handler σ) : Prop :=
  ∀ s r m, Changes P m (h.notify s r m).map

namespace Handler

/-- A handler that installs table `t` when it is notified, and accepts if the table fits. -/
def installing (t : Table) : Handler Unit where
  name := "installing"
  device s _ _ := ⟨0, s, []⟩
  notify s _ m :=
    match m.install t with
    | .ok m => ⟨true, s, m⟩
    | .error _ => ⟨false, s, m⟩

theorem confined_installing {t : Table} (ht : P t) : (installing t).Confined P := by
  intro s r m
  simp only [installing]
  split
  · rename_i hm
    exact .single (.install ht hm)
  · exact .refl

theorem confined_silent {σ : Type} (name : String) : (silent name : Handler σ).Confined P :=
  fun _ r m => .single (.note m (.unhandledNotify r.tag))

end Handler

/-! Fitting tables. -/

namespace Backing

variable {k : Backing} {a : UInt32}

theorem and_toNat_le (a b : UInt32) : (a &&& b).toNat ≤ b.toNat := by
  rw [UInt32.toNat_and]
  exact Nat.and_le_right

theorem and_one_toNat (a : UInt32) : (a &&& 1).toNat = a.toNat % 2 := by
  rw [UInt32.toNat_and]
  exact Nat.and_one_is_mod a.toNat

theorem offset_le_last (k : Backing) (a : UInt32) : k.offset a ≤ k.lastOffset := by
  have := and_toNat_le a k.mask
  unfold offset lastOffset
  omega

/-- An even address leaves room for one more byte below the last offset. -/
theorem offset_lt_last (ha : a &&& 1 = 0) : k.offset a < k.lastOffset := by
  have hle := and_toNat_le a k.mask
  have heven : (a &&& k.mask).toNat % 2 = 0 := by
    rw [← and_one_toNat, UInt32.and_assoc, UInt32.and_comm k.mask, ← UInt32.and_assoc, ha]
    simp
  have hmask := and_one_toNat k.mask
  unfold offset lastOffset
  split
  · omega
  · rename_i hodd
    have : (k.mask &&& 1).toNat ≠ 0 := fun h => hodd (UInt32.toNat_inj.mp h)
    omega

end Backing

namespace Range

variable {r : Range} {d : Direction} {k : Backing} {sizes sizes' : List Nat} {i : Nat}

/-- The bytes that back the range are inside a bank of these sizes. -/
def Fits (r : Range) (sizes : List Nat) : Prop :=
  r.isCacheable = true → ∃ k size, r.backing = some k ∧ sizes[k.bank]? = some size ∧ k.lastOffset < size

theorem ready_of_served (h : r.served d = some k) : r.access.has d.ready = true := by
  unfold served at h
  split at h
  · assumption
  · cases h

theorem isCacheable_of_ready (h : r.access.has d.ready = true) : r.isCacheable = true := by
  have hd : r.access.bits &&& d.ready.bits = d.ready.bits := by simpa [Access.has] using h
  have hboth : (Access.union .read .write).bits &&& d.ready.bits = d.ready.bits := by cases d <;> decide
  have hne : d.ready.bits ≠ 0 := by cases d <;> decide
  simp only [isCacheable, Access.meets, bne_iff_ne]
  intro hzero
  apply hne
  rw [← hd, ← hboth, ← UInt32.and_assoc, hzero, UInt32.zero_and]

theorem isCacheable_of_served (h : r.served d = some k) : r.isCacheable = true :=
  isCacheable_of_ready (ready_of_served h)

theorem backing_of_served (h : r.served d = some k) : r.backing = some k := by
  unfold served at h
  split at h
  · exact h
  · cases h

theorem Fits.served (hf : r.Fits sizes) (h : r.served d = some k) :
    ∃ size, sizes[k.bank]? = some size ∧ k.lastOffset < size := by
  obtain ⟨k', size, hk', hsize, hlast⟩ := hf (isCacheable_of_served h)
  obtain rfl : k = k' := Option.some.inj ((backing_of_served h).symm.trans hk')
  exact ⟨size, hsize, hlast⟩

theorem Fits.mono (hf : r.Fits sizes) (hs : sizes <+: sizes') : r.Fits sizes' := by
  intro hc
  obtain ⟨k, size, hk, hsize, hlast⟩ := hf hc
  obtain ⟨rest, rfl⟩ := hs
  refine ⟨k, size, hk, ?_, hlast⟩
  rw [List.getElem?_append_left (List.getElem?_eq_some_iff.mp hsize).1, hsize]

theorem misfit_eq_none : Table.misfit sizes i r = none ↔ r.Fits sizes := by
  unfold Table.misfit Fits
  cases hc : r.isCacheable with
  | false => simp
  | true =>
    cases hk : r.backing with
    | none => simp
    | some k =>
      cases hs : sizes[k.bank]? with
      | none => simp [hs]
      | some size => by_cases hl : k.lastOffset < size <;> simp [hs, hl]

end Range

namespace Table

variable {t : Table} {sizes sizes' : List Nat}

theorem check_ok_iff : t.check sizes = .ok () ↔ ∀ r ∈ t.entries, r.Fits sizes := by
  unfold check
  split
  · rename_i e h
    obtain ⟨⟨r, i⟩, hmem, hmis⟩ := List.exists_of_findSome?_eq_some h
    refine iff_of_false (by simp) fun hall => ?_
    have hr := hall r (List.mem_of_getElem? (List.mem_zipIdx_iff_getElem?.mp hmem))
    exact absurd ((Range.misfit_eq_none.mpr hr).symm.trans hmis) (by simp)
  · rename_i h
    simp only [List.findSome?_eq_none_iff, Range.misfit_eq_none] at h
    refine iff_of_true rfl fun r hr => ?_
    obtain ⟨i, hi⟩ := List.mem_iff_getElem?.mp hr
    exact h (r, i) (by simpa [List.mem_zipIdx_iff_getElem?] using hi)

theorem mem_entries_of_served {i : Nat} {d : Direction} {k : Backing}
    (h : (t.entry i).served d = some k) : t.entry i ∈ t.entries := by
  rw [entry_eq] at h ⊢
  cases hi : t.entries[i]? with
  | none =>
    rw [hi] at h
    exact absurd (Range.isCacheable_of_served h) (by decide +revert)
  | some r => simpa [hi] using List.mem_of_getElem? hi

/-- The guard serves nothing. -/
theorem lt_guardIndex_of_served {i : Nat} {d : Direction} {k : Backing}
    (h : (t.entry i).served d = some k) : i < t.guardIndex := by
  have hc := Range.isCacheable_of_served h
  rcases Nat.lt_trichotomy i t.guardIndex with hlt | rfl | hgt
  · exact hlt
  · exact absurd (t.valid.guard_uncacheable.symm.trans hc) (by decide)
  · have hout : t.entries.length ≤ i := by
      rw [guardIndex_eq] at hgt
      omega
    rw [entry_eq, List.getElem?_eq_none hout] at hc
    exact absurd hc (by decide)

end Table

/-! What the operations leave alone. -/

namespace MemoryMap

variable {m m' : MemoryMap} {t : Table}

theorem install_ok (h : m.install t = .ok m') : t.check m.banks.sizes = .ok () ∧
    m' = { m with
      table := t
      slots := .empty
      retired := m.retired.add m.table.stats
      journal := .installed t.size :: m.journal } := by
  unfold install at h
  cases hc : t.check m.banks.sizes with
  | error e => simp [hc, bind, Except.bind] at h
  | ok u =>
    simp only [hc, bind, Except.bind, pure, Except.pure, Except.ok.injEq] at h
    exact ⟨rfl, h.symm⟩

theorem exists_install (h : t.check m.banks.sizes = .ok ()) : ∃ m', m.install t = .ok m' := by
  simp [install, h, bind, Except.bind, pure, Except.pure]

theorem restore_ok {s : Snapshot} (h : m.restore s = .ok m') : ∃ banks, banks.shape = m.banks.shape ∧
    m' = { m with banks, journal := .snapshotRestored s.banks.length :: m.journal } := by
  obtain ⟨-, -, rfl⟩ := restore_ok_iff.mp h
  exact ⟨_, Banks.shape_refills, rfl⟩

/-- Whether an image is loaded or not, nothing but the contents of the banks and the journal changes. -/
theorem loadImage_snd (m : MemoryMap) (i : Nat) (path : String) (file : Option ImageFile) :
    ∃ banks journal, banks.shape = m.banks.shape ∧
      (m.loadImage i path file).2 = { m with banks, journal } := by
  unfold loadImage
  split
  · exact ⟨_, _, rfl, rfl⟩
  · split
    · exact ⟨_, _, rfl, rfl⟩
    · exact ⟨_, _, rfl, rfl⟩
    · split
      · exact ⟨_, _, rfl, rfl⟩
      · dsimp only
        split <;> exact ⟨_, _, Banks.shape_overwriteBank _, rfl⟩

end MemoryMap

section

variable {m m' : MemoryMap} {I : MemoryMap → Prop}

/-- No operation renames or resizes a bank. -/
theorem Change.shape_grows (hc : Change P m m') : m.banks.shape <+: m'.banks.shape := by
  cases hc with
  | find a => exact List.prefix_rfl
  | install ht hi =>
    obtain ⟨-, rfl⟩ := MemoryMap.install_ok hi
    exact List.prefix_rfl
  | addBank name bytes => simp [MemoryMap.addBank, MemoryMap.note]
  | overwriteBank i offset bytes => simp [MemoryMap.overwriteBank]
  | restore hr =>
    obtain ⟨banks, hb, rfl⟩ := MemoryMap.restore_ok hr
    exact hb ▸ List.prefix_rfl
  | loadImage i path file =>
    obtain ⟨banks, journal, hb, heq⟩ := m.loadImage_snd i path file
    rw [heq]
    exact hb ▸ List.prefix_rfl
  | note e => exact List.prefix_rfl

/-- What an operation does to the table, the slots and the sizes of the banks. -/
theorem Change.cases (hc : Change P m m') :
    (∃ a, m' = (m.find a).2) ∨ (∃ t, P t ∧ m.install t = .ok m') ∨
      (m'.table = m.table ∧ m'.slots = m.slots ∧ m.banks.sizes <+: m'.banks.sizes) := by
  have hsizes := Banks.sizes_prefix_of_shape hc.shape_grows
  cases hc with
  | find a => exact .inl ⟨a, rfl⟩
  | install ht hi => exact .inr (.inl ⟨_, ht, hi⟩)
  | restore hr =>
    obtain ⟨banks, -, rfl⟩ := MemoryMap.restore_ok hr
    exact .inr (.inr ⟨rfl, rfl, hsizes⟩)
  | loadImage i path file =>
    obtain ⟨banks, journal, -, heq⟩ := m.loadImage_snd i path file
    exact .inr (.inr ⟨heq ▸ rfl, heq ▸ rfl, hsizes⟩)
  | _ => exact .inr (.inr ⟨rfl, rfl, hsizes⟩)

theorem Changes.keep (hI : ∀ {m m'}, I m → Change P m m' → I m') (hm : I m)
    (hc : Changes P m m') : I m' := by
  induction hc with
  | refl => exact hm
  | tail _ hstep ih => exact hI ih hstep

theorem Changes.shape_grows (hc : Changes P m m') : m.banks.shape <+: m'.banks.shape :=
  hc.keep (I := fun m' => m.banks.shape <+: m'.banks.shape)
    (fun hm hstep => hm.trans hstep.shape_grows) List.prefix_rfl

end

end MemoryBus
