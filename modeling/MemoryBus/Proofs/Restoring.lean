import Mathlib.Data.List.Forall2
import Mathlib.Data.List.Induction
import MemoryBus.Proofs.Banks
import MemoryBus.Snapshot.Basic

/-! When a snapshot can be restored, and what it leaves in each bank. -/
namespace MemoryBus

namespace Banks

variable {s : Banks} {i j : Nat} {image : BankImage} {images : List BankImage}

theorem size?_eq (s : Banks) (i : Nat) : s.size? i = s.shape[i]?.map (·.2) := by
  simp [size?, shape, Function.comp_def]

theorem size?_eq_bytes? (s : Banks) (i : Nat) : s.size? i = (s.bytes? i).map (·.size) := by
  simp [size?, bytes?, Function.comp_def]

/-- Puts an image into the first bank of its name. -/
def refill (s : Banks) (image : BankImage) : Banks :=
  match s.find? image.name with
  | some i => s.fill i image.bytes
  | none => s

@[simp] theorem shape_refill : (s.refill image).shape = s.shape := by
  unfold refill
  split <;> simp

@[simp] theorem shape_refills : (images.foldl refill s).shape = s.shape := by
  induction images generalizing s with
  | nil => rfl
  | cons image images ih => exact ih.trans shape_refill

theorem bytes?_fill (bytes : ByteArray) : (s.fill i bytes).bytes? j =
    if i = j ∧ s.size? j = some bytes.size then some bytes else s.bytes? j := by
  simp only [fill, bytes?, size?, Array.getElem?_modify]
  by_cases hij : i = j
  · subst hij
    rcases Option.eq_none_or_eq_some s.toArray[i]? with hk | ⟨k, hk⟩
    · simp [hk]
    · by_cases hsize : k.bytes.size = bytes.size <;> simp [hk, hsize]
  · simp [hij]

theorem bytes?_refill : (s.refill image).bytes? j =
    if s.find? image.name = some j ∧ s.size? j = some image.bytes.size then some image.bytes
    else s.bytes? j := by
  unfold refill
  split
  · rename_i i hi
    simp [bytes?_fill, hi]
  · rename_i hnone
    simp [hnone]

/-- The image names a bank, and the first bank of that name has its size. -/
def Accepts (s : Banks) (image : BankImage) : Prop :=
  ∃ i, s.find? image.name = some i ∧ s.size? i = some image.bytes.size

/-- A bank takes the last image that names it as the first of its name, and keeps its contents if there is
no such image. -/
theorem bytes?_refills (h : ∀ image ∈ images, s.Accepts image) (j : Nat) :
    (images.foldl refill s).bytes? j =
      match images.reverse.find? fun image => decide (s.find? image.name = some j) with
      | some image => some image.bytes
      | none => s.bytes? j := by
  induction images using List.reverseRecOn with
  | nil => rfl
  | append_singleton images last ih =>
    have hfind : (images.foldl refill s).find? last.name = s.find? last.name := by simp [find?_eq]
    have hsize : (images.foldl refill s).size? j = s.size? j := by simp [size?_eq]
    obtain ⟨i, hi, hisize⟩ := h last (by simp)
    rw [List.foldl_append, List.foldl_cons, List.foldl_nil, bytes?_refill, hfind, hsize, List.reverse_append,
      List.reverse_singleton, List.singleton_append, List.find?_cons,
      ih fun image himage => h image (by simp [himage])]
    by_cases hij : i = j
    · subst hij
      simp [hi, hisize]
    · simp [hi, hij]

end Banks

namespace MemoryMap

variable {m m' : MemoryMap} {banks : Banks} {s : Snapshot} {image : BankImage} {i : Nat}

theorem target_ok_iff : target banks image = .ok i ↔
    banks.find? image.name = some i ∧ banks.size? i = some image.bytes.size := by
  unfold target
  cases hi : banks.find? image.name with
  | none => simp
  | some j =>
    rw [Banks.find?_eq, List.findIdx?_eq_some_iff_getElem] at hi
    obtain ⟨hlt, -, -⟩ := hi
    have hsize : banks.size? j = some (banks.shape[j].2) := by simp [Banks.size?_eq, hlt]
    simp only [hsize, Option.getD_some]
    split
    · rename_i heq
      constructor
      · rintro h
        obtain rfl := Except.ok.inj h
        exact ⟨rfl, by rw [hsize, heq]⟩
      · rintro ⟨h, -⟩
        rw [Option.some.inj h]
    · rename_i hne
      constructor
      · intro h
        cases h
      · rintro ⟨h, hs⟩
        obtain rfl := Option.some.inj h
        exact absurd (Option.some.inj (hsize.symm.trans hs)) hne

theorem mapM_ok_iff {ε α β : Type} {f : α → Except ε β} {xs : List α} {ys : List β} :
    xs.mapM f = .ok ys ↔ List.Forall₂ (fun x y => f x = .ok y) xs ys := by
  induction xs generalizing ys with
  | nil => cases ys <;> simp [pure, Except.pure]
  | cons x xs ih =>
    rw [List.mapM_cons, List.forall₂_cons_left_iff]
    simp only [← ih]
    cases f x with
    | error e => simp [bind, Except.bind]
    | ok y => cases xs.mapM f <;> simp [bind, Except.bind, pure, Except.pure, eq_comm]

/-- The banks that take the images are chosen before the first one is filled. -/
theorem fill_targets {images : List BankImage} {targets : List Nat}
    (h : List.Forall₂ (fun image i => target banks image = .ok i) images targets) {filled : Banks}
    (hf : filled.shape = banks.shape) :
    (targets.zip images).foldl (fun acc (i, image) => acc.fill i image.bytes) filled =
      images.foldl Banks.refill filled := by
  induction h generalizing filled with
  | nil => rfl
  | @cons image i images targets ht _ ih =>
    have hfind : filled.find? image.name = some i := by
      rw [Banks.find?_eq, hf, ← Banks.find?_eq]
      exact (target_ok_iff.mp ht).1
    have hrefill : filled.refill image = filled.fill i image.bytes := by simp [Banks.refill, hfind]
    rw [List.zip_cons_cons, List.foldl_cons, List.foldl_cons, hrefill]
    exact ih (by simpa using hf)

theorem accepts_of_targets {images : List BankImage} {targets : List Nat}
    (h : List.Forall₂ (fun image i => target banks image = .ok i) images targets) :
    ∀ image ∈ images, banks.Accepts image := by
  induction h with
  | nil => simp
  | @cons image i images targets ht _ ih =>
    exact List.forall_mem_cons.mpr ⟨⟨i, target_ok_iff.mp ht⟩, ih⟩

theorem exists_targets {images : List BankImage} (h : ∀ image ∈ images, banks.Accepts image) :
    ∃ targets, List.Forall₂ (fun image i => target banks image = .ok i) images targets := by
  induction images with
  | nil => exact ⟨[], .nil⟩
  | cons image images ih =>
    obtain ⟨i, hi⟩ := h image (by simp)
    obtain ⟨targets, ht⟩ := ih fun image himage => h image (by simp [himage])
    exact ⟨i :: targets, .cons (target_ok_iff.mpr hi) ht⟩

theorem restore_ok_iff : m.restore s = .ok m' ↔
    s.version = Snapshot.currentVersion ∧ (∀ image ∈ s.banks, m.banks.Accepts image) ∧
      m' = { m with banks := s.banks.foldl Banks.refill m.banks }.note
        (.snapshotRestored s.banks.length) := by
  unfold restore Snapshot.checkVersion
  by_cases hv : s.version = Snapshot.currentVersion
  · simp only [hv, if_true, bind, Except.bind, true_and]
    cases ht : s.banks.mapM (target m.banks) with
    | error e =>
      refine iff_of_false (by simp) fun ⟨haccepts, _⟩ => ?_
      obtain ⟨targets, htargets⟩ := exists_targets haccepts
      exact absurd (ht.symm.trans (mapM_ok_iff.mpr htargets)) (by simp)
    | ok targets =>
      have htargets := mapM_ok_iff.mp ht
      simp only [fill_targets htargets rfl, pure, Except.pure, Except.ok.injEq, eq_comm (b := m'),
        iff_and_self]
      exact fun _ => accepts_of_targets htargets
  · simp [hv, bind, Except.bind]

end MemoryMap
end MemoryBus
