import MemoryBus.Proofs.Faults
import MemoryBus.Proofs.Snapshots

/-! What restoring a snapshot does: which image keeps it from being restored, and what the banks hold and the
slots show once it is. -/
namespace MemoryBus

variable {σ : Type}

/-- The last of the images that have this name. -/
def BankImage.LastNamed (images : List BankImage) (name : String) (image : BankImage) : Prop :=
  ∃ before after, images = before ++ image :: after ∧ image.name = name ∧ ∀ x ∈ after, x.name ≠ name

namespace Banks

variable {s : Banks} {images : List BankImage} {image : BankImage} {name : String} {i : Nat}
  {e : SnapshotError}

/-- No bank has the name of the image, or the first that has it is of another size. -/
inductive ImageFault (s : Banks) (image : BankImage) : SnapshotError → Prop
  | unknown : (∀ i, s.name? i ≠ some image.name) → ImageFault s image (.unknownBank image.name)
  | mismatch {i size : Nat} : s.First image.name i → s.size? i = some size → size ≠ image.bytes.size →
    ImageFault s image (.sizeMismatch image.name size image.bytes.size)

theorem target_error_iff : MemoryMap.target s image = .error e ↔ s.ImageFault image e := by
  unfold MemoryMap.target
  cases hfind : s.find? image.name with
  | none =>
    have hnone := find?_eq_none_iff.mp hfind
    constructor
    · intro h
      obtain rfl := Except.error.inj h
      exact .unknown hnone
    · intro h
      cases h with
      | unknown => rfl
      | mismatch hi => exact absurd hi.1 (hnone _)
  | some i =>
    have hi := find?_eq_some_iff.mp hfind
    obtain ⟨size, hsize⟩ : ∃ size, s.size? i = some size :=
      (hi.exists_size List.prefix_rfl).imp fun size h => (size?_eq_sizes s i).trans h
    simp only [hsize, Option.getD_some]
    constructor
    · intro h
      split at h
      · cases h
      · obtain rfl := Except.error.inj h
        exact .mismatch hi hsize ‹_›
    · intro h
      cases h with
      | unknown hnone => exact absurd hi.1 (hnone i)
      | @mismatch j size' hj hsize' hne =>
        obtain rfl := hi.unique hj
        obtain rfl := Option.some.inj (hsize.symm.trans hsize')
        rw [if_neg hne]

theorem accepts_iff : s.Accepts image ↔ ∃ i, s.First image.name i ∧ s.size? i = some image.bytes.size := by
  simp only [Accepts, find?_eq_some_iff]

/-- The first bank of a name takes the last image of that name. -/
theorem bytes?_of_lastNamed (h : ∀ image ∈ images, s.Accepts image) (hi : s.First name i)
    (hlast : BankImage.LastNamed images name image) : (images.foldl refill s).bytes? i = some image.bytes := by
  obtain ⟨before, after, rfl, rfl, hafter⟩ := hlast
  have hfound : (before ++ image :: after).reverse.find? (fun x => decide (s.find? x.name = some i)) =
      some image := by
    refine List.find?_eq_some_iff_append.mpr
      ⟨by simpa using find?_eq_some_iff.mpr hi, after.reverse, before.reverse, by simp, ?_⟩
    intro x hx
    have hne : s.find? x.name ≠ some i := fun heq => by
      have hname := (find?_eq_some_iff.mp heq).1.symm.trans hi.1
      exact hafter x (List.mem_reverse.mp hx) (Option.some.inj hname)
    simpa using hne
  rw [bytes?_refills h, hfound]

/-- A bank that is not the first of the name of an image keeps its contents. -/
theorem bytes?_of_no_image (h : ∀ image ∈ images, s.Accepts image)
    (hi : ∀ image ∈ images, ¬ s.First image.name i) : (images.foldl refill s).bytes? i = s.bytes? i := by
  have hnone : images.reverse.find? (fun x => decide (s.find? x.name = some i)) = none := by
    refine List.find?_eq_none.mpr fun x hx htarget => hi x (List.mem_reverse.mp hx) ?_
    exact find?_eq_some_iff.mp (of_decide_eq_true htarget)
  rw [bytes?_refills h, hnone]

end Banks

namespace Bus

variable {h : Handler σ} {limit : Nat} {b : Bus σ} {a : UInt32} {bank offset : Nat}

/-- A slot that knows the address shows what is in the bank. -/
theorem readByte_of_slot (ht : b.map.slots.readByte.translate a = some (bank, offset)) {v : UInt8}
    (hv : b.map.banks.byte? bank offset = some v) : b.readByte h limit a = .ok (v, b) := by
  simp only [readByte, ht, Banks.readByte, hv]
  rfl

theorem readWord_of_slot (ht : b.map.slots.readWord.translate a = some (bank, offset)) {v u : UInt8}
    (hv : b.map.banks.byte? bank offset = some v) (hu : b.map.banks.byte? bank (offset + 1) = some u) :
    b.readWord h limit a = .ok (BigEndian.word v u, b) := by
  simp only [readWord, ht, Banks.readWord, Banks.readByte, hv, hu]
  rfl

end Bus

namespace MemoryMap

variable {m m' : MemoryMap} {s : Snapshot} {e : SnapshotError}

/-- The version is looked at first, and then the images one after the other. -/
theorem restore_error_iff : m.restore s = .error e ↔
    s.version ≠ Snapshot.currentVersion ∧
        e = .incompatibleVersion Snapshot.currentVersion.toNat s.version.toNat ∨
      s.version = Snapshot.currentVersion ∧ FirstFault (fun _ => m.banks.ImageFault) s.banks e := by
  have hfirst : FirstFault (fun _ => m.banks.ImageFault) s.banks e ↔
      s.banks.mapM (target m.banks) = .error e := by
    rw [FirstFault.mapM_iff]
    exact FirstFault.congr fun i e => by simp only [Banks.target_error_iff]
  rw [hfirst, restore, Snapshot.checkVersion]
  by_cases hv : s.version = Snapshot.currentVersion
  · cases s.banks.mapM (target m.banks) <;> simp [hv, bind, Except.bind, pure, Except.pure]
  · simp [hv, bind, Except.bind, eq_comm]

/-- A snapshot is restored if it has the current version and each image fits the first bank of its name, and is
refused with the first fault otherwise. A bank then holds the last image of which it is the first bank of the
name, or what it held before. Names and sizes, the table, the counters and the slots stay, and what a slot knows
is read from the restored banks. -/
theorem restore_effect (m : MemoryMap) (s : Snapshot) :
    ((∃ m', m.restore s = .ok m') ↔ s.version = Snapshot.currentVersion ∧ ∀ image ∈ s.banks,
        ∃ i, m.banks.First image.name i ∧ m.banks.size? i = some image.bytes.size) ∧
      (∀ e, m.restore s = .error e ↔
        s.version ≠ Snapshot.currentVersion ∧
            e = .incompatibleVersion Snapshot.currentVersion.toNat s.version.toNat ∨
          s.version = Snapshot.currentVersion ∧ FirstFault (fun _ => m.banks.ImageFault) s.banks e) ∧
      ∀ m', m.restore s = .ok m' →
        (∀ i name image, m.banks.First name i → BankImage.LastNamed s.banks name image →
          m'.banks.bytes? i = some image.bytes) ∧
        (∀ i, (∀ image ∈ s.banks, ¬ m.banks.First image.name i) → m'.banks.bytes? i = m.banks.bytes? i) ∧
        m'.banks.shape = m.banks.shape ∧ m'.banks.count = m.banks.count ∧ m'.table = m.table ∧
        m'.retired = m.retired ∧ m'.slots = m.slots ∧
        ∀ (σ : Type) (h : Handler σ) (limit : Nat) (st : σ) (d : Dispatch) (a : UInt32) (bank offset : Nat),
          (m'.slots.readByte.translate a = some (bank, offset) →
            (∀ v, m'.banks.byte? bank offset = some v →
              Bus.readByte h limit ⟨m', st, d⟩ a = .ok (v, ⟨m', st, d⟩)) ∧
            (m.Sound → ∃ v, m'.banks.byte? bank offset = some v)) ∧
          (m'.slots.readWord.translate a = some (bank, offset) →
            (∀ v u, m'.banks.byte? bank offset = some v → m'.banks.byte? bank (offset + 1) = some u →
              Bus.readWord h limit ⟨m', st, d⟩ a = .ok (BigEndian.word v u, ⟨m', st, d⟩)) ∧
            (m.Sound → ∃ v u, m'.banks.byte? bank offset = some v ∧
              m'.banks.byte? bank (offset + 1) = some u)) := by
  refine ⟨?_, fun e => restore_error_iff, fun m' hm' => ?_⟩
  · simp only [restore_ok_iff, ← Banks.accepts_iff]
    exact ⟨fun ⟨_, hv, haccepts, _⟩ => ⟨hv, haccepts⟩, fun ⟨hv, haccepts⟩ => ⟨_, hv, haccepts, rfl⟩⟩
  · obtain ⟨-, haccepts, hm'⟩ := restore_ok_iff.mp hm'
    have hbanks : m'.banks = s.banks.foldl Banks.refill m.banks := by rw [hm']; rfl
    have hshape : m'.banks.shape = m.banks.shape := by rw [hbanks, Banks.shape_refills]
    have hcount : m'.banks.count = m.banks.count := by
      simpa [Banks.shape, Banks.count] using congrArg List.length hshape
    have hsound (hm : m.Sound) : m'.Sound :=
      hm.of_same (by rw [hm']; rfl) (by rw [hm']; rfl) (Banks.sizes_prefix_of_shape (hshape ▸ List.prefix_rfl))
    have hbyte {bank offset : Nat} (hr : m'.banks.Reaches .byte bank offset) :
        ∃ v, m'.banks.byte? bank offset = some v := Option.isSome_iff_exists.mp (Banks.byte?_isSome.mpr hr)
    refine ⟨fun i name image hi hlast => ?_, fun i hi => ?_, hshape, hcount, by rw [hm']; rfl, by rw [hm']; rfl,
      by rw [hm']; rfl, fun σ h limit st d a bank offset => ⟨fun ht => ⟨?_, ?_⟩, fun ht => ⟨?_, ?_⟩⟩⟩
    · rw [hbanks, Banks.bytes?_of_lastNamed haccepts hi hlast]
    · rw [hbanks, Banks.bytes?_of_no_image haccepts hi]
    · exact fun v hv => Bus.readByte_of_slot (b := ⟨m', st, d⟩) ht hv
    · exact fun hm => hbyte ((hsound hm).reaches_slot (d := .read) (w := .byte) ht)
    · exact fun v u hv hu => Bus.readWord_of_slot (b := ⟨m', st, d⟩) ht hv hu
    · intro hm
      have hr := ((hsound hm).reaches_slot (d := .read) (w := .word) ht).byte_of_word
      obtain ⟨v, hv⟩ := hbyte hr.1
      obtain ⟨u, hu⟩ := hbyte hr.2
      exact ⟨v, u, hv, hu⟩

/-- Two images for the first of two banks of one name, which a slot knows: the later one is kept and read. -/
theorem restore_effect_window : ∃ (m m' : MemoryMap) (s : Snapshot), m.Sound ∧ m.restore s = .ok m' ∧
    m.banks.First "ram" 0 ∧ m'.slots.readByte.translate 0x0101 = some (0, 1) ∧
    s.banks.map (·.name) = ["ram", "rom", "ram"] ∧ m'.banks.bytes? 0 = some ⟨#[8, 9]⟩ ∧
    m'.banks.bytes? 2 = m.banks.bytes? 2 ∧
    Bus.readByte (.silent "silent") 0 ⟨m', (), .zero⟩ 0x0101 = .ok (9, ⟨m', (), .zero⟩) := by
  let images : List BankImage := [⟨"ram", ⟨#[6, 7]⟩⟩, ⟨"rom", ⟨#[5]⟩⟩, ⟨"ram", ⟨#[8, 9]⟩⟩]
  obtain ⟨banks, ops, answers, b, hrun, hbanks, htranslate⟩ : ∃ (banks : Banks) (ops : List Operation)
      (answers : List Operation.Reply) (b : Bus Unit),
      Operation.run (Bus.port (.silent "silent") 0) (Bus.attach (.silent "silent") (.ofBanks banks) ()) ops =
        .ok (answers, b) ∧
      b.map.banks = ⟨#[⟨"ram", ⟨#[1, 2]⟩⟩, ⟨"rom", ⟨#[3]⟩⟩, ⟨"ram", ⟨#[4, 4]⟩⟩]⟩ ∧
      b.map.slots.readByte.translate 0x0101 = some (0, 1) :=
    ⟨⟨#[⟨"ram", ⟨#[1, 2]⟩⟩, ⟨"rom", ⟨#[3]⟩⟩, ⟨"ram", ⟨#[4, 4]⟩⟩]⟩,
      [.install ⟨.ofRanges [⟨0xFF00, 0x0100, .read, some ⟨0, 0, 1⟩, 0⟩] .guard, .zero,
        Arena.valid_ofRanges rfl rfl rfl (by decide)⟩, .readByte 0x0101], _, _, rfl, rfl, rfl⟩
  have hsound := Operation.sound_run (P := fun _ => True) (Handler.confined_silent "silent") hrun
  generalize b.map = m at hbanks htranslate hsound
  have hram : m.banks.First "ram" 0 := hbanks ▸ ⟨rfl, by simp⟩
  have hrom : m.banks.First "rom" 1 := hbanks ▸ ⟨rfl, by decide⟩
  obtain ⟨hok, -, heffect⟩ := restore_effect m ⟨1, ⟨0, 0⟩, images⟩
  obtain ⟨m', hrestore⟩ := hok.mpr ⟨rfl, by
    simp only [images, List.forall_mem_cons]
    exact ⟨⟨0, hram, hbanks ▸ rfl⟩, ⟨1, hrom, hbanks ▸ rfl⟩, ⟨0, hram, hbanks ▸ rfl⟩, by simp⟩⟩
  obtain ⟨hlast, hkept, -, -, -, -, hslots, hread⟩ := heffect m' hrestore
  have hcontents : m'.banks.bytes? 0 = some ⟨#[8, 9]⟩ :=
    hlast 0 "ram" ⟨"ram", ⟨#[8, 9]⟩⟩ hram ⟨images.take 2, [], rfl, rfl, by simp⟩
  have hthird : m'.banks.bytes? 2 = m.banks.bytes? 2 := by
    refine hkept 2 fun image _ hi => hi.2 0 (by decide) ?_
    rw [← hi.1, hbanks]
    rfl
  have hbyte : m'.banks.byte? 0 1 = some 9 := by rw [Banks.byte?_eq_bytes?, hcontents]; rfl
  have htranslate' : m'.slots.readByte.translate 0x0101 = some (0, 1) := hslots ▸ htranslate
  exact ⟨m, m', _, hsound, hrestore, hram, htranslate', rfl, hcontents, hthird,
    ((hread Unit (.silent "silent") 0 () .zero 0x0101 0 1).1 htranslate').1 9 hbyte⟩

end MemoryMap
end MemoryBus
