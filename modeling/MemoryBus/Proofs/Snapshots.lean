import MemoryBus.Proofs.Bytes
import MemoryBus.Proofs.Upholding
import MemoryBus.Proofs.Wide

/-! A snapshot brings back every bank, as long as no other bank of the same name is in the way. -/
namespace MemoryBus

namespace Banks

variable {s s' : Banks} {i j : Nat} {k k' : Bank} {name : String}

/-- Banks share a name only if they are empty. -/
def Unambiguous (s : Banks) : Prop := s.shape.Pairwise fun x y => x.1 = y.1 → x.2 = 0 ∧ y.2 = 0

instance (s : Banks) : Decidable s.Unambiguous := inferInstanceAs (Decidable (List.Pairwise ..))

theorem getElem?_shape (s : Banks) (i : Nat) :
    s.shape[i]? = s.toArray[i]?.map fun k => (k.name, k.bytes.size) := by simp [shape]

theorem unambiguous_iff : s.Unambiguous ↔ ∀ (i j : Nat) (k k' : Bank), s.toArray[i]? = some k →
    s.toArray[j]? = some k' → i ≠ j → k.name = k'.name → k.bytes.size = 0 ∧ k'.bytes.size = 0 := by
  unfold Unambiguous
  rw [shape, List.pairwise_map, List.pairwise_iff_getElem]
  constructor
  · intro h i j k k' hk hk' hij hname
    obtain ⟨hi, rfl⟩ := Array.getElem?_eq_some_iff.mp hk
    obtain ⟨hj, rfl⟩ := Array.getElem?_eq_some_iff.mp hk'
    rcases Nat.lt_or_gt_of_ne hij with hlt | hlt
    · exact h i j hi hj hlt hname
    · exact (h j i hj hi hlt hname.symm).symm
  · intro h i j hi hj hlt hname
    exact h i j _ _ (Array.getElem?_eq_getElem hi) (Array.getElem?_eq_getElem hj) (Nat.ne_of_lt hlt) hname

theorem name_of_find? (h : s.find? name = some i) : ∃ k, s.toArray[i]? = some k ∧ k.name = name := by
  obtain ⟨hi, hname, -⟩ := Array.findIdx?_eq_some_iff_getElem.mp h
  exact ⟨s.toArray[i], Array.getElem?_eq_getElem hi, by simpa using hname⟩

/-- A name that a bank has is found. -/
theorem exists_find? (hk : s.toArray[i]? = some k) :
    ∃ j k', s.find? k.name = some j ∧ s.toArray[j]? = some k' ∧ k'.name = k.name := by
  cases hfind : s.find? k.name with
  | none =>
    have hnone := Array.findIdx?_eq_none_iff.mp hfind k (Array.mem_of_getElem? hk)
    simp at hnone
  | some j =>
    obtain ⟨k', hk', hname⟩ := name_of_find? hfind
    exact ⟨j, k', rfl, hk', hname⟩

theorem find?_grows (hp : s.shape <+: s'.shape) (h : s.find? name = some i) : s'.find? name = some i := by
  rw [find?_eq] at h ⊢
  exact hp.findIdx?_eq_some h

theorem size?_grows (hp : s.shape <+: s'.shape) (hk : s.toArray[i]? = some k) :
    s'.size? i = some k.bytes.size := by
  obtain ⟨rest, hrest⟩ := hp
  have hshape : s.shape[i]? = some (k.name, k.bytes.size) := by simp [getElem?_shape, hk]
  have hlt : i < s.shape.length := (List.getElem?_eq_some_iff.mp hshape).1
  rw [size?_eq, ← hrest, List.getElem?_append_left hlt, hshape]
  rfl

/-- Only one contents has size zero. -/
theorem bytes?_of_size?_zero (h : s.size? i = some 0) : s.bytes? i = some .empty := by
  rw [size?_eq_bytes?] at h
  obtain ⟨bytes, hbytes, hsize⟩ := Option.map_eq_some_iff.mp h
  rw [hbytes, ByteArray.size_eq_zero_iff.mp hsize]

theorem byte?_eq_bytes? (s : Banks) (i offset : Nat) :
    s.byte? i offset = (s.bytes? i).bind (·[offset]?) := by
  unfold byte? bytes?
  cases s.toArray[i]? <;> rfl

/-- A bank that is not empty can be given other contents. -/
theorem exists_contents_ne (hk : s.toArray[i]? = some k) (hne : k.bytes.size ≠ 0) :
    ∃ v, (s.overwriteBank i 0 [v]).bytes? i ≠ s.bytes? i := by
  have hreach : s.Reaches .byte i 0 :=
    ⟨k.bytes.size, by simp [sizes, hk], by simp only [Width.bytes]; omega⟩
  obtain ⟨v, hv⟩ := Option.isSome_iff_exists.mp (byte?_isSome.mpr hreach)
  refine ⟨v + 1, fun heq => ?_⟩
  have hbyte : (s.overwriteBank i 0 [v + 1]).byte? i 0 = s.byte? i 0 := by
    rw [byte?_eq_bytes?, byte?_eq_bytes?, heq]
  rw [overwriteBank_single, byte?_setByte hreach, hv] at hbyte
  simp at hbyte

end Banks

namespace MemoryMap

variable {m m' : MemoryMap} {now : Timestamp} {image : BankImage} {i : Nat} {k : Bank}

theorem mem_snapshot : image ∈ (m.snapshot now).banks ↔
    ∃ (i : Nat) (k : Bank), m.banks.toArray[i]? = some k ∧ image = ⟨k.name, k.bytes⟩ := by
  simp only [snapshot, List.mem_map, Array.mem_toList_iff, Array.mem_iff_getElem?]
  constructor
  · rintro ⟨k, ⟨i, hk⟩, rfl⟩
    exact ⟨i, k, hk, rfl⟩
  · rintro ⟨i, k, hk, rfl⟩
    exact ⟨k, ⟨i, hk⟩, rfl⟩

theorem accepts_snapshot (hu : m.banks.Unambiguous) (hp : m.banks.shape <+: m'.banks.shape) :
    ∀ image ∈ (m.snapshot now).banks, m'.banks.Accepts image := by
  intro image himage
  obtain ⟨i, k, hk, rfl⟩ := mem_snapshot.mp himage
  obtain ⟨j, k', hfind, hk', hname⟩ := Banks.exists_find? hk
  refine ⟨j, Banks.find?_grows hp hfind, ?_⟩
  rw [Banks.size?_grows hp hk']
  by_cases hij : j = i
  · subst hij
    rw [Option.some.inj (hk'.symm.trans hk)]
  · obtain ⟨hzero', hzero⟩ := Banks.unambiguous_iff.mp hu j i k' k hk' hk hij hname
    simp [hzero, hzero']

/-- A map whose banks begin with those of another takes the snapshot of that one. -/
theorem restores_snapshot (hu : m.banks.Unambiguous) (hp : m.banks.shape <+: m'.banks.shape) :
    ∃ m'', m'.restore (m.snapshot now) = .ok m'' ∧
      ∀ i < m.banks.count, m''.banks.bytes? i = m.banks.bytes? i := by
  have haccepts : ∀ image ∈ (m.snapshot now).banks, m'.banks.Accepts image := accepts_snapshot hu hp
  refine ⟨_, restore_ok_iff.mpr ⟨rfl, haccepts, rfl⟩, fun i hi => ?_⟩
  obtain ⟨k, hk⟩ : ∃ k, m.banks.toArray[i]? = some k := ⟨_, Array.getElem?_eq_getElem hi⟩
  have hbytes : m.banks.bytes? i = some k.bytes := by simp [Banks.bytes?, hk]
  change (((m.snapshot now).banks.foldl Banks.refill m'.banks)).bytes? i = _
  rw [Banks.bytes?_refills haccepts, hbytes]
  split
  · -- The image is that of the bank, or of one that is as empty.
    rename_i image hfound
    obtain ⟨j, k', hk', rfl⟩ := mem_snapshot.mp (List.mem_reverse.mp (List.mem_of_find?_eq_some hfound))
    obtain ⟨i', k₀, hfind, hk₀, hname⟩ := Banks.exists_find? hk'
    have htarget : m'.banks.find? k'.name = some i := by simpa using List.find?_some hfound
    obtain rfl : i' = i := Option.some.inj ((Banks.find?_grows hp hfind).symm.trans htarget)
    obtain rfl : k₀ = k := Option.some.inj (hk₀.symm.trans hk)
    by_cases hij : i' = j
    · subst hij
      rw [Option.some.inj (hk'.symm.trans hk)]
    · obtain ⟨hzero, hzero'⟩ := Banks.unambiguous_iff.mp hu i' j k₀ k' hk hk' hij hname
      rw [ByteArray.size_eq_zero_iff.mp hzero, ByteArray.size_eq_zero_iff.mp hzero']
  · -- Without an image for it the bank is not the first of its name, and so it is empty.
    rename_i hnone
    obtain ⟨j, k', hfind, hk', hname⟩ := Banks.exists_find? hk
    have himage := List.find?_eq_none.mp hnone ⟨k.name, k.bytes⟩
      (List.mem_reverse.mpr (mem_snapshot.mpr ⟨i, k, hk, rfl⟩))
    have hij : j ≠ i := by
      rintro rfl
      exact himage (decide_eq_true (Banks.find?_grows hp hfind))
    obtain ⟨-, hzero⟩ := Banks.unambiguous_iff.mp hu j i k' k hk' hk hij hname
    rw [ByteArray.size_eq_zero_iff.mp hzero]
    exact Banks.bytes?_of_size?_zero (hzero ▸ Banks.size?_grows hp hk)

/-- The snapshot can be restored, and brings the banks back, after any bytes were written into a bank. -/
def RestoresWrites (m : MemoryMap) (now : Timestamp) : Prop :=
  ∀ i offset bytes, ∃ m', (m.overwriteBank i offset bytes).restore (m.snapshot now) = .ok m' ∧
    ∀ j < m.banks.count, m'.banks.bytes? j = m.banks.bytes? j

/-- Nothing is put back into a bank that is not the first of its name. -/
theorem RestoresWrites.empty (h : m.RestoresWrites now) (hk : m.banks.toArray[i]? = some k) {first : Nat}
    (hfind : m.banks.find? k.name = some first) (hne : first ≠ i) : k.bytes.size = 0 := by
  by_contra hsize
  obtain ⟨v, hv⟩ := Banks.exists_contents_ne hk hsize
  obtain ⟨m', hm', hsame⟩ := h i 0 [v]
  obtain ⟨-, haccepts, rfl⟩ := restore_ok_iff.mp hm'
  refine hv (Eq.trans ?_ (hsame i (Array.getElem?_eq_some_iff.mp hk).1))
  change _ = ((m.snapshot now).banks.foldl Banks.refill (m.overwriteBank i 0 [v]).banks).bytes? i
  rw [Banks.bytes?_refills haccepts]
  have hnone : (m.snapshot now).banks.reverse.find? (fun image =>
      decide ((m.overwriteBank i 0 [v]).banks.find? image.name = some i)) = none := by
    refine List.find?_eq_none.mpr fun image _ htarget => hne ?_
    have htarget : m.banks.find? image.name = some i := by
      simpa [overwriteBank, Banks.find?_eq] using htarget
    obtain ⟨k', hk', hname⟩ := Banks.name_of_find? htarget
    obtain rfl := Option.some.inj (hk'.symm.trans hk)
    exact Option.some.inj (hfind.symm.trans (hname ▸ htarget))
  rw [hnone]
  rfl

theorem RestoresWrites.unambiguous (h : m.RestoresWrites now) : m.banks.Unambiguous := by
  obtain ⟨m', hm', -⟩ := h 0 0 []
  obtain ⟨-, haccepts, -⟩ := restore_ok_iff.mp hm'
  refine Banks.unambiguous_iff.mpr fun i j k k' hk hk' hij hname => ?_
  obtain ⟨first, k₀, hfind, hk₀, -⟩ := Banks.exists_find? hk
  -- The images of the name all have the size of its first bank.
  have hsize {j : Nat} {k' : Bank} (hk' : m.banks.toArray[j]? = some k') (hname : k.name = k'.name) :
      k'.bytes.size = k₀.bytes.size := by
    obtain ⟨l, hl, hlsize⟩ := haccepts ⟨k'.name, k'.bytes⟩ (mem_snapshot.mpr ⟨j, k', hk', rfl⟩)
    have hshape : (m.overwriteBank 0 0 []).banks.shape = m.banks.shape := Banks.shape_overwriteBank _
    rw [Banks.find?_eq, hshape, ← Banks.find?_eq, ← hname, hfind] at hl
    obtain rfl := Option.some.inj hl
    rw [Banks.size?_grows (hshape ▸ List.prefix_rfl) hk₀] at hlsize
    exact (Option.some.inj hlsize).symm
  have hsame : k.bytes.size = k'.bytes.size := (hsize hk rfl).trans (hsize hk' hname).symm
  by_cases hi : first = i
  · have hzero := h.empty hk' (hname ▸ hfind) (hi ▸ hij)
    exact ⟨hsame.trans hzero, hzero⟩
  · have hzero := h.empty hk hfind hi
    exact ⟨hzero, hsame.symm.trans hzero⟩

end MemoryMap

namespace Operation

variable {σ : Type} {h : Handler σ} {limit : Nat} {b b' : Bus σ}

theorem shape_notify (hh : h.Confined fun _ => True) {r : Range} {accepted : Bool}
    (hn : b.notify h r = (accepted, b')) : b.map.banks.shape <+: b'.map.banks.shape := by
  rw [Bus.notify_map hn]
  exact (hh b.state r b.map).shape_grows

/-- No access with a handler that performs operations renames or resizes a bank. -/
theorem upholds_shape (hh : h.Confined fun _ => True) (shape : List (String × Nat)) :
    h.Upholds fun b => shape <+: b.map.banks.shape where
  find _ hb := hb
  fill hb _ _ := hb
  banks hb hshape := hshape ▸ hb
  device r q hb := by
    rw [Bus.callDevice_eq]
    exact hb
  accepted hb hn := hb.trans (shape_notify hh hn)
  declined {b r b'} d a hb hn := by
    have hgrows : b.map.banks.shape <+: b'.map.banks.shape := shape_notify hh hn
    exact hb.trans hgrows
  unmapped _ _ hb := hb

theorem shape_perform (hh : h.Confined fun _ => True) (hb : b.map.Reachable) {op : Operation}
    {answer : Reply} (hperform : op.perform (Bus.port h limit) b = .ok (answer, b')) :
    b.map.banks.shape <+: b'.map.banks.shape := by
  cases haccess : op.isAccess with
  | true =>
    have hboth := (carries_reachable hh.free).upholds.and (upholds_shape hh b.map.banks.shape)
    exact (upholds_access hboth (·.1.aligned) ⟨hb, List.prefix_rfl⟩ haccess hperform).2
  | false =>
    obtain ⟨answer', b₁, hother, hb₁⟩ := perform_change (P := fun _ => True) (p := Bus.port h limit)
      (I := fun m => b.map.banks.shape <+: m.banks.shape) (fun hm hc => hm.trans hc.shape_grows)
      (fun hm => hm) (fun _ => trivial) (fun _ _ => trivial) List.prefix_rfl haccess
    obtain rfl : b₁ = b' := congrArg Prod.snd (Except.ok.inj (hother.symm.trans hperform))
    exact hb₁

theorem shape_run (hh : h.Confined fun _ => True) (hb : b.map.Reachable) {ops : List Operation}
    {answers : List Reply} (hrun : run (Bus.port h limit) b ops = .ok (answers, b')) :
    b.map.banks.shape <+: b'.map.banks.shape := by
  refine (keeps_run (J := fun b' => b'.map.Reachable ∧ b.map.banks.shape <+: b'.map.banks.shape) ?_
    ⟨hb, List.prefix_rfl⟩ hrun).2
  rintro op - b₁ answer b₂ ⟨hreach, hshape⟩ hop
  exact ⟨reachable_perform hh.free hreach hop, hshape.trans (shape_perform hh hreach hop)⟩

/-- Whatever is done to a map after its snapshot was taken, restoring the snapshot succeeds and gives every
bank of then its contents back, exactly if banks that share a name are empty. Images are put back by name,
so a bank after the first of its name is neither checked nor filled. -/
theorem snapshot_restores_iff {m : MemoryMap} (hm : m.Reachable) (now : Timestamp) :
    (∀ (σ : Type) (h : Handler σ) (limit : Nat) (s : σ) (d : Dispatch) (ops : List Operation)
        (answers : List Reply) (b : Bus σ), h.Confined (fun _ => True) →
      run (Bus.port h limit) ⟨m, s, d⟩ ops = .ok (answers, b) →
      ∃ m', b.map.restore (m.snapshot now) = .ok m' ∧
        ∀ i < m.banks.count, m'.banks.bytes? i = m.banks.bytes? i) ↔ m.banks.Unambiguous := by
  constructor
  · intro hall
    have hwrites : m.RestoresWrites now := fun i offset bytes =>
      hall Unit (.silent "silent") 0 () .zero [.overwriteBank i offset bytes] _ _
        (Handler.confined_silent _) rfl
    exact hwrites.unambiguous
  · intro hu σ h limit s d ops answers b hh hrun
    exact MemoryMap.restores_snapshot hu (shape_run (b := ⟨m, s, d⟩) hh hm hrun)

/-- A byte of a bank is changed, and a bank of the same name is added. -/
theorem snapshot_restores_iff_window : ∃ (m : MemoryMap) (ops : List Operation) (answers : List Reply)
    (b : Bus Unit) (m' : MemoryMap), m.Reachable ∧ m.banks.Unambiguous ∧
      run (Bus.port (.silent "silent") 0) ⟨m, (), .zero⟩ ops = .ok (answers, b) ∧
      b.map.banks.bytes? 0 = some ⟨#[8, 2]⟩ ∧ b.map.restore (m.snapshot ⟨0, 0⟩) = .ok m' ∧
      m'.banks.bytes? 0 = some ⟨#[1, 2]⟩ := by
  obtain ⟨m, ops, answers, b, hm, hu, hrun, hchanged, hbytes, hcount⟩ : ∃ (m : MemoryMap)
      (ops : List Operation) (answers : List Reply) (b : Bus Unit), m.Reachable ∧ m.banks.Unambiguous ∧
        run (Bus.port (.silent "silent") 0) ⟨m, (), .zero⟩ ops = .ok (answers, b) ∧
        b.map.banks.bytes? 0 = some ⟨#[8, 2]⟩ ∧ m.banks.bytes? 0 = some ⟨#[1, 2]⟩ ∧
        0 < m.banks.count :=
    ⟨.ofBanks ⟨#[⟨"ram", ⟨#[1, 2]⟩⟩, ⟨"rom", ⟨#[3]⟩⟩]⟩,
      [.install ⟨.ofRanges [⟨0xFF00, 0x0100, .union .read .write, some ⟨0, 0, 1⟩, 0⟩] .guard, .zero,
        Arena.valid_ofRanges rfl rfl rfl (by decide)⟩, .writeByte 0x0100 8, .addBank "ram" ⟨#[5]⟩], _, _,
      .ofBanks _, by decide, rfl, rfl, rfl, by decide⟩
  obtain ⟨m', hm', hsame⟩ := (snapshot_restores_iff hm ⟨0, 0⟩).mpr hu Unit (.silent "silent") 0 () .zero
    ops answers b (Handler.confined_silent _) hrun
  exact ⟨m, ops, answers, b, m', hm, hu, hrun, hchanged, hm', (hsame 0 hcount).trans hbytes⟩

/-- Of two banks of one name the first takes both images, and keeps the last. -/
theorem not_restored_of_same_name : ¬ ∀ (m : MemoryMap) (now : Timestamp) (h : Handler Unit) (limit : Nat)
    (ops : List Operation) (answers : List Reply) (b : Bus Unit), m.Reachable →
      h.Confined (fun _ => True) → (∀ op ∈ ops, op.isAccess = true) →
      run (Bus.port h limit) ⟨m, (), .zero⟩ ops = .ok (answers, b) →
      ∃ m', b.map.restore (m.snapshot now) = .ok m' ∧
        ∀ i < m.banks.count, m'.banks.bytes? i = m.banks.bytes? i := by
  intro hall
  obtain ⟨m', hm', hsame⟩ := hall (.ofBanks ⟨#[⟨"ram", ⟨#[1, 2]⟩⟩, ⟨"ram", ⟨#[3, 4]⟩⟩]⟩) ⟨0, 0⟩
    (.silent "silent") 0 [] [] _ (.ofBanks _) (Handler.confined_silent _) (by simp) rfl
  obtain ⟨-, haccepts, rfl⟩ := MemoryMap.restore_ok_iff.mp hm'
  have hfirst := (Banks.bytes?_refills haccepts 0).symm.trans (hsame 0 (by decide))
  simp [MemoryMap.snapshot, MemoryMap.ofBanks, Banks.find?_eq, Banks.shape, Banks.bytes?] at hfirst
  exact absurd hfirst (by decide)

end Operation
end MemoryBus
