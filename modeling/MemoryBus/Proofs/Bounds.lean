import MemoryBus.Proofs.Accesses

/-! No access of any run reaches outside a bank. -/
namespace MemoryBus

variable {σ : Type} {h : Handler σ} {P : Table → Prop} {I : MemoryMap → Prop} {b : Bus σ} {limit : Nat}

/-- A range that was looked up may be remembered in the slot. -/
theorem MemoryMap.Sound.fill {m : MemoryMap} {d : Direction} {w : Width} {a : UInt32} {k : Backing}
    (hm : m.Sound) (hk : (m.find a).1.range.served d = some k) (ha : w = .word → a &&& 1 = 0) :
    Sound { (m.find a).2 with slots := (m.find a).2.slots.remember d w (m.find a).1.range k } :=
  ⟨(hm.find _).fits, fun _ _ => filled_remember hm.filled hk ha⟩

/-- A handler that only performs operations cannot make a sound map unsound. -/
theorem keeps_sound (hh : h.Confined P) : h.Keeps MemoryMap.Sound where
  sound hm := hm
  find a hm := hm.find a
  fill hm hk ha := hm.fill hk ha
  banks hm hb := hm.of_same rfl rfl (hb ▸ List.prefix_rfl)
  note _ hm := hm.of_same rfl rfl List.prefix_rfl
  notify s r hm := (hh s r _).keep MemoryMap.Sound.change hm

theorem Bus.sound_attach (h : Handler σ) (banks : Banks) (s : σ) :
    (Bus.attach h (.ofBanks banks) s).map.Sound :=
  (MemoryMap.sound_ofBanks banks).of_same rfl rfl List.prefix_rfl

namespace Operation

theorem settle_map {x : Except MemoryError MemoryMap} (hb : I b.map) (hx : ∀ m, x = .ok m → I m) :
    I (settle b x).2.map := by
  cases x with
  | ok m => exact hx m rfl
  | error e => exact hb

theorem mapError_ok {α ε ε' : Type} {f : ε → ε'} {x : Except ε α} {v : α} (h : x.mapError f = .ok v) :
    x = .ok v := by
  cases x with
  | ok u => exact congrArg Except.ok (Except.ok.inj h)
  | error e => cases h

/-- An operation that is no access always has an answer, and keeps what the changes of a map keep. -/
theorem perform_change {p : Port σ} (hchange : ∀ {m m'}, I m → Change P m m' → I m')
    (hstats : ∀ {m}, I m → I m.resetStats) (htable : ∀ {m}, I m → P m.table) {op : Operation}
    (hop : ∀ t, op = .install t → P t) (hb : I b.map) (haccess : op.isAccess = false) :
    ∃ answer b', op.perform p b = .ok (answer, b') ∧ I b'.map := by
  cases op with
  | install t =>
    exact ⟨_, _, rfl, settle_map hb fun m hm => hchange hb (.install (hop t rfl) (mapError_ok hm))⟩
  | reinstall =>
    exact ⟨_, _, rfl, settle_map hb fun m hm => hchange hb (.install (htable hb) (mapError_ok hm))⟩
  | addBank name bytes => exact ⟨_, _, rfl, hchange hb (.addBank _ name bytes)⟩
  | overwriteBank i offset bytes => exact ⟨_, _, rfl, hchange hb (.overwriteBank _ i offset bytes)⟩
  | restore s => exact ⟨_, _, rfl, settle_map hb fun m hm => hchange hb (.restore (mapError_ok hm))⟩
  | loadImage i path file => exact ⟨_, _, rfl, hchange hb (.loadImage _ i path file)⟩
  | resetStats => exact ⟨_, _, rfl, hstats hb⟩
  | _ => cases haccess

/-- What the accesses and the changes of a map keep, every operation keeps that installs only tables
with property `P`. -/
theorem settles_perform (hI : h.Keeps I) (hchange : ∀ {m m'}, I m → Change P m m' → I m')
    (hstats : ∀ {m}, I m → I m.resetStats) (htable : ∀ {m}, I m → P m.table) {op : Operation}
    (hop : ∀ t, op = .install t → P t) (hb : I b.map) :
    Settles (fun (_, b') => I b'.map) (op.perform (Bus.port h limit) b) := by
  cases haccess : op.isAccess with
  | true => exact settles_access hI hb haccess
  | false =>
    obtain ⟨answer, b', hperform, hb'⟩ := perform_change hchange hstats htable hop hb haccess
    rw [hperform]
    exact hb'

/-- With a handler that performs operations, every operation keeps the map sound. -/
theorem settles_sound (hh : h.Confined P) (hb : b.map.Sound) (op : Operation) :
    Settles (fun (_, b') => b'.map.Sound) (op.perform (Bus.port h limit) b) := by
  have hchange {m m'} (hm : m.Sound) (hc : Change (fun _ => True) m m') : m'.Sound := hm.change hc
  have hstats {m : MemoryMap} (hm : m.Sound) : m.resetStats.Sound := hm.of_same rfl rfl List.prefix_rfl
  exact settles_perform (keeps_sound hh) hchange hstats (fun _ => trivial) (fun _ _ => trivial) hb

theorem sound_run (hh : h.Confined P) {banks : Banks} {s : σ} {ops : List Operation} {answers : List Reply}
    (hrun : run (Bus.port h limit) (Bus.attach h (.ofBanks banks) s) ops = .ok (answers, b)) :
    b.map.Sound := by
  have hend : Settles _ (run (Bus.port h limit) _ ops) :=
    settles_run (J := fun b => b.map.Sound) (fun op _ b hb => settles_sound hh hb op)
      (Bus.sound_attach h banks s)
  rwa [hrun] at hend

/-- Operations of every kind, with a handler that performs some of its own, never take an access
outside a bank: not through a slot, and not through the table. -/
theorem accesses_stay_inside (hh : h.Confined fun _ => True) (banks : Banks) (s : σ)
    (ops : List Operation) :
    (∀ bank offset, run (Bus.port h limit) (Bus.attach h (.ofBanks banks) s) ops ≠
        .error (.outsideBank bank offset)) ∧
      ∀ answers b, run (Bus.port h limit) (Bus.attach h (.ofBanks banks) s) ops = .ok (answers, b) →
        (∀ d w a bank offset, (b.map.slots.get d w).translate a = some (bank, offset) →
          b.map.banks.Reaches w bank offset) ∧
        ∀ d w a limit r k b', (w = .word → a &&& 1 = 0) →
          b.resolve h d a limit = .ok (.memory r k, b') →
          b'.map.banks.Reaches w k.bank (k.offset a) := by
  have hrun : Settles _ (run (Bus.port h limit) _ ops) :=
    settles_run (J := fun b => b.map.Sound) (fun op _ b hb => settles_sound hh hb op)
      (Bus.sound_attach h banks s)
  constructor
  · intro bank offset heq
    rwa [heq] at hrun
  · intro answers b heq
    rw [heq] at hrun
    refine ⟨fun d w a bank offset ht => hrun.reaches_slot ht, fun d w a limit r k b' ha heq => ?_⟩
    have hres : Settles _ (b.resolve h d a limit) := Bus.settles_resolve (keeps_sound hh) hrun d a
    rw [heq] at hres
    obtain ⟨hb', hmem⟩ := hres
    obtain ⟨hk, m, hm, hmap, rfl⟩ := hmem r k rfl
    rw [hmap] at hb' ⊢
    exact hb'.reaches_find hk ha

/-- A word read in a window that is installed when it is asked for leaves the window in a slot. -/
theorem accesses_stay_inside_window : ∃ (h : Handler Unit) (banks : Banks) (ops : List Operation)
    (answers : List Reply) (b : Bus Unit), h.Confined (fun _ => True) ∧
      run (Bus.port h 1) (Bus.attach h (.ofBanks banks) ()) ops = .ok (answers, b) ∧
      (b.map.slots.get .read .word).translate 0x0104 = some (0, 0) ∧
      b.map.banks.Reaches .word 0 0 := by
  obtain ⟨h, banks, ops, answers, b, hh, hrun, hslot⟩ : ∃ (h : Handler Unit) (banks : Banks)
      (ops : List Operation) (answers : List Reply) (b : Bus Unit), h.Confined (fun _ => True) ∧
        run (Bus.port h 1) (Bus.attach h (.ofBanks banks) ()) ops = .ok (answers, b) ∧
        (b.map.slots.get .read .word).translate 0x0104 = some (0, 0) := by
    refine ⟨.installing ⟨.ofRanges [⟨0xFF00, 0x0100, .read, some ⟨0, 0, 1⟩, 0⟩] .guard, .zero,
        Arena.valid_ofRanges rfl rfl rfl (by decide)⟩, ⟨#[⟨"ram", ⟨#[7, 9]⟩⟩]⟩,
      [.install ⟨.ofRanges [.ofAccess 0 0 .notify] .guard, .zero,
        Arena.valid_ofRanges rfl rfl rfl (by decide)⟩, .readWord 0x0102], _, _,
      Handler.confined_installing trivial, rfl, rfl⟩
  obtain ⟨-, hinside⟩ := accesses_stay_inside hh banks () ops
  exact ⟨h, banks, ops, answers, b, hh, hrun, hslot,
    (hinside answers b hrun).1 .read .word 0x0104 0 0 hslot⟩

end Operation
end MemoryBus
