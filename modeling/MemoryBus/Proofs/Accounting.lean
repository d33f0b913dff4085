import MemoryBus.Proofs.Counters
import MemoryBus.Proofs.Shadowing
import MemoryBus.Proofs.Telling

/-! The counters of a bus against what really happened: the calls that its handler received, the parts that
nobody served, and the lookups that each of these took. -/
namespace MemoryBus

variable {σ : Type}

/-- What the handler was asked, and what it answered. -/
inductive Asked
  | device (range : Range) (request : Request) (reply : UInt32)
  | notify (range : Range) (accepted : Bool)
  deriving DecidableEq

namespace Asked

def isDevice : Asked → Bool
  | device .. => true
  | notify .. => false

def isNotify : Asked → Bool
  | device .. => false
  | notify .. => true

def isDeclined : Asked → Bool
  | device .. => false
  | notify _ accepted => !accepted

end Asked

/-- Writes down everything that the handler is asked, and passes it on. -/
def Handler.logging (h : Handler σ) : Handler (σ × List Asked) where
  name := h.name
  device s r q :=
    let reply := h.device s.1 r q
    ⟨reply.value, (reply.state, s.2 ++ [.device r q reply.value]), reply.remarks⟩
  notify s r m :=
    let reply := h.notify s.1 r m
    ⟨reply.accepted, (reply.state, s.2 ++ [.notify r reply.accepted]), reply.map⟩

/-- Told of range `r` on the bus `c`, the handler leaves a map that has counted no fewer lookups. -/
def Handler.Retains (h : Handler σ) (c : Bus σ) (r : Range) : Prop :=
  c.map.tableStats.lookups ≤ (h.notify c.state r c.map).map.tableStats.lookups

theorem Handler.Confined.retains {h : Handler σ} (hh : h.Confined fun _ => True) (c : Bus σ) (r : Range) :
    h.Retains c r := (hh c.state r c.map).lookups_le

theorem Handler.shadows_logging (h : Handler σ) : h.logging.Shadows h Prod.fst where
  value _ _ _ := rfl
  remarks _ _ _ := rfl
  device _ _ _ := rfl
  accepted _ _ _ := rfl
  map _ _ _ := rfl
  notify _ _ _ := rfl

namespace Bus

/-- The bus with a log beside the state of its handler. -/
def logged (b : Bus σ) (log : List Asked) : Bus (σ × List Asked) := ⟨b.map, (b.state, log), b.dispatch⟩

section

variable (h : Handler σ)

/-- Nobody serves an access to `a` in direction `d`: the range that is found has no capability that helps, or
the handler is told and declines. It may have accepted first, up to `limit` times, and the access was looked
up again each time. -/
inductive Unserved (d : Direction) (a : UInt32) : Nat → Bus σ → Prop
  | unmapped {limit : Nat} {b : Bus σ} : (b.map.find a).1.range.served d = none →
    (b.map.find a).1.range.access.has .device = false →
    (b.map.find a).1.range.access.has .notify = false → Unserved d a limit b
  | declined {limit : Nat} {b b' : Bus σ} : (b.map.find a).1.range.Asks d →
    (b.find a).2.notify h (b.map.find a).1.range = (false, b') → Unserved d a limit b
  | again {limit : Nat} {b b' : Bus σ} : (b.map.find a).1.range.Asks d →
    (b.find a).2.notify h (b.map.find a).1.range = (true, b') → Unserved d a limit b' →
    Unserved d a (limit + 1) b

/-- The part is not known to its slot and ends unserved. -/
def Fails (limit : Nat) (q : Request) (b : Bus σ) : Prop :=
  b.Misses q ∧ Unserved h q.direction q.address limit b

end

variable {h : Handler σ} {limit : Nat} {d : Direction} {a : UInt32} {s : Service} {q : Request}
  {v : UInt32} {b b' : Bus σ}

theorem through_logged (b : Bus σ) (log : List Asked) : (b.logged log).through Prod.fst = b := rfl

/-! Parts that nobody serves. -/

theorem Unserved.resolve (hb : Unserved h d a limit b) :
    ∃ b', b.resolve h d a limit = .ok (.failed, b') := by
  induction hb with
  | unmapped hk hdev hnot =>
    unfold Bus.resolve
    simp only [find_eq, hk, hdev, hnot]
    exact ⟨_, rfl⟩
  | declined hasks hn =>
    unfold Bus.resolve
    rw [find_eq] at hn
    simp only [find_eq, hasks.unserved, hasks.no_device, hasks.notifies, hn, if_true]
    exact ⟨_, rfl⟩
  | again hasks hn _ ih =>
    unfold Bus.resolve
    rw [find_eq] at hn
    simp only [find_eq, hasks.unserved, hasks.no_device, hasks.notifies, hn, if_true]
    exact ih

/-- A resolution that ends counts one failure just if nobody serves the access. -/
theorem failed_resolve (hr : b.resolve h d a limit = .ok (s, b')) :
    (s = .failed → Unserved h d a limit b) ∧
      b'.dispatch.failed = b.dispatch.failed + if s = .failed then 1 else 0 := by
  fun_induction Bus.resolve h d a limit b with
  | case1 limit b found b₁ hfind k hk =>
    obtain ⟨rfl, rfl⟩ := Prod.mk.inj ((find_eq b a).symm.trans hfind)
    obtain ⟨rfl, rfl⟩ := Prod.mk.inj (Except.ok.inj hr)
    exact ⟨by simp, rfl⟩
  | case2 limit b found b₁ hfind hk hdev =>
    obtain ⟨rfl, rfl⟩ := Prod.mk.inj ((find_eq b a).symm.trans hfind)
    obtain ⟨rfl, rfl⟩ := Prod.mk.inj (Except.ok.inj hr)
    exact ⟨by simp, rfl⟩
  | case3 => cases hr
  | case4 b found b₁ hfind hk hdev hnot b₂ limit hn ih =>
    obtain ⟨rfl, rfl⟩ := Prod.mk.inj ((find_eq b a).symm.trans hfind)
    obtain ⟨hunserved, hfailed⟩ := ih hr
    refine ⟨fun hs => .again ⟨hk, by simpa using hdev, hnot⟩ hn (hunserved hs), ?_⟩
    rw [hfailed, eq_of_notify hn]
  | case5 limit b found b₁ hfind hk hdev hnot b₂ hn =>
    obtain ⟨rfl, rfl⟩ := Prod.mk.inj ((find_eq b a).symm.trans hfind)
    obtain ⟨rfl, rfl⟩ := Prod.mk.inj (Except.ok.inj hr)
    refine ⟨fun _ => .declined ⟨hk, by simpa using hdev, hnot⟩ hn, ?_⟩
    rw [eq_of_notify hn]
    rfl
  | case6 limit b found b₁ hfind hk hdev hnot =>
    obtain ⟨rfl, rfl⟩ := Prod.mk.inj ((find_eq b a).symm.trans hfind)
    obtain ⟨rfl, rfl⟩ := Prod.mk.inj (Except.ok.inj hr)
    exact ⟨fun _ => .unmapped hk (by simpa using hdev) (by simpa using hnot), rfl⟩

theorem unserved_iff : Unserved h d a limit b ↔ ∃ b', b.resolve h d a limit = .ok (.failed, b') := by
  constructor
  · exact Unserved.resolve
  · rintro ⟨b', hr⟩
    exact (failed_resolve hr).1 rfl

theorem unserved_iff_toOption : Unserved h d a limit b ↔
    (b.resolve h d a limit).toOption.map (·.1) = some .failed := by
  rw [unserved_iff]
  cases b.resolve h d a limit with
  | error e => simp [Except.toOption]
  | ok result => simp [Except.toOption, Prod.ext_iff]

instance : Decidable (Unserved h d a limit b) := decidable_of_iff _ unserved_iff_toOption.symm

instance : Decidable (b.Fails h limit q) := inferInstanceAs (Decidable (_ = none ∧ _))

theorem failed_serve (hs : b.serve h limit q = .ok (v, b')) :
    b'.dispatch.failed = b.dispatch.failed + if b.Fails h limit q then 1 else 0 := by
  have hslot : b.Misses q → ∀ {s b₁}, b.resolve h q.direction q.address limit = .ok (s, b₁) →
      b₁.dispatch.failed = b.dispatch.failed + if b.Fails h limit q then 1 else 0 := by
    intro hmiss s b₁ hr
    rw [(failed_resolve hr).2]
    congr 1
    refine if_congr ?_ rfl rfl
    rw [Fails, unserved_iff, hr]
    simp [hmiss, Prod.ext_iff]
  rcases serve_cases hs with ⟨bank, offset, hslot, ht⟩ | ⟨hmiss, hend⟩
  · obtain ⟨banks, -, rfl⟩ := transfer_banks ht
    have hno : ¬ b.Fails h limit q := fun hfails => by cases hslot.symm.trans hfails.1
    simp [hno]
  · rcases hend with ⟨r, k, b₁, hr, ht⟩ | ⟨r, b₁, hr, hcall⟩ | ⟨hr, -⟩
    · obtain ⟨banks, -, rfl⟩ := transfer_banks ht
      have hfailed : b₁.dispatch.failed = _ := hslot hmiss hr
      exact hfailed
    · obtain rfl : (b₁.callDevice h r q).2 = b' := congrArg Prod.snd hcall
      have hfailed : b₁.dispatch.failed = _ := hslot hmiss hr
      rw [callDevice_eq]
      exact hfailed
    · exact hslot hmiss hr

theorem failed_serveEach {qs : List Request} {vs : List UInt32} (hs : b.serveEach h limit qs = .ok (vs, b')) :
    b'.dispatch.failed =
      b.dispatch.failed + (visits h limit qs b).countP fun x => x.2.Fails h limit x.1 := by
  induction qs generalizing b vs with
  | nil =>
    obtain ⟨-, rfl⟩ := Prod.mk.inj (Except.ok.inj hs)
    rfl
  | cons q qs ih =>
    obtain ⟨_, _, rest, hserve, hrest, -⟩ := serveEach_cons hs
    have hfirst := failed_serve hserve
    have hothers := ih hrest
    simp only [visits, hserve, List.countP_cons, decide_eq_true_eq]
    omega

/-! The calls in the log. -/

/-- The counters of calls are those of the log. -/
structure Tallied (b : Bus (σ × List Asked)) : Prop where
  devices : b.dispatch.deviceAccesses = b.state.2.countP (·.isDevice)
  notifications : b.dispatch.notifications = b.state.2.countP (·.isNotify)
  rejected : b.dispatch.rejected = b.state.2.countP (·.isDeclined)

theorem Tallied.notify {b b' : Bus (σ × List Asked)} {r : Range} {accepted : Bool} (hb : b.Tallied)
    (hn : b.notify h.logging r = (accepted, b')) :
    b'.dispatch.deviceAccesses = b'.state.2.countP (·.isDevice) ∧
      b'.dispatch.notifications = b'.state.2.countP (·.isNotify) ∧
      b'.dispatch.rejected + (if accepted then 0 else 1) = b'.state.2.countP (·.isDeclined) := by
  have hlog : b'.state.2 = b.state.2 ++ [.notify r accepted] := by
    obtain ⟨rfl, rfl⟩ := Prod.mk.inj hn
    rfl
  rw [hlog, eq_of_notify hn]
  simp only [List.countP_append, hb.devices, hb.notifications, hb.rejected]
  cases accepted <;> simp [Asked.isDevice, Asked.isNotify, Asked.isDeclined]

theorem upholds_tallied (h : Handler σ) : h.logging.Upholds Tallied where
  find _ hb := ⟨hb.devices, hb.notifications, hb.rejected⟩
  fill hb _ _ := ⟨hb.devices, hb.notifications, hb.rejected⟩
  banks hb _ := ⟨hb.devices, hb.notifications, hb.rejected⟩
  device {b} r q hb := by
    rw [callDevice_eq]
    constructor <;>
      simp [countDevice, Handler.logging, hb.devices, hb.notifications, hb.rejected, Asked.isDevice,
        Asked.isNotify, Asked.isDeclined]
  accepted hb hn := by
    obtain ⟨hdevices, hnotifications, hrejected⟩ := hb.notify hn
    exact ⟨hdevices, hnotifications, hrejected⟩
  declined d a hb hn := by
    obtain ⟨hdevices, hnotifications, hrejected⟩ := hb.notify hn
    exact ⟨hdevices, hnotifications, hrejected⟩
  unmapped _ _ hb := ⟨hb.devices, hb.notifications, hb.rejected⟩

/-! What the counters say of each other. -/

/-- A declined notification is a notification, and it fails an access. -/
structure Ordered (b : Bus σ) : Prop where
  notifications : b.dispatch.rejected ≤ b.dispatch.notifications
  failed : b.dispatch.rejected ≤ b.dispatch.failed

theorem upholds_ordered (h : Handler σ) : h.Upholds Ordered where
  find _ hb := ⟨hb.notifications, hb.failed⟩
  fill hb _ _ := ⟨hb.notifications, hb.failed⟩
  banks hb _ := ⟨hb.notifications, hb.failed⟩
  device r q hb := by
    rw [callDevice_eq]
    exact ⟨hb.notifications, hb.failed⟩
  accepted hb hn := by
    rw [eq_of_notify hn]
    exact ⟨Nat.le_succ_of_le hb.notifications, hb.failed⟩
  declined d a hb hn := by
    rw [eq_of_notify hn]
    exact ⟨Nat.succ_le_succ hb.notifications, Nat.succ_le_succ hb.failed⟩
  unmapped _ _ hb := ⟨hb.notifications, Nat.le_succ_of_le hb.failed⟩

/-- Each call of the handler, and each failure without one, took a lookup of its own. -/
def Covered (b : Bus σ) : Prop :=
  b.dispatch.deviceAccesses + b.dispatch.notifications + b.dispatch.failed ≤ b.lookups + b.dispatch.rejected

theorem Covered.find (hb : b.Covered) (a : UInt32) : (b.find a).2.Covered :=
  Nat.le_trans hb (Nat.add_le_add_right (Nat.le_succ _) _)

/-- The lookup pays for the notification. -/
theorem Covered.notify (hb : b.Covered) {r : Range} (hr : h.Retains (b.find a).2 r) {accepted : Bool}
    (hn : (b.find a).2.notify h r = (accepted, b')) : b'.Covered := by
  have hlookups : b.lookups + 1 ≤ b'.lookups := by
    rw [Bus.lookups, Bus.lookups, notify_map hn]
    exact hr
  have hdispatch : b'.dispatch = { b.dispatch with notifications := b.dispatch.notifications + 1 } :=
    congrArg Bus.dispatch (eq_of_notify hn)
  unfold Covered at hb ⊢
  simp only [hdispatch]
  omega

theorem Covered.resolve (hb : b.Covered) (htold : ∀ c r, Tells h d a limit b c r → h.Retains c r)
    (hr : b.resolve h d a limit = .ok (s, b')) : b'.Covered := by
  fun_induction Bus.resolve h d a limit b with
  | case1 limit b found b₁ hfind k hk =>
    obtain ⟨rfl, rfl⟩ := Prod.mk.inj ((find_eq b a).symm.trans hfind)
    obtain ⟨-, rfl⟩ := Prod.mk.inj (Except.ok.inj hr)
    exact hb.find a
  | case2 limit b found b₁ hfind hk hdev =>
    obtain ⟨rfl, rfl⟩ := Prod.mk.inj ((find_eq b a).symm.trans hfind)
    obtain ⟨-, rfl⟩ := Prod.mk.inj (Except.ok.inj hr)
    change b.dispatch.deviceAccesses + 1 + b.dispatch.notifications + b.dispatch.failed ≤
      b.lookups + 1 + b.dispatch.rejected
    unfold Covered at hb
    omega
  | case3 => cases hr
  | case4 b found b₁ hfind hk hdev hnot b₂ limit hn ih =>
    have htells : Tells h d a (limit + 1) b b₁ found.range := tells_of_find hfind hk hdev hnot
    obtain ⟨rfl, rfl⟩ := Prod.mk.inj ((find_eq b a).symm.trans hfind)
    have hasks : (b.map.find a).1.range.Asks d := ⟨hk, by simpa using hdev, hnot⟩
    exact ih (hb.notify (htold _ _ htells) hn) (fun c r hc => htold c r (.again hasks hn hc)) hr
  | case5 limit b found b₁ hfind hk hdev hnot b₂ hn =>
    have htells : Tells h d a limit b b₁ found.range := tells_of_find hfind hk hdev hnot
    obtain ⟨rfl, rfl⟩ := Prod.mk.inj ((find_eq b a).symm.trans hfind)
    obtain ⟨-, rfl⟩ := Prod.mk.inj (Except.ok.inj hr)
    -- A rejection is a failure as well, and adds as much to either side.
    exact Nat.succ_le_succ (hb.notify (htold _ _ htells) hn)
  | case6 limit b found b₁ hfind hk hdev hnot =>
    obtain ⟨rfl, rfl⟩ := Prod.mk.inj ((find_eq b a).symm.trans hfind)
    obtain ⟨-, rfl⟩ := Prod.mk.inj (Except.ok.inj hr)
    change b.dispatch.deviceAccesses + b.dispatch.notifications + (b.dispatch.failed + 1) ≤
      b.lookups + 1 + b.dispatch.rejected
    unfold Covered at hb
    omega

theorem Covered.serve (hb : b.Covered) (htold : b.Misses q → ∀ c r,
      Tells h q.direction q.address limit b c r → h.Retains c r)
    (hs : b.serve h limit q = .ok (v, b')) : b'.Covered := by
  rcases serve_cases hs with
    ⟨bank, offset, -, ht⟩ | ⟨hmiss, ⟨r, k, b₁, hr, ht⟩ | ⟨r, b₁, hr, hcall⟩ | ⟨hr, -⟩⟩
  · obtain ⟨banks, -, rfl⟩ := transfer_banks ht
    exact hb
  · have hb₁ := hb.resolve (htold hmiss) hr
    obtain ⟨banks, -, rfl⟩ := transfer_banks ht
    exact hb₁
  · have hb₁ := hb.resolve (htold hmiss) hr
    obtain rfl : (b₁.callDevice h r q).2 = b' := congrArg Prod.snd hcall
    rw [callDevice_eq]
    exact hb₁
  · exact hb.resolve (htold hmiss) hr

end Bus

/-! Promotions. -/

/-- No more ranges moved than were compared, and than there were lookups. -/
structure TableStats.Fair (s : TableStats) : Prop where
  probes : s.promotions ≤ s.probes
  lookups : s.promotions ≤ s.lookups

namespace TableStats

theorem fair_zero : zero.Fair := ⟨Nat.le_refl 0, Nat.le_refl 0⟩

theorem Fair.add {s t : TableStats} (hs : s.Fair) (ht : t.Fair) : (s.add t).Fair :=
  ⟨Nat.add_le_add hs.probes ht.probes, Nat.add_le_add hs.lookups ht.lookups⟩

end TableStats

/-- The tables that there can be: they are built, and then looked up in and reset. -/
inductive Table.Made : Table → Prop
  | guardOnly : Made .guardOnly
  | build {rs : List Range} {guard : Range} {t : Table} : Table.build rs guard = .ok t → Made t
  | find {t : Table} (a : UInt32) : Made t → Made (t.find a).2
  | resetStats {t : Table} : Made t → Made t.resetStats

theorem Table.Made.fair {t : Table} (ht : t.Made) : t.stats.Fair := by
  induction ht with
  | guardOnly => exact TableStats.fair_zero
  | build hbuild =>
    rw [(Table.arena_of_build hbuild).2]
    exact TableStats.fair_zero
  | @find t a _ ih =>
    have hlookup : (t.find a).1.stats.Fair := by
      have hpromoted := Table.promoted_find (t := t) (a := a)
      constructor
      · unfold Lookup.stats
        split
        · have hdepth : (t.find a).1.depth ≠ 0 := by simp_all
          exact Nat.one_le_iff_ne_zero.mpr hdepth
        · exact Nat.zero_le _
      · unfold Lookup.stats
        split <;> simp
    exact ih.add hlookup
  | resetStats => exact TableStats.fair_zero

/-- The table was made, and the counters that are kept of earlier tables are those of tables that were made. -/
structure MemoryMap.Genuine (m : MemoryMap) : Prop where
  table : m.table.Made
  retired : ∃ ts : List Table, (∀ t ∈ ts, t.Made) ∧ m.retired = ts.foldl (fun s t => s.add t.stats) .zero

namespace MemoryMap

variable {m m' : MemoryMap}

theorem genuine_ofBanks (banks : Banks) : (ofBanks banks).Genuine := ⟨.guardOnly, [], by simp, rfl⟩

theorem Genuine.of_same (hm : m.Genuine) (ht : m'.table = m.table) (hr : m'.retired = m.retired) :
    m'.Genuine := by
  obtain ⟨hmade, hretired⟩ := hm
  exact ⟨ht ▸ hmade, hr ▸ hretired⟩

theorem Genuine.find (hm : m.Genuine) (a : UInt32) : (m.find a).2.Genuine := ⟨hm.table.find a, hm.retired⟩

theorem Genuine.resetStats (hm : m.Genuine) : m.resetStats.Genuine := ⟨hm.table.resetStats, [], by simp, rfl⟩

theorem Genuine.change (hm : m.Genuine) (hc : Change Table.Made m m') : m'.Genuine := by
  cases hc with
  | find a => exact hm.find a
  | install ht hi =>
    obtain ⟨-, rfl⟩ := install_ok hi
    obtain ⟨ts, hts, hretired⟩ := hm.retired
    refine ⟨ht, ts ++ [m.table], ?_, ?_⟩
    · simpa [or_imp, forall_and] using ⟨hts, hm.table⟩
    · rw [List.foldl_append, ← hretired]
      rfl
  | restore hr =>
    obtain ⟨banks, -, rfl⟩ := restore_ok hr
    exact hm.of_same rfl rfl
  | loadImage i path file =>
    obtain ⟨banks, journal, -, heq⟩ := m.loadImage_snd i path file
    exact hm.of_same (heq ▸ rfl) (heq ▸ rfl)
  | _ => exact hm.of_same rfl rfl

theorem Genuine.fair (hm : m.Genuine) : m.tableStats.Fair := by
  obtain ⟨ts, hts, hretired⟩ := hm.retired
  have hsum (ts : List Table) (s : TableStats) (hs : s.Fair) (hts : ∀ t ∈ ts, t.Made) :
      (ts.foldl (fun s t => s.add t.stats) s).Fair := by
    induction ts generalizing s with
    | nil => exact hs
    | cons t ts ih => exact ih _ (hs.add (hts t (by simp)).fair) fun t ht => hts t (by simp [ht])
  rw [tableStats, hretired]
  exact (hsum ts .zero TableStats.fair_zero hts).add hm.table.fair

end MemoryMap

/-- The handler leaves a map that was made, if it is given one. -/
def Handler.Genuine (h : Handler σ) : Prop := ∀ s r m, m.Genuine → (h.notify s r m).map.Genuine

theorem Handler.Confined.genuine {h : Handler σ} (hh : h.Confined Table.Made) : h.Genuine :=
  fun s r m hm => (hh s r m).keep MemoryMap.Genuine.change hm

theorem Handler.Genuine.carries {h : Handler σ} (hgenuine : h.Genuine) (hfree : h.Free) :
    h.Carries fun m => m.Reachable ∧ m.Genuine where
  find a hm := ⟨hm.1.change (.find _ a), hm.2.find a⟩
  fill hm hk ha := ⟨hm.1.fill hk ha, (hm.2.find _).of_same rfl rfl⟩
  banks hm _ := ⟨hm.1.banks _, hm.2.of_same rfl rfl⟩
  note e hm := ⟨hm.1.change (.note _ e), hm.2.of_same rfl rfl⟩
  notify s r hm := ⟨hfree s r _ hm.1, hgenuine s r _ hm.2⟩

namespace Handler

/-- Puts an empty map in the place of the one that it is given, and declines. -/
def forgetting : Handler Unit where
  name := "forgetting"
  device s _ _ := ⟨0, s, []⟩
  notify s _ _ := ⟨false, s, .empty⟩

theorem free_forgetting : forgetting.Free := fun _ _ _ _ => .ofBanks .empty

theorem genuine_forgetting : forgetting.Genuine := fun _ _ _ _ => MemoryMap.genuine_ofBanks .empty

end Handler

/-! Runs. -/

namespace Operation

variable {h : Handler σ} {limit : Nat} {b b' : Bus σ} {op : Operation} {ops before after : List Operation}
  {answer : Reply} {answers : List Reply}

/-- What is not an access leaves the handler alone, and the counters of the accesses too unless it resets
them. -/
theorem perform_other (hop : op.isAccess = false)
    (hperform : op.perform (Bus.port h limit) b = .ok (answer, b')) : b'.state = b.state ∧
      (op = .resetStats ∧ b' = b.resetStats ∨
        op ≠ .resetStats ∧ b'.dispatch = b.dispatch ∧ Changes (fun _ => True) b.map b'.map) := by
  have hsettled {x : Except MemoryError MemoryMap} (hx : ∀ m, x = .ok m → Change (fun _ => True) b.map m) :
      (settle b x).2.state = b.state ∧ (settle b x).2.dispatch = b.dispatch ∧
        Changes (fun _ => True) b.map (settle b x).2.map := by
    cases x with
    | ok m => exact ⟨rfl, rfl, .single (hx m rfl)⟩
    | error e => exact ⟨rfl, rfl, .refl⟩
  cases op with
  | install t =>
    obtain ⟨-, rfl⟩ := Prod.mk.inj (Except.ok.inj hperform)
    obtain ⟨hstate, hsame⟩ := hsettled fun m hm => .install trivial (mapError_ok hm)
    exact ⟨hstate, .inr ⟨nofun, hsame⟩⟩
  | reinstall =>
    obtain ⟨-, rfl⟩ := Prod.mk.inj (Except.ok.inj hperform)
    obtain ⟨hstate, hsame⟩ := hsettled fun m hm => .install trivial (mapError_ok hm)
    exact ⟨hstate, .inr ⟨nofun, hsame⟩⟩
  | addBank name bytes =>
    obtain ⟨-, rfl⟩ := Prod.mk.inj (Except.ok.inj hperform)
    exact ⟨rfl, .inr ⟨nofun, rfl, .single (.addBank b.map name bytes)⟩⟩
  | overwriteBank i offset bytes =>
    obtain ⟨-, rfl⟩ := Prod.mk.inj (Except.ok.inj hperform)
    exact ⟨rfl, .inr ⟨nofun, rfl, .single (.overwriteBank b.map i offset bytes)⟩⟩
  | restore s =>
    obtain ⟨-, rfl⟩ := Prod.mk.inj (Except.ok.inj hperform)
    obtain ⟨hstate, hsame⟩ := hsettled fun m hm => .restore (mapError_ok hm)
    exact ⟨hstate, .inr ⟨nofun, hsame⟩⟩
  | loadImage i path file =>
    obtain ⟨-, rfl⟩ := Prod.mk.inj (Except.ok.inj hperform)
    exact ⟨rfl, .inr ⟨nofun, rfl, .single (.loadImage b.map i path file)⟩⟩
  | resetStats =>
    obtain ⟨-, rfl⟩ := Prod.mk.inj (Except.ok.inj hperform)
    exact ⟨rfl, .inl ⟨rfl, rfl⟩⟩
  | _ => cases hop

/-- What the parts and the lookups keep, and what needs only the state of the handler, the counters and the
changes of the map, every run keeps. -/
theorem keeps_counts (hfree : h.Free) {J : Bus σ → Prop} {G : Bus σ → Range → Prop}
    (hserve : ∀ {b b' : Bus σ} {q v}, J b → q.Aligned →
      (b.Misses q → ∀ c r, Bus.Tells h q.direction q.address limit b c r → G c r) →
        b.serve h limit q = .ok (v, b') → J b')
    (hfind : ∀ {b} a, J b → J (b.find a).2)
    (hother : ∀ {b b'}, J b → b'.state = b.state → b'.dispatch = b.dispatch →
      Changes (fun _ => True) b.map b'.map → J b')
    (hreset : .resetStats ∈ ops → ∀ {b}, J b → J b.resetStats) (hreach : b.map.Reachable) (hb : J b)
    (htold : ∀ c r, Tells h limit ops b c r → G c r)
    (hrun : run (Bus.port h limit) b ops = .ok (answers, b')) : J b' := by
  refine (holds_run (J := fun b => b.map.Reachable ∧ J b) (G := G) ?_ ?_ (·.1.aligned) ⟨hreach, hb⟩ ?_ htold
    hrun).2
  · exact fun hb hq htold hs =>
      ⟨Bus.carries_serve (carries_reachable hfree) hb.1 hq hs, hserve hb.2 hq htold hs⟩
  · exact fun a hb => ⟨hb.1.change (.find _ a), hfind a hb.2⟩
  · intro op hop haccess b b' answer hb hperform
    refine ⟨reachable_perform hfree hb.1 hperform, ?_⟩
    obtain ⟨hstate, ⟨rfl, rfl⟩ | ⟨-, hdispatch, hchanges⟩⟩ := perform_other haccess hperform
    · exact hreset hop hb.2
    · exact hother hb.2 hstate hdispatch hchanges

theorem failed_perform (hfree : h.Free) (hreach : b.map.Reachable) (hop : op ≠ .resetStats)
    (hperform : op.perform (Bus.port h limit) b = .ok (answer, b')) : b'.dispatch.failed =
      b.dispatch.failed + (Bus.visits h limit op.parts b).countP fun x => x.2.Fails h limit x.1 := by
  cases haccess : op.isAccess with
  | true =>
    obtain ⟨a, rfl⟩ | hparts := parts_ne_nil haccess
    · obtain rfl : (b.find a).2 = b' := congrArg Prod.snd (Except.ok.inj hperform)
      rfl
    · rw [perform_each (J := fun b => b.map.Reachable) (Bus.carries_serve (carries_reachable hfree))
        MemoryMap.Reachable.aligned hreach hparts] at hperform
      obtain ⟨⟨vs, b₁⟩, heach, hpair⟩ := Bus.map_ok hperform
      obtain ⟨-, rfl⟩ := Prod.mk.inj hpair
      exact Bus.failed_serveEach heach
  | false =>
    have hnone : op.parts = [] := by cases op <;> first | rfl | cases haccess
    obtain ⟨-, ⟨hreset, -⟩ | ⟨-, hdispatch, -⟩⟩ := perform_other haccess hperform
    · exact absurd hreset hop
    · rw [hdispatch, hnone]
      rfl

theorem failed_run (hfree : h.Free) (hreach : b.map.Reachable) (hops : .resetStats ∉ ops)
    (hrun : run (Bus.port h limit) b ops = .ok (answers, b')) : b'.dispatch.failed =
      b.dispatch.failed + (visits h limit ops b).countP fun x => x.2.Fails h limit x.1 := by
  induction ops generalizing b answers with
  | nil =>
    obtain ⟨-, rfl⟩ := Prod.mk.inj (Except.ok.inj hrun)
    rfl
  | cons op ops ih =>
    obtain ⟨hop, hrest⟩ : .resetStats ≠ op ∧ .resetStats ∉ ops := by simpa using hops
    obtain ⟨answer, b₁, rest, hperform, hrun₁, -⟩ := run_cons hrun
    have hfirst := failed_perform hfree hreach (Ne.symm hop) hperform
    have hothers := ih (reachable_perform hfree hreach hperform) hrest hrun₁
    simp only [visits, hperform, List.countP_append]
    omega

theorem tallied_run {b b' : Bus (σ × List Asked)} (hfree : h.Free) (hreach : b.map.Reachable)
    (hops : .resetStats ∉ ops) (hb : b.Tallied)
    (hrun : run (Bus.port h.logging limit) b ops = .ok (answers, b')) : b'.Tallied := by
  refine keeps_counts (h.shadows_logging.free hfree) (G := fun _ _ => True)
    (fun hb hq _ => Bus.upholds_serve (Bus.upholds_tallied h) hb hq) (Bus.upholds_tallied h).find ?_
    (fun hreset => absurd hreset hops) hreach hb (fun _ _ _ => trivial) hrun
  intro b b' hb hstate hdispatch _
  constructor
  · rw [hstate, hdispatch, hb.devices]
  · rw [hstate, hdispatch, hb.notifications]
  · rw [hstate, hdispatch, hb.rejected]

theorem ordered_run (hfree : h.Free) (hreach : b.map.Reachable) (hb : b.Ordered)
    (hrun : run (Bus.port h limit) b ops = .ok (answers, b')) : b'.Ordered := by
  refine keeps_counts hfree (G := fun _ _ => True)
    (fun hb hq _ => Bus.upholds_serve (Bus.upholds_ordered h) hb hq) (Bus.upholds_ordered h).find ?_
    (fun _ _ _ => ⟨Nat.le_refl 0, Nat.le_refl 0⟩) hreach hb (fun _ _ _ => trivial) hrun
  intro b b' hb _ hdispatch _
  constructor
  · rw [hdispatch]
    exact hb.notifications
  · rw [hdispatch]
    exact hb.failed

theorem covered_run (hfree : h.Free) (hreach : b.map.Reachable) (hb : b.Covered)
    (htold : ∀ c r, Tells h limit ops b c r → h.Retains c r)
    (hrun : run (Bus.port h limit) b ops = .ok (answers, b')) : b'.Covered := by
  refine keeps_counts hfree (fun hb _ => hb.serve) (fun a hb => hb.find a) ?_ (fun _ _ _ => Nat.le_refl 0)
    hreach hb htold hrun
  intro b b' hb _ hdispatch hchanges
  have hlookups : b.lookups ≤ b'.lookups := hchanges.lookups_le
  unfold Bus.Covered at hb ⊢
  rw [hdispatch]
  omega

theorem exists_runs {p : Port σ} (hrun : run p b (before ++ after) = .ok (answers, b')) :
    ∃ answers₁ b₁ answers₂, run p b before = .ok (answers₁, b₁) ∧ run p b₁ after = .ok (answers₂, b') ∧
      answers = answers₁ ++ answers₂ := by
  induction before generalizing b answers with
  | nil => exact ⟨[], b, answers, rfl, hrun, rfl⟩
  | cons op before ih =>
    obtain ⟨answer, b₁, rest, hop, hrest, rfl⟩ := run_cons hrun
    obtain ⟨answers₁, b₂, answers₂, hbefore, hafter, rfl⟩ := ih hrest
    refine ⟨answer :: answers₁, b₂, answers₂, ?_, hafter, rfl⟩
    simp only [run, hop, hbefore, bind, Except.bind]
    rfl

theorem genuine_run (hgenuine : h.Genuine) (hfree : h.Free) (hreach : b.map.Reachable) (hb : b.map.Genuine)
    (hops : ∀ t, .install t ∈ ops → t.Made)
    (hrun : run (Bus.port h limit) b ops = .ok (answers, b')) : b'.map.Genuine := by
  refine (keeps_run (J := fun b => b.map.Reachable ∧ b.map.Genuine) ?_ ⟨hreach, hb⟩ hrun).2
  intro op hop b₁ answer b₂ hb₁ hperform
  exact carries_perform (hgenuine.carries hfree) (·.1.aligned)
    (fun hm hc => ⟨hm.1.change (hc.mono fun _ _ => trivial), hm.2.change hc⟩)
    (fun hm => ⟨hm.1.resetStats, hm.2.resetStats⟩) (·.2.table) (fun t ht => hops t (ht ▸ hop)) hb₁ hperform

/-- The run from where its counters are zero, with a log of what the handler is asked. -/
theorem accounts_run (hfree : h.Free) (hreach : b.map.Reachable) (hzero : b.dispatch = .zero)
    (hops : .resetStats ∉ ops) (hrun : run (Bus.port h limit) b ops = .ok (answers, b')) : ∃ log,
      run (Bus.port h.logging limit) (b.logged []) ops = .ok (answers, b'.logged log) ∧
        b'.dispatch.deviceAccesses = log.countP (·.isDevice) ∧
        b'.dispatch.notifications = log.countP (·.isNotify) ∧
        b'.dispatch.rejected = log.countP (·.isDeclined) ∧
        b'.dispatch.failed = (visits h limit ops b).countP fun x => x.2.Fails h limit x.1 := by
  have hthrough : run (Bus.port h limit) ((b.logged []).through Prod.fst) ops = _ :=
    run_through h.shadows_logging hfree hreach ops
  rw [Bus.through_logged, hrun] at hthrough
  obtain ⟨⟨answers', c⟩, hlogged, hpair⟩ := Bus.map_ok hthrough.symm
  obtain ⟨rfl, rfl⟩ := Prod.mk.inj hpair
  have hstart : (b.logged []).Tallied := by
    constructor <;> simp [Bus.logged, hzero, Dispatch.zero]
  have htallied := tallied_run hfree hreach hops hstart hlogged
  refine ⟨c.state.2, hlogged, htallied.devices, htallied.notifications, htallied.rejected, ?_⟩
  rw [failed_run hfree hreach hops hrun, hzero]
  exact Nat.zero_add _

/-- Since the bus was made or last reset, the counters have counted the calls of the device, the notifications
and the refusals that the handler can tell of, and the parts that nobody served. Each call, and each failure
without one, took a lookup of its own, and the map has counted it unless a handler has left a map that had
counted fewer. A refusal is a notification and a failure; and where maps were made, a promotion took a lookup and
a comparison. -/
theorem counters_account_for_events (hfree : h.Free) {m : MemoryMap} (hm : m.Reachable) (s : σ)
    (hrun : run (Bus.port h limit) (Bus.attach h m s) ops = .ok (answers, b)) :
    (∀ before after, ops = before ++ after → (before = [] ∨ before.getLast? = some .resetStats) →
        .resetStats ∉ after → ∃ answers₁ start answers₂ log,
          run (Bus.port h limit) (Bus.attach h m s) before = .ok (answers₁, start) ∧
          run (Bus.port h limit) start after = .ok (answers₂, b) ∧ answers = answers₁ ++ answers₂ ∧
          run (Bus.port h.logging limit) (start.logged []) after = .ok (answers₂, b.logged log) ∧
          b.dispatch.deviceAccesses = log.countP (·.isDevice) ∧
          b.dispatch.notifications = log.countP (·.isNotify) ∧
          b.dispatch.rejected = log.countP (·.isDeclined) ∧
          b.dispatch.failed = (visits h limit after start).countP (fun x => x.2.Fails h limit x.1) ∧
          ((∀ c r, Tells h limit after start c r → h.Retains c r) →
            b.dispatch.deviceAccesses + b.dispatch.notifications + (b.dispatch.failed - b.dispatch.rejected) ≤
              b.map.tableStats.lookups)) ∧
      b.dispatch.rejected ≤ b.dispatch.notifications ∧ b.dispatch.rejected ≤ b.dispatch.failed ∧
      (h.Genuine → m.Genuine → (∀ t, .install t ∈ ops → t.Made) →
        b.map.tableStats.promotions ≤ b.map.tableStats.probes ∧
          b.map.tableStats.promotions ≤ b.map.tableStats.lookups) := by
  have hreach : (Bus.attach h m s).map.Reachable := hm.change (.note _ _)
  have hordered : b.Ordered := ordered_run hfree hreach ⟨Nat.le_refl 0, Nat.le_refl 0⟩ hrun
  refine ⟨?_, hordered.notifications, hordered.failed, ?_⟩
  · rintro before after rfl hfrom hafter
    obtain ⟨answers₁, start, answers₂, hbefore, hrest, hanswers⟩ := exists_runs hrun
    have hzero : start.dispatch = .zero := by
      rcases hfrom with rfl | hlast
      · obtain ⟨-, rfl⟩ := Prod.mk.inj (Except.ok.inj hbefore)
        rfl
      · obtain ⟨earlier, rfl⟩ := List.getLast?_eq_some_iff.mp hlast
        obtain ⟨_, b₁, _, -, hreset, -⟩ := exists_runs hbefore
        obtain ⟨-, rfl⟩ := Prod.mk.inj (Except.ok.inj hreset)
        rfl
    have hstart : start.map.Reachable := reachable_run hfree hreach hbefore
    obtain ⟨log, hlog, hdevices, hnotifications, hrejected, hfailed⟩ :=
      accounts_run hfree hstart hzero hafter hrest
    refine ⟨answers₁, start, answers₂, log, hbefore, hrest, hanswers, hlog, hdevices, hnotifications,
      hrejected, hfailed, fun htold => ?_⟩
    have hcovered : b.Covered := by
      refine covered_run hfree hstart ?_ htold hrest
      simp [Bus.Covered, hzero, Dispatch.zero]
    have hmore := hordered.failed
    change _ ≤ b.lookups
    unfold Bus.Covered at hcovered
    omega
  · intro hgenuine hmade hops
    have hstart : (Bus.attach h m s).map.Genuine := hmade.of_same rfl rfl
    have hfair := (genuine_run hgenuine hfree hreach hstart hops hrun).fair
    exact ⟨hfair.probes, hfair.lookups⟩

/-- A word whose first byte is declined and whose second belongs to no window, and then a device. -/
theorem counters_account_for_events_windows : ∃ (h : Handler Unit) (m : MemoryMap)
    (before after : List Operation) (answers : List Reply) (start b : Bus Unit) (log : List Asked), h.Free ∧
      (∀ c r, Tells h 1 after start c r → h.Retains c r) ∧ h.Genuine ∧ m.Reachable ∧ m.Genuine ∧
      (∀ t, .install t ∈ before ++ after → t.Made) ∧
      run (Bus.port h 1) (Bus.attach h m ()) (before ++ after) = .ok (answers, b) ∧
      before.getLast? = some .resetStats ∧ b.dispatch = ⟨1, 1, 1, 2⟩ ∧ log.countP (·.isDeclined) = 1 ∧
      (visits h 1 after start).countP (fun x => x.2.Fails h 1 x.1) = 2 ∧ 3 ≤ b.map.tableStats.lookups ∧
      b.map.tableStats.promotions ≤ b.map.tableStats.probes := by
  obtain ⟨windows, hmade, hcounters⟩ : ∃ windows : Table, windows.Made ∧
      (run (Bus.port (.silent "silent") 1) (Bus.attach (.silent "silent") (.ofBanks .empty) ())
        ([.install windows, .resetStats] ++ [.readWord 0x02FF, .readByte 0x0101])).map (·.2.dispatch) =
          .ok ⟨1, 1, 1, 2⟩ := by
    let rs : List Range := [.ofAccess 0xFF00 0x0100 .device, .ofAccess 0xFF00 0x0200 .notify]
    exact ⟨⟨.ofRanges rs .guard, .zero, Arena.valid_ofRanges rfl rfl rfl (by decide)⟩,
      .build (show Table.build rs .guard = .ok _ from rfl), by decide +kernel⟩
  obtain ⟨⟨answers, b⟩, hrun, hdispatch⟩ := Bus.map_ok hcounters
  have hfree : (Handler.silent "silent" : Handler Unit).Free :=
    Handler.Confined.free (Handler.confined_silent _)
  have hretains : ∀ c r, (Handler.silent "silent" : Handler Unit).Retains c r :=
    Handler.Confined.retains (Handler.confined_silent _)
  have hgenuine : (Handler.silent "silent" : Handler Unit).Genuine :=
    Handler.Confined.genuine (Handler.confined_silent _)
  have hinstalls : ∀ t, install t ∈
      [install windows, resetStats] ++ [readWord 0x02FF, readByte 0x0101] → t.Made := by
    intro t ht
    obtain rfl : t = windows := by simpa using ht
    exact hmade
  obtain ⟨hcounts, -, -, hfair⟩ := counters_account_for_events hfree (.ofBanks .empty) () hrun
  obtain ⟨-, start, -, log, -, -, -, -, -, -, hdeclined, hfailed, hcovered⟩ :=
    hcounts _ _ rfl (.inr rfl) (by simp)
  have htold (c : Bus Unit) (r : Range) (_ : Tells (.silent "silent") 1 [readWord 0x02FF, readByte 0x0101]
      start c r) : (Handler.silent "silent").Retains c r := hretains c r
  have hlookups := hcovered htold
  rw [hdispatch] at hdeclined hfailed hlookups
  exact ⟨_, _, _, _, answers, start, b, log, hfree, htold, hgenuine, .ofBanks .empty,
    MemoryMap.genuine_ofBanks .empty, hinstalls, hrun, rfl, hdispatch, hdeclined.symm, hfailed.symm, hlookups,
    (hfair hgenuine (MemoryMap.genuine_ofBanks .empty) hinstalls).1⟩

/-- The handler declines, and leaves an empty map. The lookup that found its range is counted nowhere any
more. -/
theorem lookups_forgotten : ¬ ∀ (h : Handler Unit) (m : MemoryMap) (ops : List Operation)
    (answers : List Reply) (b : Bus Unit), h.Free → h.Genuine → m.Reachable → m.Genuine →
      (∀ t, .install t ∈ ops → t.Made) → run (Bus.port h 0) (Bus.attach h m ()) ops = .ok (answers, b) →
      b.dispatch.deviceAccesses + b.dispatch.notifications + (b.dispatch.failed - b.dispatch.rejected) ≤
        b.map.tableStats.lookups := by
  intro hall
  obtain ⟨asking, hmade, hrun⟩ : ∃ asking : Table, asking.Made ∧
      (run (Bus.port .forgetting 0) (Bus.attach .forgetting .empty ()) [.install asking, .readByte 0x0200]).map
        (fun result => (result.2.dispatch, result.2.map.tableStats.lookups)) = .ok (⟨0, 1, 1, 1⟩, 0) :=
    ⟨⟨.ofRanges [.ofAccess 0xFF00 0x0200 .notify] .guard, .zero, Arena.valid_ofRanges rfl rfl rfl (by decide)⟩,
      .build (show Table.build [.ofAccess 0xFF00 0x0200 .notify] .guard = .ok _ from rfl), rfl⟩
  obtain ⟨⟨answers, b⟩, hrun, hcounts⟩ := Bus.map_ok hrun
  obtain ⟨hdispatch, hlookups⟩ := Prod.mk.inj hcounts
  have hinstalls (t : Table) (ht : install t ∈ [install asking, readByte 0x0200]) : t.Made := by
    obtain rfl : t = asking := by simpa using ht
    exact hmade
  have hcovered := hall .forgetting .empty _ answers b Handler.free_forgetting Handler.genuine_forgetting
    (.ofBanks .empty) (MemoryMap.genuine_ofBanks .empty) hinstalls hrun
  rw [hdispatch, hlookups] at hcovered
  exact absurd hcovered (by decide)

end Operation
end MemoryBus
