import MemoryBus.Proofs.Retries
import MemoryBus.Proofs.Wide

/-! What the counters of a map count: the lookups that were made in it since they were last reset, and what
the tables had counted that were put in force since. -/
namespace MemoryBus

variable {σ : Type}

/-- What the counters depend on. -/
inductive Charge
  | looked (found : Lookup)
  /-- A table was put in force that had these counters. -/
  | installed (stats : TableStats)
  | reset

/-- What has been counted, the latest first. -/
abbrev Ledger := List Charge

/-- One lookup, what it compared and what it moved. -/
def Lookup.stats (found : Lookup) : TableStats := ⟨1, found.depth, if found.promoted then 1 else 0⟩

namespace Ledger

/-- The charges since the counters were last reset. -/
def since : Ledger → Ledger
  | [] => []
  | .reset :: _ => []
  | charge :: past => charge :: since past

/-- The counts of the lookups. -/
def made : Ledger → TableStats
  | [] => .zero
  | .looked found :: past => (made past).add found.stats
  | .installed _ :: past => made past
  | .reset :: _ => .zero

/-- The counts that tables brought with them. -/
def brought : Ledger → TableStats
  | [] => .zero
  | .looked _ :: past => brought past
  | .installed stats :: past => (brought past).add stats
  | .reset :: _ => .zero

end Ledger

/-- What leads from one map to the other has this ledger. Whatever leaves the table and the counters alone is
not in it. -/
inductive MemoryMap.Booked (m : MemoryMap) : Ledger → MemoryMap → Prop
  | refl : Booked m [] m
  | find {past : Ledger} {m' : MemoryMap} (a : UInt32) : Booked m past m' →
    Booked m (.looked (m'.find a).1 :: past) (m'.find a).2
  | install {past : Ledger} {m' m'' : MemoryMap} {t : Table} : Booked m past m' →
    m'.install t = .ok m'' → Booked m (.installed t.stats :: past) m''
  | reset {past : Ledger} {m' : MemoryMap} : Booked m past m' → Booked m (.reset :: past) m'.resetStats
  | still {past : Ledger} {m' m'' : MemoryMap} : Booked m past m' →
    m''.table = m'.table → m''.retired = m'.retired → Booked m past m''

/-- `charges` is the ledger of what the handler does to the map. Every handler that changes the map by
operations has one, by `Handler.Confined.exists_books`. -/
def Handler.Books (h : Handler σ) (charges : σ → Range → MemoryMap → Ledger) : Prop :=
  ∀ (s : σ) (r : Range) (m : MemoryMap), m.Booked (charges s r m) (h.notify s r m).map

section

variable (h : Handler σ) (charges : σ → Range → MemoryMap → Ledger)

/-- The ledger after a resolution. -/
def Bus.chargeResolve (d : Direction) (a : UInt32) (limit : Nat) (b : Bus σ) (past : Ledger) : Ledger :=
  let (found, b) := b.find a
  if found.range.Asks d then
    match b.notify h found.range, limit with
    | (true, b'), limit + 1 =>
      chargeResolve d a limit b' (charges b.state found.range b.map ++ .looked found :: past)
    | _, _ => charges b.state found.range b.map ++ .looked found :: past
  else .looked found :: past

variable (limit : Nat)

/-- The ledger after a part. The slots look nothing up. -/
def Bus.chargeServe (q : Request) (b : Bus σ) (past : Ledger) : Ledger :=
  match (b.map.slots.get q.direction q.width).translate q.address with
  | some _ => past
  | none => b.chargeResolve h charges q.direction q.address limit past

/-- The ledger after parts. -/
def Bus.chargeAll : List Request → Bus σ → Ledger → Ledger
  | [], _, past => past
  | q :: qs, b, past =>
    match b.serve h limit q with
    | .ok (_, b') => chargeAll qs b' (b.chargeServe h charges limit q past)
    | .error _ => b.chargeServe h charges limit q past

/-- The ledger after a table is put in force, if it fits. -/
def MemoryMap.chargeInstall (m : MemoryMap) (t : Table) (past : Ledger) : Ledger :=
  match m.install t with
  | .ok _ => .installed t.stats :: past
  | .error _ => past

namespace Operation

/-- The ledger after an operation. -/
def charge (op : Operation) (b : Bus σ) (past : Ledger) : Ledger :=
  match op with
  | find a => .looked (b.find a).1 :: past
  | install t => b.map.chargeInstall t past
  | reinstall => b.map.chargeInstall b.map.table past
  | resetStats => .reset :: past
  | _ => Bus.chargeAll h charges limit op.parts b past

/-- The ledger after a run. -/
def chargeRun : List Operation → Bus σ → Ledger → Ledger
  | [], _, past => past
  | op :: ops, b, past =>
    match op.perform (Bus.port h limit) b with
    | .ok (_, b') => chargeRun ops b' (op.charge h charges limit b past)
    | .error _ => op.charge h charges limit b past

end Operation

end

/-! The counts of a ledger. -/

namespace TableStats

variable {s t : TableStats}

theorem add_right_comm (s t u : TableStats) : (s.add t).add u = (s.add u).add t := by
  simp [add, Nat.add_right_comm]

theorem add_assoc (s t u : TableStats) : (s.add t).add u = s.add (t.add u) := by
  simp [add, Nat.add_assoc]

theorem add_eq_left : s.add t = s ↔ t = .zero := by
  cases s
  cases t
  simp [add, zero]

theorem add_eq_zero : s.add t = .zero ↔ s = .zero ∧ t = .zero := by
  cases s
  cases t
  simp only [add, zero, mk.injEq]
  omega

end TableStats

theorem Ledger.brought_eq_zero (past : Ledger) :
    past.brought = .zero ↔ ∀ stats, .installed stats ∈ past.since → stats = .zero := by
  fun_induction since past with
  | case1 => simp [brought]
  | case2 past => simp [brought]
  | case3 charge past hcharge ih =>
    cases charge with
    | looked found => simpa [brought] using ih
    | installed stats => simp [brought, TableStats.add_eq_zero, ih, and_comm]
    | reset => exact (hcharge rfl).elim

namespace MemoryMap

variable {m m' m'' : MemoryMap} {past later : Ledger}

theorem Booked.append (hm : m.Booked past m') (hm' : m'.Booked later m'') :
    m.Booked (later ++ past) m'' := by
  induction hm' with
  | refl => exact hm
  | find a _ ih => exact ih.find a
  | install _ hi ih => exact ih.install hi
  | reset _ ih => exact ih.reset
  | still _ ht hr ih => exact ih.still ht hr

theorem tableStats_find (m : MemoryMap) (a : UInt32) :
    (m.find a).2.tableStats = m.tableStats.add (m.find a).1.stats := by
  change m.retired.add (m.table.find a).2.stats = _
  rw [Table.stats_find, tableStats, TableStats.add_assoc]
  rfl

theorem tableStats_install {t : Table} (hi : m.install t = .ok m') :
    m'.tableStats = m.tableStats.add t.stats := by
  obtain ⟨-, rfl⟩ := install_ok hi
  rfl

/-- The counters say what the ledger says. -/
theorem Booked.tableStats (hm : m.Booked past m') (hstart : m.tableStats = .zero) :
    m'.tableStats = past.made.add past.brought := by
  induction hm with
  | refl => exact hstart
  | find a _ ih => rw [tableStats_find, ih, TableStats.add_right_comm]; rfl
  | install _ hi ih => rw [tableStats_install hi, ih, TableStats.add_assoc]; rfl
  | reset _ _ => rfl
  | still _ ht hr ih => rw [MemoryMap.tableStats, ht, hr]; exact ih

end MemoryMap

theorem Changes.exists_booked {P : Table → Prop} {m m' : MemoryMap} (hc : Changes P m m') :
    ∃ past, m.Booked past m' := by
  induction hc with
  | refl => exact ⟨[], .refl⟩
  | tail _ hstep ih =>
    obtain ⟨past, hpast⟩ := ih
    cases hstep with
    | find a => exact ⟨_, hpast.find a⟩
    | install _ hi => exact ⟨_, hpast.install hi⟩
    | addBank name bytes => exact ⟨past, hpast.still rfl rfl⟩
    | overwriteBank i offset bytes => exact ⟨past, hpast.still rfl rfl⟩
    | restore hr =>
      obtain ⟨banks, -, rfl⟩ := MemoryMap.restore_ok hr
      exact ⟨past, hpast.still rfl rfl⟩
    | loadImage i path file =>
      obtain ⟨banks, journal, -, heq⟩ := MemoryMap.loadImage_snd _ i path file
      exact ⟨past, hpast.still (heq ▸ rfl) (heq ▸ rfl)⟩
    | note e => exact ⟨past, hpast.still rfl rfl⟩

theorem Handler.Confined.exists_books {P : Table → Prop} {h : Handler σ} (hh : h.Confined P) :
    ∃ charges, h.Books charges := by
  classical
  exact ⟨fun s r m => (hh s r m).exists_booked.choose, fun s r m => (hh s r m).exists_booked.choose_spec⟩

theorem Handler.books_installing (t : Table) :
    (installing t).Books fun _ _ m => m.chargeInstall t [] := by
  intro s r m
  simp only [installing, MemoryMap.chargeInstall]
  cases hi : m.install t with
  | ok m' => exact .install .refl hi
  | error e => exact .refl

variable {h : Handler σ} {charges : σ → Range → MemoryMap → Ledger} {limit : Nat} {b b' : Bus σ}
  {start : MemoryMap} {past : Ledger}

namespace Bus

variable {d : Direction} {a : UInt32} {s : Service} {q : Request} {v : UInt32}

theorem booked_notify (hh : h.Books charges) (hb : start.Booked past b.map) {r : Range} {accepted : Bool}
    (hn : b.notify h r = (accepted, b')) :
    start.Booked (charges b.state r b.map ++ past) b'.map := by
  rw [notify_map hn]
  exact (hb.append (hh b.state r b.map)).still rfl rfl

theorem chargeResolve_of_not_asks (hasks : ¬ (b.map.find a).1.range.Asks d) :
    b.chargeResolve h charges d a limit past = .looked (b.map.find a).1 :: past := by
  unfold chargeResolve
  simp [find_eq, hasks]

/-- A resolution is charged for every lookup that it makes, and for what the handler does on the way. -/
theorem booked_resolve (hh : h.Books charges) (hb : start.Booked past b.map)
    (hr : b.resolve h d a limit = .ok (s, b')) :
    start.Booked (b.chargeResolve h charges d a limit past) b'.map := by
  fun_induction resolve h d a limit b generalizing past with
  | case1 limit b found b₁ hfind k hk =>
    obtain ⟨rfl, rfl⟩ := Prod.mk.inj ((find_eq b a).symm.trans hfind)
    obtain ⟨-, rfl⟩ := Prod.mk.inj (Except.ok.inj hr)
    rw [chargeResolve_of_not_asks fun hasks => by simp [hasks.unserved] at hk]
    exact hb.find a
  | case2 limit b found b₁ hfind hk hdev =>
    obtain ⟨rfl, rfl⟩ := Prod.mk.inj ((find_eq b a).symm.trans hfind)
    obtain ⟨-, rfl⟩ := Prod.mk.inj (Except.ok.inj hr)
    rw [chargeResolve_of_not_asks fun hasks => by simp [hasks.no_device] at hdev]
    exact hb.find a
  | case3 => cases hr
  | case4 b found b₁ hfind hk hdev hnot b₂ limit hn ih =>
    obtain ⟨rfl, rfl⟩ := Prod.mk.inj ((find_eq b a).symm.trans hfind)
    have hasks : (b.map.find a).1.range.Asks d := ⟨hk, by simpa using hdev, hnot⟩
    -- The lookup is charged first, then the handler, then the resolution that starts again.
    have hb₂ := booked_notify hh (hb.find a) hn
    unfold chargeResolve
    simpa [hfind, hasks, hn] using ih hb₂ hr
  | case5 limit b found b₁ hfind hk hdev hnot b₂ hn =>
    obtain ⟨rfl, rfl⟩ := Prod.mk.inj ((find_eq b a).symm.trans hfind)
    obtain ⟨-, rfl⟩ := Prod.mk.inj (Except.ok.inj hr)
    have hasks : (b.map.find a).1.range.Asks d := ⟨hk, by simpa using hdev, hnot⟩
    have hb₂ := booked_notify hh (hb.find a) hn
    have hdeclined : start.Booked _ ((b₂.countRejected.note
        (.declined (b.map.find a).1.range.tag d a)).countFailed).map := hb₂.still rfl rfl
    unfold chargeResolve
    simpa [hfind, hasks, hn] using hdeclined
  | case6 limit b found b₁ hfind hk hdev hnot =>
    obtain ⟨rfl, rfl⟩ := Prod.mk.inj ((find_eq b a).symm.trans hfind)
    obtain ⟨-, rfl⟩ := Prod.mk.inj (Except.ok.inj hr)
    rw [chargeResolve_of_not_asks fun hasks => hnot hasks.notifies]
    exact (hb.find a).still rfl rfl

theorem booked_transfer (hb : start.Booked past b.map) {bank offset : Nat}
    (ht : b.transfer q bank offset = .ok (v, b')) : start.Booked past b'.map := by
  obtain ⟨banks, -, rfl⟩ := transfer_banks ht
  exact hb.still rfl rfl

theorem booked_serve (hh : h.Books charges) (hb : start.Booked past b.map)
    (hs : b.serve h limit q = .ok (v, b')) :
    start.Booked (b.chargeServe h charges limit q past) b'.map := by
  unfold chargeServe
  rcases serve_cases hs with ⟨bank, offset, hslot, ht⟩ | ⟨hslot, hmiss⟩
  · simp only [hslot]
    exact booked_transfer hb ht
  · simp only [hslot]
    rcases hmiss with ⟨r, k, b₁, hr, ht⟩ | ⟨r, b₁, hr, hcall⟩ | ⟨hr, -⟩
    · have hb₁ := booked_resolve hh hb hr
      exact booked_transfer (b := b₁.remember q.direction q.width r k) (hb₁.still rfl rfl) ht
    · have hb₁ := booked_resolve hh hb hr
      obtain rfl : (b₁.callDevice h r q).2 = b' := congrArg Prod.snd hcall
      exact callDevice_map (I := start.Booked _) (fun _ hm => hm.still rfl rfl) hb₁ r q
    · exact booked_resolve hh hb hr

theorem booked_serveAll (hh : h.Books charges) (hb : start.Booked past b.map) {qs : List Request}
    (hs : b.serveAll h limit qs = .ok b') :
    start.Booked (chargeAll h charges limit qs b past) b'.map := by
  induction qs generalizing b past with
  | nil => exact Except.ok.inj hs ▸ hb
  | cons q qs ih =>
    simp only [serveAll, bind, Except.bind] at hs
    split at hs
    · cases hs
    · rename_i result hserve
      simp only [chargeAll, hserve]
      exact ih (booked_serve hh hb hserve) hs

end Bus

namespace Operation

variable {op : Operation} {ops : List Operation} {answer : Reply} {answers : List Reply}

theorem booked_settle (hb : start.Booked past b.map) (t : Table) :
    start.Booked (b.map.chargeInstall t past)
      (settle b ((b.map.install t).mapError .table)).2.map := by
  unfold MemoryMap.chargeInstall
  cases hi : b.map.install t with
  | ok m => exact hb.install hi
  | error e => exact hb

theorem booked_perform (hfree : h.Free) (hh : h.Books charges) (hreach : b.map.Reachable)
    (hb : start.Booked past b.map) (hop : op.perform (Bus.port h limit) b = .ok (answer, b')) :
    start.Booked (op.charge h charges limit b past) b'.map := by
  have hparts (hne : op.parts ≠ []) :
      start.Booked (Bus.chargeAll h charges limit op.parts b past) b'.map := by
    have hall : (op.perform (Bus.port h limit) b).map (·.2) = _ :=
      perform_parts (carries_reachable hfree) MemoryMap.Reachable.aligned hreach hne
    rw [hop] at hall
    exact Bus.booked_serveAll hh hb hall.symm
  have hsettled {x : Except MemoryError MemoryMap} (hx : ∀ m, x = .ok m →
      m.table = b.map.table ∧ m.retired = b.map.retired) : start.Booked past (settle b x).2.map :=
    settle_map hb fun m hm => hb.still (hx m hm).1 (hx m hm).2
  cases op with
  | find a =>
    obtain ⟨rfl, rfl⟩ := Prod.mk.inj (Except.ok.inj hop)
    exact hb.find a
  | install t =>
    obtain ⟨rfl, rfl⟩ := Prod.mk.inj (Except.ok.inj hop)
    exact booked_settle hb t
  | reinstall =>
    obtain ⟨rfl, rfl⟩ := Prod.mk.inj (Except.ok.inj hop)
    exact booked_settle hb b.map.table
  | addBank name bytes =>
    obtain ⟨rfl, rfl⟩ := Prod.mk.inj (Except.ok.inj hop)
    exact hb.still rfl rfl
  | overwriteBank i offset bytes =>
    obtain ⟨rfl, rfl⟩ := Prod.mk.inj (Except.ok.inj hop)
    exact hb.still rfl rfl
  | restore s =>
    obtain ⟨rfl, rfl⟩ := Prod.mk.inj (Except.ok.inj hop)
    refine hsettled fun m hm => ?_
    obtain ⟨banks, -, rfl⟩ := MemoryMap.restore_ok (mapError_ok hm)
    exact ⟨rfl, rfl⟩
  | loadImage i path file =>
    obtain ⟨rfl, rfl⟩ := Prod.mk.inj (Except.ok.inj hop)
    obtain ⟨banks, journal, -, heq⟩ := b.map.loadImage_snd i path file
    exact hb.still (heq ▸ rfl) (heq ▸ rfl)
  | resetStats =>
    obtain ⟨rfl, rfl⟩ := Prod.mk.inj (Except.ok.inj hop)
    exact hb.reset
  | _ => exact hparts (by simp [parts])

theorem booked_run (hfree : h.Free) (hh : h.Books charges) (hreach : b.map.Reachable)
    (hb : start.Booked past b.map) (hrun : run (Bus.port h limit) b ops = .ok (answers, b')) :
    start.Booked (chargeRun h charges limit ops b past) b'.map := by
  induction ops generalizing b past answers with
  | nil =>
    obtain ⟨-, rfl⟩ := Prod.mk.inj (Except.ok.inj hrun)
    exact hb
  | cons op ops ih =>
    obtain ⟨answer, b₁, rest, hop, hrest, -⟩ := run_cons hrun
    simp only [chargeRun, hop]
    exact ih (reachable_perform hfree hreach hop) (booked_perform hfree hh hreach hb hop) hrest

/-- After any run the counters are the counts of the lookups since the last reset and the counts that the
tables had that were put in force since. They are those of the lookups alone just if no such table had counted
anything: a table adds its own counts to the counters when it is put in force. -/
theorem counters_count_lookups_and_brought (hfree : h.Free) (hh : h.Books charges) (banks : Banks) (s : σ)
    (hrun : run (Bus.port h limit) (Bus.attach h (.ofBanks banks) s) ops = .ok (answers, b)) :
    let past := chargeRun h charges limit ops (Bus.attach h (.ofBanks banks) s) []
    b.map.tableStats = past.made.add past.brought ∧
      (b.map.tableStats = past.made ↔ ∀ stats, .installed stats ∈ past.since → stats = .zero) ∧
      ∀ t m, b.map.install t = .ok m →
        m.tableStats = b.map.tableStats.add t.stats ∧
          (m.tableStats = b.map.tableStats ↔ t.stats = .zero) := by
  intro past
  have hreach := (MemoryMap.Reachable.ofBanks banks).change (.note _ (.attached h.name))
  have hbooked : MemoryMap.Booked _ past b.map := booked_run hfree hh hreach .refl hrun
  have hstats := hbooked.tableStats rfl
  refine ⟨hstats, ?_, fun t m hi => ?_⟩
  · rw [hstats, TableStats.add_eq_left, Ledger.brought_eq_zero]
  · rw [MemoryMap.tableStats_install hi]
    exact ⟨rfl, TableStats.add_eq_left⟩

/-- Three lookups, one of them made again because the handler installed a table. The table that is put in
force at the end is the one that was, and the two lookups in it count twice. -/
theorem counters_count_lookups_and_brought_window : ∃ (h : Handler Unit)
    (charges : Unit → Range → MemoryMap → Ledger) (banks : Banks) (ops : List Operation)
    (answers : List Reply) (b : Bus Unit), h.Free ∧ h.Books charges ∧
      run (Bus.port h 1) (Bus.attach h (.ofBanks banks) ()) ops = .ok (answers, b) ∧
      (chargeRun h charges 1 ops (Bus.attach h (.ofBanks banks) ()) []).made = ⟨3, 1, 0⟩ ∧
      (chargeRun h charges 1 ops (Bus.attach h (.ofBanks banks) ()) []).brought = ⟨2, 1, 0⟩ ∧
      b.map.tableStats = ⟨5, 2, 0⟩ ∧
      b.map.tableStats ≠ (chargeRun h charges 1 ops (Bus.attach h (.ofBanks banks) ()) []).made := by
  obtain ⟨h, charges, banks, ops, answers, b, hfree, hh, hrun, hmade, hbrought⟩ : ∃ (h : Handler Unit)
      (charges : Unit → Range → MemoryMap → Ledger) (banks : Banks) (ops : List Operation)
      (answers : List Reply) (b : Bus Unit), h.Free ∧ h.Books charges ∧
        run (Bus.port h 1) (Bus.attach h (.ofBanks banks) ()) ops = .ok (answers, b) ∧
        (chargeRun h charges 1 ops (Bus.attach h (.ofBanks banks) ()) []).made = ⟨3, 1, 0⟩ ∧
        (chargeRun h charges 1 ops (Bus.attach h (.ofBanks banks) ()) []).brought = ⟨2, 1, 0⟩ := by
    refine ⟨.installing ⟨.ofRanges [⟨0xFF00, 0x0100, .read, some ⟨0, 0, 1⟩, 0⟩] .guard, .zero,
        Arena.valid_ofRanges rfl rfl rfl (by decide)⟩, _, ⟨#[⟨"ram", ⟨#[7, 9]⟩⟩]⟩,
      [.install ⟨.ofRanges [.ofAccess 0 0 .notify] .guard, .zero,
        Arena.valid_ofRanges rfl rfl rfl (by decide)⟩, .readByte 0x0101, .find 0, .reinstall], _, _,
      (Handler.confined_installing trivial).free, Handler.books_installing _, rfl, rfl, rfl⟩
  obtain ⟨hstats, hsame, -⟩ := counters_count_lookups_and_brought hfree hh banks () hrun
  rw [hmade, hbrought] at hstats
  refine ⟨h, charges, banks, ops, answers, b, hfree, hh, hrun, hmade, hbrought, hstats, ?_⟩
  rw [hstats, hmade]
  decide

/-- The counters are not those of the lookups when the installed table is put in force again: one lookup, and
two are counted. -/
theorem lookups_repeated_by_reinstall : ¬ ∀ (banks : Banks) (ops : List Operation) (answers : List Reply)
    (b : Bus Unit), (∀ t, .install t ∈ ops → t.stats = .zero) →
      run (Bus.port (.silent "silent") 0) (Bus.attach (.silent "silent") (.ofBanks banks) ()) ops =
        .ok (answers, b) →
      b.map.tableStats = (chargeRun (.silent "silent") (fun _ _ _ => []) 0 ops
        (Bus.attach (.silent "silent") (.ofBanks banks) ()) []).made := by
  intro hall
  have htwice := hall .empty [.find 0, .reinstall] _ _ (by simp) rfl
  exact absurd htwice (by decide)

end Operation
end MemoryBus
