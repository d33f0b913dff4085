import MemoryBus.Proofs.Parts

/-! Where in a run the handler is told of an access. What the handler keeps there, and the accesses keep
anyway, the run keeps. -/
namespace MemoryBus

variable {σ : Type} {h : Handler σ} {limit : Nat} {I : MemoryMap → Prop} {b b' c : Bus σ} {r : Range}

/-- What holds at the start of a resolution holds where the handler is told. -/
theorem Bus.carries_tells (hI : h.Passes I) (hb : I b.map) {d : Direction} {a : UInt32}
    (htells : Bus.Tells h d a limit b c r) : I c.map := by
  induction htells with
  | first _ => exact hI.find a hb
  | again _ hn _ ih => exact ih (Bus.passes_notify hI (hI.find a hb) hn)

namespace Operation

variable {op : Operation} {ops : List Operation} {answer : Reply} {answers : List Reply} {t : Table}

/-- The parts of a run, each with the bus on which it is made. -/
def visits (h : Handler σ) (limit : Nat) : List Operation → Bus σ → List (Request × Bus σ)
  | [], _ => []
  | op :: ops, b =>
    Bus.visits h limit op.parts b ++ match op.perform (Bus.port h limit) b with
      | .ok (_, b') => visits h limit ops b'
      | .error _ => []

/-- What the parts and the operations keep holds of every bus on which a part is made. -/
theorem keeps_visits {J : Bus σ → Prop}
    (hserve : ∀ {b b' : Bus σ} {q v}, J b → q.Aligned → b.serve h limit q = .ok (v, b') → J b')
    (hstep : ∀ {op}, op ∈ ops → ∀ {b b' : Bus σ} {answer}, J b →
      op.perform (Bus.port h limit) b = .ok (answer, b') → J b') (hb : J b) :
    ∀ x ∈ visits h limit ops b, J x.2 := by
  induction ops generalizing b with
  | nil => simp [visits]
  | cons op ops ih =>
    intro x hx
    rcases List.mem_append.mp hx with hx | hx
    · exact Bus.keeps_visits hserve hb op.aligned_parts x hx
    · cases hperform : op.perform (Bus.port h limit) b with
      | error e => simp [hperform] at hx
      | ok result =>
        rw [hperform] at hx
        exact ih (fun hop => hstep (List.mem_cons_of_mem _ hop)) (hstep (by simp) hb hperform) x hx

/-- The handler is told of range `r` on the bus `c` in the run of `ops`. -/
def Tells (h : Handler σ) (limit : Nat) (ops : List Operation) (b c : Bus σ) (r : Range) : Prop :=
  ∃ x ∈ visits h limit ops b, x.2.Misses x.1 ∧ Bus.Tells h x.1.direction x.1.address limit x.2 c r

theorem tells_first (hc : Bus.TellsAmong h limit op.parts b c r) : Tells h limit (op :: ops) b c r := by
  obtain ⟨x, hx, hmiss, htells⟩ := hc
  exact ⟨x, List.mem_append_left _ hx, hmiss, htells⟩

theorem tells_rest (hop : op.perform (Bus.port h limit) b = .ok (answer, b'))
    (hc : Tells h limit ops b' c r) : Tells h limit (op :: ops) b c r := by
  obtain ⟨x, hx, hmiss, htells⟩ := hc
  refine ⟨x, List.mem_append_right _ ?_, hmiss, htells⟩
  rw [hop]
  exact hx

/-- The tables of a run: those in force between its operations, and those that the handler leaves in force
where it is told of an access. -/
inductive InForce (h : Handler σ) (limit : Nat) (ops : List Operation) (b : Bus σ) : Table → Prop
  | between (n : Nat) (answers : List Reply) (b' : Bus σ) :
    run (Bus.port h limit) b (ops.take n) = .ok (answers, b') → InForce h limit ops b b'.map.table
  | left (c : Bus σ) (r : Range) :
    Tells h limit ops b c r → InForce h limit ops b (h.notify c.state r c.map).map.table

theorem inForce_start (ops : List Operation) (b : Bus σ) : InForce h limit ops b b.map.table :=
  .between 0 [] b rfl

theorem inForce_rest (hop : op.perform (Bus.port h limit) b = .ok (answer, b'))
    (ht : InForce h limit ops b' t) : InForce h limit (op :: ops) b t := by
  cases ht with
  | between n answers b'' hrun =>
    refine .between (n + 1) (answer :: answers) b'' ?_
    simp only [List.take_succ_cons, run, hop, hrun, bind, Except.bind, pure, Except.pure]
  | left c r hc => exact .left c r (tells_rest hop hc)

/-- What the handler and the operations keep holds of every table of a run. -/
theorem inForce_of_carries {P : Table → Prop} (hI : h.Carries I) (haligned : ∀ {m}, I m → m.Aligned)
    (hchange : ∀ {m m'}, I m → Change P m m' → I m') (hstats : ∀ {m}, I m → I m.resetStats)
    (htable : ∀ {m}, I m → P m.table) (hops : ∀ t, .install t ∈ ops → P t) (hb : I b.map)
    (ht : InForce h limit ops b t) : P t := by
  have hstep {op : Operation} (hop : op ∈ ops) {b b' : Bus σ} {answer : Reply} (hb : I b.map)
      (hperform : op.perform (Bus.port h limit) b = .ok (answer, b')) : I b'.map :=
    carries_perform hI haligned hchange hstats htable (fun t ht => hops t (ht ▸ hop)) hb hperform
  cases ht with
  | between n answers b' hrun =>
    exact htable (keeps_run (J := fun b => I b.map)
      (fun op hop _ _ _ hb => hstep (List.mem_of_mem_take hop) hb) hb hrun)
  | left c r hc =>
    obtain ⟨x, hx, -, htells⟩ := hc
    have hvisit : I x.2.map := keeps_visits (J := fun b => I b.map) (Bus.carries_serve hI) hstep hb x hx
    exact htable (hI.notify _ _ (Bus.carries_tells hI.passes hvisit htells))

section

variable {J : Bus σ → Prop} {G : Bus σ → Range → Prop}
  (hserve : ∀ {b b' : Bus σ} {q v}, J b → q.Aligned →
    (b.Misses q → ∀ c r, Bus.Tells h q.direction q.address limit b c r → G c r) →
      b.serve h limit q = .ok (v, b') → J b')
  (hfind : ∀ {b} a, J b → J (b.find a).2) (haligned : ∀ {b}, J b → b.map.Aligned)
include hserve hfind haligned

theorem holds_access (hb : J b) (hop : op.isAccess = true)
    (htold : ∀ c r, Bus.TellsAmong h limit op.parts b c r → G c r)
    (hperform : op.perform (Bus.port h limit) b = .ok (answer, b')) : J b' := by
  obtain ⟨a, rfl⟩ | hparts := parts_ne_nil hop
  · obtain rfl : (b.find a).2 = b' := congrArg Prod.snd (Except.ok.inj hperform)
    exact hfind a hb
  · obtain ⟨hvisits, hend⟩ := Bus.holds_serveEach hserve hb op.aligned_parts htold
    rw [perform_visits (fun x hx => haligned (hvisits x hx)) hparts] at hperform
    obtain ⟨⟨vs, b₁⟩, heach, hpair⟩ := Bus.map_ok hperform
    obtain ⟨-, rfl⟩ := Prod.mk.inj hpair
    exact hend vs b₁ heach

/-- What the parts keep where the handler does its share, and what the other operations keep, the run keeps. -/
theorem holds_run (hb : J b) (hother : ∀ op ∈ ops, op.isAccess = false → ∀ {b b' : Bus σ} {answer}, J b →
      op.perform (Bus.port h limit) b = .ok (answer, b') → J b')
    (htold : ∀ c r, Tells h limit ops b c r → G c r)
    (hrun : run (Bus.port h limit) b ops = .ok (answers, b')) : J b' := by
  induction ops generalizing b answers with
  | nil =>
    obtain ⟨-, rfl⟩ := Prod.mk.inj (Except.ok.inj hrun)
    exact hb
  | cons op ops ih =>
    obtain ⟨answer, b₁, rest, hperform, hrest, -⟩ := run_cons hrun
    have hb₁ : J b₁ := by
      cases haccess : op.isAccess with
      | true =>
        exact holds_access hserve hfind haligned hb haccess (fun c r hc => htold c r (tells_first hc)) hperform
      | false => exact hother op (by simp) haccess hb hperform
    exact ih hb₁ (fun op hop => hother op (by simp [hop]))
      (fun c r hc => htold c r (tells_rest hperform hc)) hrest

end

end Operation
end MemoryBus
