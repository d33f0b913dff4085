import MemoryBus.Proofs.Serving

/-! The demonstration machine completes every access, and its layout and the table in force change together. -/
namespace MemoryBus.Demo

variable {l : Layout} {m m' : MemoryMap}

/-- Over a layout whose table is in force, the machine completes every sequence of accesses, in the same
way for every limit that allows one acceptance. The layout stays the given one with no notification
accepted, or becomes the one with the window mapped, with one. The table in force lists the entries that the
machine's layout describes, in some order, and ends with the guard. A notification that is declined changes
nothing but the journal. -/
theorem accesses_complete_in_step {t : Table} (hbuild : l.buildTable m.banks = .ok t)
    (hi : m.install t = .ok m') {ops : List Operation} (hops : ∀ op ∈ ops, op.isAccess = true) :
    (∃ answers b,
        (∀ limit, Demo.limit ≤ limit →
          Operation.run (Bus.port handler limit) (Bus.attach handler m' (ofLayout l)) ops =
            .ok (answers, b)) ∧
        ((b.state.layout = l ∧ b.map.acceptances = m'.acceptances) ∨
          (mapped? l = some b.state.layout ∧ b.map.acceptances = m'.acceptances + 1)) ∧
        ∃ built rs rs', b.state.layout.buildTable b.map.banks = .ok built ∧
          built.entries = rs ++ [.guard] ∧ b.map.table.listed = rs' ++ [.guard] ∧ rs'.Perm rs) ∧
      ∀ (s : Demo) (r : Range) (m : MemoryMap), (s.notify r m).accepted = false →
        ∃ journal, s.notify r m = ⟨false, s, { m with journal }⟩ := by
  constructor
  · have hready : Bus.Ready left limit (Bus.attach handler m' (ofLayout l)) :=
      ⟨(MemoryMap.Sound.install hi).of_same rfl rfl List.prefix_rfl, left_le _⟩
    have hstart : InStep l m'.acceptances (Bus.attach handler m' (ofLayout l)) := by
      refine ⟨⟨t, ?_⟩, .inl ⟨rfl, MemoryMap.acceptances_note _⟩⟩
      obtain ⟨-, rfl⟩ := MemoryMap.install_ok hi
      exact ⟨hbuild, rfl⟩
    obtain ⟨answers, b, hrun⟩ := Operation.exists_run confined_handler spends_handler hready hops
    have hboth := (upholds_inStep (l := l) (n := m'.acceptances)).and
      (Bus.upholds_ready (n := limit) confined_handler spends_handler)
    obtain ⟨⟨⟨built, hbuilt, hentries⟩, honce⟩, -⟩ :=
      Operation.upholds_run hboth (·.2.1.aligned) ⟨hstart, hready⟩ hops (hrun limit (Nat.le_refl _))
    obtain ⟨rs, hrs⟩ := Layout.entries_of_buildTable hbuilt
    obtain ⟨rs', hlisted, hperm⟩ := Table.listed_of_entries (hentries.trans hrs)
    exact ⟨answers, b, hrun, honce, built, rs, rs', hbuilt, hrs, hlisted, hperm⟩
  · intro s r m hdeclined
    rcases notify_cases s r m with hn | ⟨text, hn⟩ | ⟨layout, t, m', -, -, -, hn⟩
    · exact ⟨m.journal, hn⟩
    · exact ⟨_, hn⟩
    · simp [hn] at hdeclined

/-- The Mac Plus, with an access to its expansion window, which is then mapped. -/
theorem accesses_complete_in_step_macPlus : ∃ (s : Banks) (t : Table) (m : MemoryMap)
    (answers : List Operation.Reply) (b : Bus Demo),
      Layout.macPlus.buildBanks = .ok s ∧ Layout.macPlus.buildTable s = .ok t ∧
      (MemoryMap.ofBanks s).install t = .ok m ∧
      Operation.run (Bus.port handler 1) (Bus.attach handler m (ofLayout .macPlus))
        [.readWord 0x00F00000, .writeLong 0x00000100 7] = .ok (answers, b) ∧
      mapped? .macPlus = some b.state.layout ∧ b.map.acceptances = m.acceptances + 1 := by
  obtain ⟨s, hbanks⟩ : ∃ s, Layout.macPlus.buildBanks = .ok s := ⟨_, rfl⟩
  obtain ⟨m, hremap, hstart⟩ := exists_start (Layout.shape_of_buildBanks hbanks)
  obtain ⟨t, hbuild, hi⟩ := remap_ok hremap
  have hops : ∀ op ∈ [Operation.readWord 0x00F00000, .writeLong 0x00000100 7], op.isAccess = true := by
    decide
  obtain ⟨⟨answers, b, hrun, honce, -⟩, -⟩ := accesses_complete_in_step hbuild hi hops
  have hread : Uses (.readWord 0x00F00000) true :=
    ⟨List.cons_ne_nil _ _, List.forall_mem_singleton.mpr (.expansion rfl rfl)⟩
  have hwrite : Uses (.writeLong 0x00000100 7) false :=
    ⟨List.cons_ne_nil _ _, List.forall_mem_cons.mpr ⟨.ram rfl, List.forall_mem_singleton.mpr (.ram rfl)⟩⟩
  obtain ⟨_, b', hrun', hsteady⟩ := hstart.run (.cons hread (.cons hwrite .nil)) (Nat.le_refl limit)
  obtain ⟨-, rfl⟩ := Prod.mk.inj (Except.ok.inj ((hrun 1 (Nat.le_refl 1)).symm.trans hrun'))
  refine ⟨s, t, m, answers, b, hbanks, hbuild, hi, hrun 1 (Nat.le_refl 1), honce.resolve_left ?_⟩
  -- The layout with its window mapped has none to map.
  rintro ⟨hlayout, -⟩
  have hmapped : mapped? b.state.layout = none := by
    rw [hsteady.layout]
    exact Layout.expanded_expanded mapped?_macPlus _ _
  rw [hlayout] at hmapped
  cases hmapped

end MemoryBus.Demo
