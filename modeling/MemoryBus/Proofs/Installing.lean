import MemoryBus.Proofs.Faults

/-! From a layout to an installed table: which banks it gets, which table is built over them, and whether
the table fits them. -/
namespace MemoryBus.Layout

variable {l : Layout} {s : Banks} {t : Table}

/-- The table has the ranges of the layout, in their order and as they are described, and then a guard that
allows nothing. -/
structure Lists (l : Layout) (s : Banks) (t : Table) : Prop where
  size : t.size = l.ranges.length + 1
  order : t.order = List.range t.size
  entry : ∀ (i : Nat) (r : RangeLayout), l.ranges[i]? = some r → r.Describes s (t.entry i)
  guard : t.entry l.ranges.length = .guard

theorem exists_buildTable_iff : (∃ t, l.buildTable s = .ok t) ↔ ∀ r ∈ l.ranges,
    (∀ name, r.bank = some name → ∃ b, s.name? b = some name) ∧ (r.Backs → r.bank ≠ none) := by
  have hsound : (∃ t, l.buildTable s = .ok t) ↔
      ¬ ∃ (i : Nat) (r : RangeLayout) (e : LayoutError), l.ranges[i]? = some r ∧ RangeFault s r e := by
    have hfirst : (∃ e, FirstFault (fun _ => RangeFault s) l.ranges e) ↔ _ := FirstFault.exists_iff
    rw [← hfirst]
    have herror (e : LayoutError) : l.buildTable s = .error (.layout e) ↔
        FirstFault (fun _ => RangeFault s) l.ranges e := by simp [buildTable_error_iff]
    simp only [← herror]
    cases htable : l.buildTable s with
    | ok t => simp
    | error e =>
      obtain ⟨e', rfl, -⟩ := buildTable_error_iff.mp htable
      simp
  rw [hsound]
  constructor
  · intro hnone r hr
    obtain ⟨i, hi⟩ := List.mem_iff_getElem?.mp hr
    constructor
    · intro name hname
      by_contra hunknown
      exact hnone ⟨i, r, _, hi, .unknown hname (not_exists.mp hunknown)⟩
    · intro hbacks hname
      exact hnone ⟨i, r, _, hi, .missing hname hbacks⟩
  · rintro hall ⟨i, r, e, hi, hfault⟩
    obtain ⟨hknown, hbank⟩ := hall r (List.mem_of_getElem? hi)
    cases hfault with
    | unknown hname hunknown =>
      obtain ⟨b, hb⟩ := hknown _ hname
      exact hunknown b hb
    | missing hname hbacks => exact hbank hbacks hname

theorem lists_of_buildTable (h : l.buildTable s = .ok t) : l.Lists s t := by
  obtain ⟨rs, hranges, hbuild⟩ := buildTable_ok_iff.mp h
  obtain ⟨hlength, hget⟩ := getElem?_of_mapM hranges
  have hentries := Table.entries_of_build hbuild
  have hguard := Table.guardIndex_of_build hbuild
  have hsize : t.size = rs.length + 1 := by
    rw [Table.size, Arena.size_eq]
    exact (congrArg List.length hentries).trans (by simp)
  refine ⟨hlength ▸ hsize, ?_, ?_, ?_⟩
  · rw [hsize, Table.order_eq, Table.recency_of_build hbuild, hguard, List.range_succ]
  · intro i r hr
    obtain ⟨x, hx, hbuilt⟩ := hget i r hr
    have hentry : t.entry i = x := by
      rw [Table.entry_eq, hentries, List.getElem?_append_left (List.getElem?_eq_some_iff.mp hx).1, hx]
      rfl
    rw [hentry]
    exact describes_of_buildRange hbuilt
  · rw [← hlength, Table.entry_eq, hentries]
    simp

/-- The first range that reaches too far keeps the table out, and nothing else does. -/
theorem install_error_iff (h : l.buildTable s = .ok t) {m : MemoryMap} (hgrows : s.shape <+: m.banks.shape)
    {e : TableError} : m.install t = .error e ↔ FirstFault (Overrun s m.banks) l.ranges e := by
  obtain ⟨rs, hranges, hbuild⟩ := buildTable_ok_iff.mp h
  obtain ⟨hlength, hget⟩ := getElem?_of_mapM hranges
  rw [MemoryMap.install_error_iff, Table.check_error_iff, Table.entries_of_build hbuild]
  refine FirstFault.congr fun i e => ?_
  constructor
  · rintro ⟨x, hx, hmisfit⟩
    by_cases hi : i < l.ranges.length
    · obtain ⟨x', hx', hbuilt⟩ := hget i _ (List.getElem?_eq_getElem hi)
      rw [List.getElem?_append_left (hlength ▸ hi)] at hx
      obtain rfl := Option.some.inj (hx.symm.trans hx')
      exact ⟨_, List.getElem?_eq_getElem hi, (misfit_iff hbuilt hgrows).mp hmisfit⟩
    · -- What is behind the ranges is the guard, and nothing is wrong with it.
      have hguard : x = .guard := by
        have hmem := List.mem_of_getElem? (l := [Range.guard]) (i := i - rs.length) (a := x) (by
          rwa [← List.getElem?_append_right (by omega)])
        simpa using hmem
      subst hguard
      cases hmisfit
  · rintro ⟨r, hr, hover⟩
    obtain ⟨x, hx, hbuilt⟩ := hget i r hr
    refine ⟨x, ?_, (misfit_iff hbuilt hgrows).mpr hover⟩
    rwa [List.getElem?_append_left (List.getElem?_eq_some_iff.mp hx).1]

theorem exists_install_iff (h : l.buildTable s = .ok t) {m : MemoryMap}
    (hgrows : s.shape <+: m.banks.shape) : (∃ m', m.install t = .ok m') ↔
      ∀ r ∈ l.ranges, r.Backs → ∀ name b size, r.bank = some name → s.First name b →
        m.banks.size? b = some size → r.lastOffset < size := by
  have hsound : (∃ m', m.install t = .ok m') ↔ ¬ ∃ (i : Nat) (r : RangeLayout) (e : TableError),
      l.ranges[i]? = some r ∧ Overrun s m.banks i r e := by
    rw [← FirstFault.exists_iff]
    simp only [← install_error_iff h hgrows]
    cases m.install t <;> simp
  rw [hsound]
  constructor
  · intro hnone r hr hbacks name b size hname hb hsize
    obtain ⟨i, hi⟩ := List.mem_iff_getElem?.mp hr
    by_contra hover
    exact hnone ⟨i, r, _, hi, .intro hbacks hname hb hsize (Nat.le_of_not_lt hover)⟩
  · rintro hall ⟨i, r, e, hi, hover⟩
    cases hover with
    | intro hbacks hname hb hsize hle =>
      have hfits := hall r (List.mem_of_getElem? hi) hbacks _ _ _ hname hb hsize
      omega

/-- What a layout is made into. Its banks are allocated unless two have one name or one has no bytes, and
the first fault is reported. Over any banks its table is built unless a range names a bank that is not
there, or should be backed and names none; again the first fault is reported, and it is never one of the
table. The table lists the ranges as they are described. Where more banks may have been added, it can be
installed unless a backed range reaches past the end of its bank, and the first such range is reported. -/
theorem stages_report_first_fault (l : Layout) :
    ((∃ s, l.buildBanks = .ok s) ↔ (l.banks.map (·.name)).Nodup ∧ ∀ k ∈ l.banks, k.size ≠ 0) ∧
    (∀ e, l.buildBanks = .error e ↔ FirstFault l.BankFault l.banks e) ∧
    (∀ s, l.buildBanks = .ok s → s.count = l.banks.length ∧
      ∀ i k, l.banks[i]? = some k → s.name? i = some k.name ∧ s.size? i = some k.size ∧
        (∀ offset, offset < k.size → s.byte? i offset = some 0) ∧ s.find? k.name = some i) ∧
    ∀ s : Banks,
      ((∃ t, l.buildTable s = .ok t) ↔ ∀ r ∈ l.ranges,
        (∀ name, r.bank = some name → ∃ b, s.name? b = some name) ∧ (r.Backs → r.bank ≠ none)) ∧
      (∀ e, l.buildTable s = .error e ↔
        ∃ e', e = .layout e' ∧ FirstFault (fun _ => RangeFault s) l.ranges e') ∧
      ∀ t, l.buildTable s = .ok t → l.Lists s t ∧ t.listed = t.entries ∧
        (∀ i r k, l.ranges[i]? = some r → ((t.entry i).access.has k.access = true ↔ k ∈ r.access)) ∧
        ∀ m : MemoryMap, s.shape <+: m.banks.shape →
          (∀ e, m.install t = .error e ↔ FirstFault (Overrun s m.banks) l.ranges e) ∧
          ((∃ m', m.install t = .ok m') ↔ ∀ r ∈ l.ranges, r.Backs → ∀ name b size, r.bank = some name →
            s.First name b → m.banks.size? b = some size → r.lastOffset < size) := by
  refine ⟨exists_buildBanks_iff, fun e => buildBanks_error_iff, fun s h => banks_of_buildBanks h, fun s =>
    ⟨exists_buildTable_iff, fun e => buildTable_error_iff, fun t h => ?_⟩⟩
  have hlists := lists_of_buildTable h
  refine ⟨hlists, ?_, ?_, fun m hgrows => ⟨fun e => install_error_iff h hgrows, ?_⟩⟩
  · apply List.ext_getElem
    · rw [Table.listed, hlists.order, List.length_map, List.length_range, Table.size, Arena.size_eq]
      rfl
    · intro i hi hi'
      have hentry : t.entry i = t.entries[i] := by
        rw [Table.entry_eq, List.getElem?_eq_getElem hi', Option.getD_some]
      simpa [Table.listed, hlists.order] using hentry
  · intro i r k hr
    rw [(hlists.entry i r hr).access]
    exact r.has_capabilities k
  · exact exists_install_iff h hgrows

/-- The first range reaches just past the end of its bank. The second names a bank that it does not fit
either, but is not served from it. -/
theorem stages_report_first_fault_overrun : ∃ (ram port : RangeLayout) (s : Banks) (t : Table),
    ram.access = [.read, .write, .read] ∧ ram.lastOffset = 4 ∧ port.bank = some "rom" ∧ port.lastOffset = 101 ∧
    Layout.buildBanks ⟨[⟨"ram", 4⟩, ⟨"rom", 2⟩], [ram, port]⟩ = .ok s ∧
    Layout.buildTable ⟨[⟨"ram", 4⟩, ⟨"rom", 2⟩], [ram, port]⟩ s = .ok t ∧ t.order = [0, 1, 2] ∧
    ∀ m : MemoryMap, m.banks = s.add "video" (zeros 8) →
      m.install t = .error (.backingOutOfBounds 0 0 4 4) := by
  let ram : RangeLayout := ⟨"ram", 0xF0, 0, [.read, .write, .read], some "ram", 1, 2, 0⟩
  let port : RangeLayout := ⟨"port", 0xF0, 0x10, [.device], some "rom", 100, 0, 7⟩
  let s : Banks := (Banks.empty.add "ram" (zeros 4)).add "rom" (zeros 2)
  obtain ⟨-, -, hbanks, htables⟩ := stages_report_first_fault ⟨[⟨"ram", 4⟩, ⟨"rom", 2⟩], [ram, port]⟩
  obtain ⟨hcount, hget⟩ := hbanks s rfl
  have hram : s.name? 0 = some "ram" := (hget 0 _ rfl).1
  have hrom : s.name? 1 = some "rom" := (hget 1 _ rfl).1
  obtain ⟨hbuilds, -, hinstalls⟩ := htables s
  obtain ⟨t, ht⟩ := hbuilds.mpr (by
    simp [ram, port, RangeLayout.Backs]
    exact ⟨⟨0, hram⟩, ⟨1, hrom⟩⟩)
  obtain ⟨hlists, -, -, hinstall⟩ := hinstalls t ht
  refine ⟨ram, port, s, t, rfl, by decide, rfl, by decide, rfl, ht, ?_, ?_⟩
  · rw [hlists.order, hlists.size]
    rfl
  · intro m hm
    obtain ⟨hfault, -⟩ := hinstall m (by rw [hm, Banks.shape_add]; exact List.prefix_append _ _)
    have hsize : m.banks.size? 0 = some 4 := by rw [hm]; rfl
    have hbacks : ram.Backs := .inl (List.mem_cons_self ..)
    have hlast : ram.lastOffset = 4 := by decide
    have hover : Overrun s m.banks 0 ram (.backingOutOfBounds 0 0 ram.lastOffset 4) :=
      .intro hbacks rfl ⟨hram, by simp⟩ hsize hlast.ge
    rw [hlast] at hover
    exact (hfault _).mpr ⟨0, ram, rfl, hover, by simp⟩

end MemoryBus.Layout
