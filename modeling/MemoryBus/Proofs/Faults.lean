import Mathlib.Data.List.Nodup
import Mathlib.Data.Nat.Bitwise
import Mathlib.Data.Nat.Find
import MemoryBus.Proofs.Layouts

/-! Which fault is reported when a layout or a table has several: that of the first element that has one. -/
namespace MemoryBus

variable {α β ε : Type}

/-- `e` is the fault of the first element that has one. What is wrong with an element may depend on its
place. -/
def FirstFault (fault : Nat → α → ε → Prop) (xs : List α) (e : ε) : Prop :=
  ∃ i x, xs[i]? = some x ∧ fault i x e ∧ ∀ j, j < i → ∀ y e', xs[j]? = some y → ¬ fault j y e'

namespace FirstFault

variable {fault : Nat → α → ε → Prop} {fault' : Nat → β → ε → Prop} {x : α} {xs : List α} {ys : List β}
  {e : ε}

theorem not_nil : ¬ FirstFault fault [] e := by
  rintro ⟨i, x, hx, -⟩
  simp at hx

theorem cons_iff : FirstFault fault (x :: xs) e ↔
    fault 0 x e ∨ (∀ e', ¬ fault 0 x e') ∧ FirstFault (fun i => fault (i + 1)) xs e := by
  constructor
  · rintro ⟨i, y, hy, hf, hbefore⟩
    cases i with
    | zero =>
      obtain rfl := Option.some.inj hy
      exact .inl hf
    | succ i =>
      refine .inr ⟨fun e' hf' => hbefore 0 (Nat.succ_pos i) x e' rfl hf', i, y, hy, hf, ?_⟩
      intro j hj z e' hz
      exact hbefore (j + 1) (Nat.succ_lt_succ hj) z e' hz
  · rintro (hf | ⟨hnone, i, y, hy, hf, hbefore⟩)
    · exact ⟨0, x, rfl, hf, fun j hj => absurd hj (Nat.not_lt_zero j)⟩
    · refine ⟨i + 1, y, hy, hf, ?_⟩
      intro j hj z e' hz
      cases j with
      | zero =>
        obtain rfl := Option.some.inj hz
        exact hnone e'
      | succ j => exact hbefore j (Nat.lt_of_succ_lt_succ hj) z e' hz

/-- Only the faults matter, place by place. -/
theorem congr (h : ∀ i e, (∃ x, xs[i]? = some x ∧ fault i x e) ↔ ∃ y, ys[i]? = some y ∧ fault' i y e) :
    FirstFault fault xs e ↔ FirstFault fault' ys e := by
  constructor
  · rintro ⟨i, x, hx, hf, hbefore⟩
    obtain ⟨y, hy, hf'⟩ := (h i e).mp ⟨x, hx, hf⟩
    refine ⟨i, y, hy, hf', ?_⟩
    intro j hj z e' hz hf''
    obtain ⟨w, hw, hfw⟩ := (h j e').mpr ⟨z, hz, hf''⟩
    exact hbefore j hj w e' hw hfw
  · rintro ⟨i, y, hy, hf, hbefore⟩
    obtain ⟨x, hx, hf'⟩ := (h i e).mpr ⟨y, hy, hf⟩
    refine ⟨i, x, hx, hf', ?_⟩
    intro j hj z e' hz hf''
    obtain ⟨w, hw, hfw⟩ := (h j e').mp ⟨z, hz, hf''⟩
    exact hbefore j hj w e' hw hfw

theorem exists_iff : (∃ e, FirstFault fault xs e) ↔ ∃ i x e, xs[i]? = some x ∧ fault i x e := by
  constructor
  · rintro ⟨e, i, x, hx, hf, -⟩
    exact ⟨i, x, e, hx, hf⟩
  · intro h
    classical
    obtain ⟨x, e, hx, hf⟩ := Nat.find_spec h
    refine ⟨e, Nat.find h, x, hx, hf, ?_⟩
    intro j hj y e' hy hf'
    exact Nat.find_min h hj ⟨y, e', hy, hf'⟩

/-- A traversal stops with the error of the first element that has one. -/
theorem mapM_iff {f : α → Except ε β} :
    xs.mapM f = .error e ↔ FirstFault (fun _ x e => f x = .error e) xs e := by
  induction xs with
  | nil => simp [not_nil, pure, Except.pure]
  | cons x xs ih =>
    rw [List.mapM_cons, cons_iff, ← ih]
    cases f x with
    | error e' => simp [bind, Except.bind]
    | ok y => cases xs.mapM f <;> simp [bind, Except.bind, pure, Except.pure]

/-- A search for faults, with the places counted from `n` on, finds the first. -/
theorem findSome?_iff {f : α × Nat → Option ε} (n : Nat) : (xs.zipIdx n).findSome? f = some e ↔
    FirstFault (fun i x e => f (x, n + i) = some e) xs e := by
  induction xs generalizing n with
  | nil => simp [not_nil]
  | cons x xs ih =>
    rw [List.zipIdx_cons, List.findSome?_cons, cons_iff]
    cases hx : f (x, n) with
    | some e' => simp
    | none =>
      simp only [ih, Nat.add_right_comm n 1]
      simp [Nat.add_assoc]

end FirstFault

theorem getElem?_of_mapM {f : α → Except ε β} {xs : List α} {ys : List β}
    (h : xs.mapM f = .ok ys) :
    ys.length = xs.length ∧ ∀ (i : Nat) (x : α), xs[i]? = some x → ∃ y, ys[i]? = some y ∧ f x = .ok y := by
  obtain ⟨hlength, hget⟩ := List.forall₂_iff_get.mp (MemoryMap.mapM_ok_iff.mp h)
  refine ⟨hlength.symm, ?_⟩
  intro i x hx
  obtain ⟨hi, rfl⟩ := List.getElem?_eq_some_iff.mp hx
  exact ⟨ys[i], List.getElem?_eq_getElem (hlength ▸ hi), hget i hi (hlength ▸ hi)⟩

namespace Banks

variable {s : Banks} {name : String} {b : Nat}

/-- Bank `b` is the first of that name. -/
def First (s : Banks) (name : String) (b : Nat) : Prop :=
  s.name? b = some name ∧ ∀ j, j < b → s.name? j ≠ some name

theorem find?_eq_some_iff : s.find? name = some b ↔ s.First name b := by
  unfold find? First name?
  rw [Array.findIdx?_eq_some_iff_getElem]
  constructor
  · rintro ⟨hb, hname, hbefore⟩
    refine ⟨by simpa [hb] using hname, ?_⟩
    intro j hj heq
    have hlt : j < s.toArray.size := Nat.lt_trans hj hb
    have hne := hbefore j hj
    simp_all
  · rintro ⟨hname, hbefore⟩
    obtain ⟨k, hk, rfl⟩ := Option.map_eq_some_iff.mp hname
    obtain ⟨hb, rfl⟩ := Array.getElem?_eq_some_iff.mp hk
    refine ⟨hb, by simp, ?_⟩
    intro j hj heq
    have hlt : j < s.toArray.size := Nat.lt_trans hj hb
    exact hbefore j hj (by simpa [hlt] using heq)

theorem find?_eq_none_iff : s.find? name = none ↔ ∀ b, s.name? b ≠ some name := by
  unfold find? name?
  rw [Array.findIdx?_eq_none_iff]
  constructor
  · intro h b heq
    obtain ⟨k, hk, rfl⟩ := Option.map_eq_some_iff.mp heq
    have hne := h k (Array.mem_of_getElem? hk)
    simp at hne
  · intro h k hk
    obtain ⟨b, hb⟩ := Array.mem_iff_getElem?.mp hk
    have hne := h b
    simpa [hb] using hne

theorem First.unique {b' : Nat} (hb : s.First name b) (hb' : s.First name b') : b = b' :=
  Option.some.inj ((find?_eq_some_iff.mpr hb).symm.trans (find?_eq_some_iff.mpr hb'))

theorem size?_eq_sizes (s : Banks) (b : Nat) : s.size? b = s.sizes[b]? := by simp [size?, sizes]

theorem First.exists_size {s' : Banks} (hb : s.First name b) (hgrows : s.shape <+: s'.shape) :
    ∃ size, s'.sizes[b]? = some size := by
  obtain ⟨k, hk, -⟩ := Option.map_eq_some_iff.mp hb.1
  have hsize : s.sizes[b]? = some k.bytes.size := by simp [sizes, hk]
  obtain ⟨rest, hrest⟩ := sizes_prefix_of_shape hgrows
  refine ⟨k.bytes.size, ?_⟩
  rw [← hrest, List.getElem?_append_left (List.getElem?_eq_some_iff.mp hsize).1, hsize]

end Banks

/-! What the capabilities of a layout's range are. -/

/-- The number of the bit that stands for the capability. -/
def AccessKind.bit : AccessKind → Nat
  | read => 0
  | write => 1
  | device => 2
  | notify => 3

namespace Access

variable {a b : Access} {k k' : AccessKind}

theorem has_access (a : Access) (k : AccessKind) : a.has k.access = a.bits.toNat.testBit k.bit := by
  have hmask : k.access.bits.toNat = 2 ^ k.bit := by cases k <;> rfl
  rw [Bool.eq_iff_iff, has, beq_iff_eq, ← UInt32.toNat_inj, UInt32.toNat_and, hmask, Nat.and_two_pow]
  cases a.bits.toNat.testBit k.bit <;> simp [(Nat.two_pow_pos k.bit).ne]

theorem has_union : (a.union b).has k.access = (a.has k.access || b.has k.access) := by
  simp [has_access, union]

theorem has_access_access : k'.access.has k.access = decide (k = k') := by
  cases k <;> cases k' <;> rfl

end Access

theorem RangeLayout.has_capabilities (r : RangeLayout) (k : AccessKind) :
    r.capabilities.has k.access = true ↔ k ∈ r.access := by
  have hfold (ks : List AccessKind) (a : Access) : (ks.foldl (fun acc k => acc.union k.access) a).has k.access =
      (a.has k.access || decide (k ∈ ks)) := by
    induction ks generalizing a with
    | nil => simp
    | cons k' ks ih =>
      rw [List.foldl_cons, ih, Access.has_union, Access.has_access_access]
      simp [Bool.or_assoc]
  have hnone : Access.none.has k.access = false := by cases k <;> rfl
  simp [capabilities, hfold, hnone]

theorem Range.isCacheable_iff {x : Range} :
    x.isCacheable = true ↔ x.access.has .read = true ∨ x.access.has .write = true := by
  have hboth : (Access.union .read .write).bits.toNat = 2 ^ 2 - 1 := rfl
  have hmeets : x.isCacheable = true ↔ x.access.bits.toNat % 2 ^ 2 ≠ 0 := by
    simp only [isCacheable, Access.meets, bne_iff_ne, ne_eq, ← UInt32.toNat_inj, UInt32.toNat_and, hboth,
      Nat.and_two_pow_sub_one_eq_mod]
    rfl
  have hread : x.access.has .read = true ↔ x.access.bits.toNat % 2 = 1 := by
    have hbit : x.access.has .read = x.access.bits.toNat.testBit 0 := Access.has_access _ .read
    simp [hbit, Nat.testBit_zero]
  have hwrite : x.access.has .write = true ↔ x.access.bits.toNat / 2 % 2 = 1 := by
    have hbit : x.access.has .write = x.access.bits.toNat.testBit 1 := Access.has_access _ .write
    simp [hbit, Nat.testBit_succ]
  rw [hmeets, hread, hwrite]
  omega

/-! The faults of each stage. -/

/-- The range is to be read or written in a bank. -/
def RangeLayout.Backs (r : RangeLayout) : Prop := .read ∈ r.access ∨ .write ∈ r.access

/-- The highest offset that an access through the range can reach. -/
def RangeLayout.lastOffset (r : RangeLayout) : Nat :=
  r.base.toNat + r.useMask.toNat + if r.useMask &&& 1 = 0 then 1 else 0

/-- Range `r` of a layout as an entry of a table over banks `s`. -/
structure RangeLayout.Describes (s : Banks) (r : RangeLayout) (x : Range) : Prop where
  mask : x.mask = r.mask
  value : x.value = r.value
  access : x.access = r.capabilities
  tag : x.tag = r.tag
  unnamed : r.bank = none → x.backing = none
  named : ∀ name, r.bank = some name → ∃ b, s.First name b ∧ x.backing = some ⟨b, r.base, r.useMask⟩

namespace Layout

variable {l : Layout} {s : Banks} {r : RangeLayout} {x : Range} {e : LayoutError} {t : Table}

/-- Bank `i` of the layout has the name of one before it, or else no bytes. -/
inductive BankFault (l : Layout) (i : Nat) (k : BankLayout) : LayoutError → Prop
  | duplicate {j : Nat} {k' : BankLayout} : j < i → l.banks[j]? = some k' → k'.name = k.name →
    BankFault l i k (.duplicateBank k.name)
  | empty : (∀ j k', j < i → l.banks[j]? = some k' → k'.name ≠ k.name) → k.size = 0 →
    BankFault l i k (.emptyBank k.name)

/-- A range names a bank that is not there, or should be backed and names none. -/
inductive RangeFault (s : Banks) (r : RangeLayout) : LayoutError → Prop
  | unknown {name : String} : r.bank = some name → (∀ b, s.name? b ≠ some name) →
    RangeFault s r (.unknownBank name)
  | missing : r.bank = none → r.Backs → RangeFault s r (.missingBank r.name)

/-- A backed range reaches past the end of the bank that was found for it among `s`, with the sizes that
the banks `s'` have. -/
inductive Overrun (s s' : Banks) (i : Nat) (r : RangeLayout) : TableError → Prop
  | intro {name : String} {b size : Nat} : r.Backs → r.bank = some name → s.First name b →
    s'.size? b = some size → size ≤ r.lastOffset →
    Overrun s s' i r (.backingOutOfBounds i b r.lastOffset size)

/-- The faults of the banks in the order in which they are added. -/
theorem allocate_snd_iff {before ks : List BankLayout} {acc : Banks} :
    (allocate before acc ks).2 = some e ↔
      FirstFault (fun i k e => bankFault ((ks.take i).reverse ++ before) k = some e) ks e := by
  induction ks generalizing before acc with
  | nil => simp [allocate, FirstFault.not_nil]
  | cons k ks ih =>
    rw [allocate, FirstFault.cons_iff]
    cases hk : bankFault before k with
    | some e' => simp [hk]
    | none => simp [hk, ih]

theorem bankFault_iff {i : Nat} {k : BankLayout} :
    bankFault (l.banks.take i).reverse k = some e ↔ l.BankFault i k e := by
  have hbefore : (l.banks.take i).reverse.any (·.name == k.name) = true ↔
      ∃ j k', j < i ∧ l.banks[j]? = some k' ∧ k'.name = k.name := by
    simp only [List.any_reverse, List.any_eq_true, List.mem_iff_getElem?, List.getElem?_take, beq_iff_eq]
    constructor
    · rintro ⟨k', ⟨j, hj⟩, hname⟩
      split at hj
      · exact ⟨j, k', ‹_›, hj, hname⟩
      · cases hj
    · rintro ⟨j, k', hj, hk', hname⟩
      exact ⟨k', ⟨j, by rw [if_pos hj, hk']⟩, hname⟩
  unfold bankFault
  by_cases hdup : (l.banks.take i).reverse.any (·.name == k.name) = true
  · obtain ⟨j, k', hj, hk', hname⟩ := hbefore.mp hdup
    rw [if_pos hdup]
    constructor
    · intro h
      obtain rfl := Option.some.inj h
      exact .duplicate hj hk' hname
    · intro h
      cases h with
      | duplicate => rfl
      | empty hnone => exact absurd hname (hnone j k' hj hk')
  · have hnone : ∀ j k', j < i → l.banks[j]? = some k' → k'.name ≠ k.name := by
      intro j k' hj hk' hname
      exact hdup (hbefore.mpr ⟨j, k', hj, hk', hname⟩)
    rw [if_neg hdup]
    constructor
    · intro h
      split at h
      · obtain rfl := Option.some.inj h
        exact .empty hnone ‹_›
      · cases h
    · intro h
      cases h with
      | duplicate hj hk' hname => exact absurd hname (hnone _ _ hj hk')
      | empty _ hsize => rw [if_pos hsize]

theorem buildBanks_error_iff : l.buildBanks = .error e ↔ FirstFault l.BankFault l.banks e := by
  have hfault : (allocate [] .empty l.banks).2 = some e ↔ FirstFault l.BankFault l.banks e := by
    rw [allocate_snd_iff]
    simp only [List.append_nil, bankFault_iff]
  rw [← hfault, buildBanks]
  split
  · rename_i heq
    simp [heq]
  · rename_i heq
    simp [heq]

theorem exists_buildBanks_iff : (∃ s, l.buildBanks = .ok s) ↔
    (l.banks.map (·.name)).Nodup ∧ ∀ k ∈ l.banks, k.size ≠ 0 := by
  have hsound : (∃ s, l.buildBanks = .ok s) ↔ ¬ ∃ i k e, l.banks[i]? = some k ∧ l.BankFault i k e := by
    rw [← FirstFault.exists_iff]
    simp only [← buildBanks_error_iff]
    cases l.buildBanks <;> simp
  rw [hsound]
  constructor
  · intro hnone
    constructor
    · rw [List.nodup_iff_getElem?_ne_getElem?]
      intro i j hij hj heq
      obtain ⟨k, hk⟩ : ∃ k, l.banks[j]? = some k := ⟨_, List.getElem?_eq_getElem (by simpa using hj)⟩
      rw [List.getElem?_map, List.getElem?_map, hk] at heq
      obtain ⟨k', hk', hname⟩ := Option.map_eq_some_iff.mp heq
      exact hnone ⟨j, k, _, hk, .duplicate hij hk' hname⟩
    · intro k hk hsize
      obtain ⟨i, hi⟩ := List.mem_iff_getElem?.mp hk
      by_cases hdup : ∃ j k', j < i ∧ l.banks[j]? = some k' ∧ k'.name = k.name
      · obtain ⟨j, k', hj, hk', hname⟩ := hdup
        exact hnone ⟨i, k, _, hi, .duplicate hj hk' hname⟩
      · exact hnone ⟨i, k, _, hi, .empty (fun j k' hj hk' hname => hdup ⟨j, k', hj, hk', hname⟩) hsize⟩
  · rintro ⟨hnames, hsizes⟩ ⟨i, k, e, hk, hfault⟩
    cases hfault with
    | @duplicate j k' hj hk' hname =>
      have hi : i < l.banks.length := (List.getElem?_eq_some_iff.mp hk).1
      refine List.nodup_iff_getElem?_ne_getElem?.mp hnames j i hj (by simpa using hi) ?_
      rw [List.getElem?_map, List.getElem?_map, hk, hk', Option.map_some, Option.map_some, hname]
    | empty _ hsize => exact hsizes k (List.mem_of_getElem? hk) hsize

/-- Bank `i` of the layout is bank `i`, is found by its name, and has nothing but zeros in it. -/
theorem banks_of_buildBanks (h : l.buildBanks = .ok s) : s.count = l.banks.length ∧
    ∀ i k, l.banks[i]? = some k → s.name? i = some k.name ∧ s.size? i = some k.size ∧
      (∀ offset, offset < k.size → s.byte? i offset = some 0) ∧ s.find? k.name = some i := by
  have hlist := toList_of_buildBanks h
  have hcount : s.count = l.banks.length := by
    rw [Banks.count, ← Array.length_toList, hlist, List.length_map]
  have hget (i : Nat) : s.toArray[i]? = l.banks[i]?.map fun k => ⟨k.name, zeros k.size⟩ := by
    rw [← Array.getElem?_toList, hlist, List.getElem?_map]
  refine ⟨hcount, ?_⟩
  intro i k hk
  have hi : s.toArray[i]? = some ⟨k.name, zeros k.size⟩ := by rw [hget, hk]; rfl
  have hname : s.name? i = some k.name := by simp [Banks.name?, hi]
  refine ⟨hname, by simp [Banks.size?, hi], ?_, ?_⟩
  · intro offset ho
    have hlt : offset < (zeros k.size).size := by simpa using ho
    simp only [Banks.byte?, hi, getElem?_pos (zeros k.size) offset hlt]
    simp [zeros, ByteArray.getElem_eq_getElem_data]
  · rw [Banks.find?_eq_some_iff]
    refine ⟨hname, ?_⟩
    intro j hj heq
    obtain ⟨hnames, -⟩ := exists_buildBanks_iff.mp ⟨s, h⟩
    have hlt : i < l.banks.length := (List.getElem?_eq_some_iff.mp hk).1
    refine List.nodup_iff_getElem?_ne_getElem?.mp hnames j i hj (by simpa using hlt) ?_
    simp only [Banks.name?, hget, Option.map_map] at heq
    simpa [hk] using heq

theorem isCacheable_of_capabilities (hx : x.access = r.capabilities) : x.isCacheable = true ↔ r.Backs := by
  rw [Range.isCacheable_iff, hx]
  exact or_congr (r.has_capabilities .read) (r.has_capabilities .write)

theorem buildRange_of_fault (h : RangeFault s r e) : buildRange s r = .error e := by
  cases h with
  | unknown hname hnone => simp [buildRange, hname, Banks.find?_eq_none_iff.mpr hnone]
  | missing hname hbacks =>
    have hc : Range.isCacheable ⟨r.mask, r.value, r.capabilities, none, r.tag⟩ = true :=
      (isCacheable_of_capabilities rfl).mpr hbacks
    simp [buildRange, hname, hc]

/-- A range without a fault becomes an entry. -/
theorem exists_buildRange (h : ∀ e, ¬ RangeFault s r e) : ∃ x, buildRange s r = .ok x ∧ r.Describes s x := by
  cases hname : r.bank with
  | none =>
    have hc : ¬ Range.isCacheable ⟨r.mask, r.value, r.capabilities, none, r.tag⟩ = true :=
      fun hc => h _ (.missing hname ((isCacheable_of_capabilities rfl).mp hc))
    refine ⟨⟨r.mask, r.value, r.capabilities, none, r.tag⟩, by simp [buildRange, hname, hc], ?_⟩
    exact ⟨rfl, rfl, rfl, rfl, fun _ => rfl, by simp [hname]⟩
  | some name =>
    cases hb : s.find? name with
    | none => exact absurd (.unknown hname (Banks.find?_eq_none_iff.mp hb)) (h _)
    | some b =>
      refine ⟨⟨r.mask, r.value, r.capabilities, some ⟨b, r.base, r.useMask⟩, r.tag⟩,
        by simp [buildRange, hname, hb], rfl, rfl, rfl, rfl, by simp [hname], ?_⟩
      intro name' hname'
      obtain rfl := Option.some.inj (hname.symm.trans hname')
      exact ⟨b, Banks.find?_eq_some_iff.mp hb, rfl⟩

theorem buildRange_error_iff : buildRange s r = .error e ↔ RangeFault s r e := by
  constructor
  · intro h
    by_contra hnone
    obtain ⟨x, hx, -⟩ := exists_buildRange (s := s) (r := r) fun e' he' => by
      obtain rfl := Except.error.inj (h.symm.trans (buildRange_of_fault he'))
      exact hnone he'
    cases h.symm.trans hx
  · exact buildRange_of_fault

theorem describes_of_buildRange (h : buildRange s r = .ok x) : r.Describes s x := by
  obtain ⟨x', hx', hr⟩ := exists_buildRange (s := s) (r := r) fun e he => by
    cases h.symm.trans (buildRange_of_fault he)
  obtain rfl := Except.ok.inj (h.symm.trans hx')
  exact hr

theorem backs_of_buildRange (h : buildRange s r = .ok x) (hbacks : r.Backs) : r.bank ≠ none := by
  intro hname
  cases h.symm.trans (buildRange_of_fault (.missing hname hbacks))

/-- Ranges without a fault make a table: nothing is left for the builder to refuse. -/
theorem exists_build_of_ranges {rs : List Range} (h : l.ranges.mapM (buildRange s) = .ok rs) :
    ∃ t, Table.build rs .guard = .ok t := by
  obtain ⟨hlength, hget⟩ := getElem?_of_mapM h
  refine Table.exists_build fun x hx hc => ?_
  obtain ⟨i, hi⟩ := List.mem_iff_getElem?.mp hx
  have hlt : i < l.ranges.length := hlength ▸ (List.getElem?_eq_some_iff.mp hi).1
  obtain ⟨x', hx', hr⟩ := hget i _ (List.getElem?_eq_getElem hlt)
  obtain rfl := Option.some.inj (hi.symm.trans hx')
  have hdescribes := describes_of_buildRange hr
  have hbank := backs_of_buildRange hr ((isCacheable_of_capabilities hdescribes.access).mp hc)
  obtain ⟨name, hname⟩ := Option.ne_none_iff_exists'.mp hbank
  obtain ⟨b, -, hb⟩ := hdescribes.named name hname
  simp [hb]

theorem buildTable_ok_iff : l.buildTable s = .ok t ↔
    ∃ rs, l.ranges.mapM (buildRange s) = .ok rs ∧ Table.build rs .guard = .ok t := by
  unfold buildTable
  cases hranges : l.ranges.mapM (buildRange s) with
  | error e => simp [Except.mapError, bind, Except.bind]
  | ok rs =>
    obtain ⟨t', ht'⟩ := exists_build_of_ranges hranges
    simp [ht', Except.mapError, bind, Except.bind]

theorem buildTable_error_iff {e : MemoryError} : l.buildTable s = .error e ↔
    ∃ e', e = .layout e' ∧ FirstFault (fun _ => RangeFault s) l.ranges e' := by
  have hfirst (e' : LayoutError) : FirstFault (fun _ => RangeFault s) l.ranges e' ↔
      l.ranges.mapM (buildRange s) = .error e' := by
    rw [FirstFault.mapM_iff]
    exact FirstFault.congr fun i e => by simp only [buildRange_error_iff]
  simp only [hfirst, buildTable]
  cases hranges : l.ranges.mapM (buildRange s) with
  | error e' => simp [Except.mapError, bind, Except.bind, eq_comm]
  | ok rs =>
    obtain ⟨t, ht⟩ := exists_build_of_ranges hranges
    simp [ht, Except.mapError, bind, Except.bind]

/-- What is wrong with an entry that was built over banks `s`, when more banks have been added: it can reach
past the end of its bank, and nothing else. -/
theorem misfit_iff {s' : Banks} {i : Nat} {e : TableError} (h : buildRange s r = .ok x)
    (hgrows : s.shape <+: s'.shape) : Table.misfit s'.sizes i x = some e ↔ Overrun s s' i r e := by
  have hx := describes_of_buildRange h
  have hcacheable := isCacheable_of_capabilities hx.access
  unfold Table.misfit
  by_cases hbacks : r.Backs
  · obtain ⟨name, hname⟩ := Option.ne_none_iff_exists'.mp (backs_of_buildRange h hbacks)
    obtain ⟨b, hb, hbacking⟩ := hx.named name hname
    obtain ⟨size, hsize⟩ := hb.exists_size hgrows
    have hlast : Backing.lastOffset ⟨b, r.base, r.useMask⟩ = r.lastOffset := rfl
    simp only [hcacheable.mpr hbacks, hbacking, hsize, hlast]
    constructor
    · intro hmisfit
      by_cases hfits : r.lastOffset < size
      · simp [hfits] at hmisfit
      · obtain rfl : TableError.backingOutOfBounds i b r.lastOffset size = e := by
          simpa [hfits] using hmisfit
        exact .intro hbacks hname hb ((Banks.size?_eq_sizes s' b).trans hsize) (Nat.le_of_not_lt hfits)
    · intro hover
      cases hover with
      | intro _ hname' hb' hsize' hle =>
        obtain rfl := Option.some.inj (hname.symm.trans hname')
        obtain rfl := hb.unique hb'
        obtain rfl := Option.some.inj (hsize'.symm.trans ((Banks.size?_eq_sizes s' _).trans hsize))
        simp [Nat.not_lt_of_le hle]
  · have hc : x.isCacheable = false := by simpa using mt hcacheable.mp hbacks
    simp only [hc]
    constructor
    · intro hnone
      cases hnone
    · intro hover
      cases hover with
      | intro hbacks' => exact absurd hbacks' hbacks

end Layout

theorem Table.check_error_iff {t : Table} {sizes : List Nat} {e : TableError} : t.check sizes = .error e ↔
    FirstFault (fun i r e => misfit sizes i r = some e) t.entries e := by
  have hfirst : t.entries.zipIdx.findSome? (fun x => misfit sizes x.2 x.1) = some e ↔ _ :=
    FirstFault.findSome?_iff 0
  simp only [Nat.zero_add] at hfirst
  rw [← hfirst, check]
  cases t.entries.zipIdx.findSome? fun x => misfit sizes x.2 x.1 with
  | none => simp
  | some e' => simp

theorem MemoryMap.install_error_iff {m : MemoryMap} {t : Table} {e : TableError} :
    m.install t = .error e ↔ t.check m.banks.sizes = .error e := by
  unfold install
  cases t.check m.banks.sizes <;> simp [bind, Except.bind, pure, Except.pure]

end MemoryBus
