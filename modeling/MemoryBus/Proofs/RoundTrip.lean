import Mathlib.Data.List.Forall2
import MemoryBus.Layout.Decode
import MemoryBus.Layout.Printer
import MemoryBus.Proofs.Spelling

/-! A layout that is written is read back as it was. Its text is cut into lines, the lines build a
table with an array of tables for each list, and the tables are read as banks and ranges. -/
namespace MemoryBus

namespace Toml

variable {key : String} {es fields : List (String × Value)} {items : List Value}

/-- The lines of keys with their values. -/
def fieldLines (fields : List (String × Value)) : List Line := fields.map fun (key, v) => .entry [] key v

/-- The lines of a block: a header in double brackets, and keys with their values. -/
def blockLines (key : String) (fields : List (String × Value)) : List Line :=
  .header true [] key :: fieldLines fields

/-- What blocks of one key leave in the root. -/
def ofBlocks (key : String) : List Value → List (String × Value)
  | [] => []
  | items => [(key, .array true items)]

namespace Line

variable {depth : Nat} {value : List Char} {v : Value}

theorem Written.entry (key : String) (hkey : IsBare key) (hv : Spells depth value v)
    (hdepth : depth ≤ maxDepth) :
    Written (Printer.entry key value) (fieldLines [(key, v)]) := by
  have hwritten := Written.line (Shows.entry hkey hv hdepth) .nil
  simpa [Printer.entry, fieldLines] using hwritten

theorem Written.header (key : String) (hkey : IsBare key) :
    Written ('[' :: '[' :: (key.toList ++ [']', ']', '\n'])) [.header true [] key] := by
  have hwritten := Written.line (Shows.header hkey) .nil
  simpa using hwritten

/-- Texts with an empty line between them. -/
theorem Written.intercalate {texts : List (List Char)} {lines : List (List Line)}
    (h : List.Forall₂ Written texts lines) : Written (['\n'].intercalate texts) lines.flatten := by
  induction h with
  | nil => exact .nil
  | @cons text l texts lines ht hrest ih =>
    cases hrest with
    | nil => simpa [List.intercalate] using ht
    | cons ht' hrest =>
      have hwritten := ht.append ih.blank
      simpa only [List.intercalate_cons_cons, List.append_assoc, List.singleton_append,
        List.flatten_cons] using hwritten

/-- A text without lines may be left out. -/
theorem Written.nonempty {s : List Char} {lines : List Line} (h : Written s lines) :
    ∃ parts, List.Forall₂ Written (if s.isEmpty then [] else [s]) parts ∧ parts.flatten = lines := by
  cases hs : s.isEmpty with
  | true =>
    have hlength := h.length_le
    obtain rfl := List.isEmpty_iff.mp hs
    obtain rfl := List.eq_nil_of_length_eq_zero (Nat.le_zero.mp hlength)
    exact ⟨[], .nil, rfl⟩
  | false => exact ⟨[lines], .cons h .nil, List.append_nil lines⟩

end Line

namespace Table

variable {v w : Value}

theorem get?_eq_none (hkey : key ∉ es.map (·.1)) (kind : TableKind) : get? ⟨kind, es⟩ key = none := by
  apply List.lookup_eq_none_iff.mpr
  intro e he
  simp only [bne_iff_ne]
  rintro rfl
  exact hkey (List.mem_map_of_mem he)

theorem any_eq_false (hkey : key ∉ es.map (·.1)) : es.any (·.1 == key) = false := by
  apply List.any_eq_false.mpr
  intro e he
  simp only [beq_iff_eq]
  rintro rfl
  exact hkey (List.mem_map_of_mem he)

theorem set_new (hkey : key ∉ es.map (·.1)) (kind : TableKind) (v : Value) :
    set ⟨kind, es⟩ key v = ⟨kind, es ++ [(key, v)]⟩ := by
  simp only [set, any_eq_false hkey]
  rfl

theorem get?_last (hkey : key ∉ es.map (·.1)) (kind : TableKind) (v : Value) :
    get? ⟨kind, es ++ [(key, v)]⟩ key = some v := by
  have hnone : es.lookup key = none := get?_eq_none hkey kind
  simp [get?, List.lookup_append, hnone]

theorem set_last (hkey : key ∉ es.map (·.1)) (kind : TableKind) (v w : Value) :
    set ⟨kind, es ++ [(key, v)]⟩ key w = ⟨kind, es ++ [(key, w)]⟩ := by
  have hkeep : es.map (fun e => if e.1 == key then (key, w) else e) = es := by
    have hne := List.any_eq_false.mp (any_eq_false hkey)
    exact (List.map_congr_left fun e he => if_neg (hne e he)).trans (List.map_id es)
  have hany : (es ++ [(key, v)]).any (·.1 == key) = true := by simp
  rw [set, if_pos hany, List.map_append, hkeep]
  simp

theorem insert_new (hkey : key ∉ es.map (·.1)) (v : Value) :
    insert [] key v ⟨.header, es⟩ = some ⟨.header, es ++ [(key, v)]⟩ := by
  have hget := get?_eq_none hkey .header
  have hset := set_new hkey .header v
  simp [insert, alter, alterAt, maxPath, hget, hset]

end Table

namespace Draft

variable {d : Draft} {root : Table} {header : Option (Bool × List String × String)}

/-- New keys go to the end of the table of the last header. -/
theorem add_entries (es : List (String × Value)) (hkeys : ((es ++ fields).map (·.1)).Nodup) :
    (fieldLines fields).foldlM add ⟨root, header, ⟨.header, es⟩⟩ =
      some ⟨root, header, ⟨.header, es ++ fields⟩⟩ := by
  induction fields generalizing es with
  | nil => simp [fieldLines]
  | cons e fields ih =>
    obtain ⟨key, v⟩ := e
    have hkey : key ∉ es.map (·.1) := by
      simp only [List.map_append, List.map_cons, List.nodup_append, List.mem_cons] at hkeys
      intro hmem
      exact hkeys.2.2 key hmem key (.inl rfl) rfl
    have hstep : add ⟨root, header, ⟨.header, es⟩⟩ (.entry [] key v) =
        some ⟨root, header, ⟨.header, es ++ [(key, v)]⟩⟩ := by
      rw [add, Table.insert_new hkey]
      rfl
    have hrest := ih (es ++ [(key, v)]) (by simpa using hkeys)
    rw [fieldLines, List.map_cons, List.foldlM_cons, hstep]
    simpa [fieldLines] using hrest

/-- A table with a header in double brackets goes to the end of the array of its key. -/
theorem close_block (hkey : key ∉ es.map (·.1)) (items : List Value) (fields : List (String × Value)) :
    close ⟨⟨.header, es ++ ofBlocks key items⟩, some (true, [], key), ⟨.header, fields⟩⟩ =
      some ⟨.header, es ++ ofBlocks key (items ++ [.table .header fields])⟩ := by
  cases items with
  | nil =>
    have hget := Table.get?_eq_none hkey .header
    have hset := Table.set_new hkey .header (.array true [.table .header fields])
    simp [close, Table.alter, Table.alterAt, Table.maxPath, ofBlocks, Table.toValue, hget, hset]
  | cons item items =>
    have hget := Table.get?_last hkey .header (.array true (item :: items))
    have hset := Table.set_last hkey .header (.array true (item :: items))
      (.array true (item :: (items ++ [.table .header fields])))
    simp [close, Table.alter, Table.alterAt, Table.maxPath, ofBlocks, Table.toValue, hget, hset]

theorem add_block (hd : d.close = some ⟨.header, es ++ ofBlocks key items⟩) (hkey : key ∉ es.map (·.1))
    (hfields : (fields.map (·.1)).Nodup) : ∃ d', (blockLines key fields).foldlM add d = some d' ∧
      d'.close = some ⟨.header, es ++ ofBlocks key (items ++ [.table .header fields])⟩ := by
  refine ⟨_, ?_, close_block hkey items fields⟩
  have hstart : add d (.header true [] key) =
      some ⟨⟨.header, es ++ ofBlocks key items⟩, some (true, [], key), .empty .header⟩ := by
    rw [add, hd]
    rfl
  rw [blockLines, List.foldlM_cons, hstart]
  exact add_entries [] hfields

/-- More blocks of one key, behind those that are in the root already. -/
theorem add_moreBlocks (hd : d.close = some ⟨.header, es ++ ofBlocks key items⟩)
    {blocks : List (List (String × Value))} (hkey : blocks ≠ [] → key ∉ es.map (·.1))
    (hblocks : ∀ fields ∈ blocks, (fields.map (·.1)).Nodup) :
    ∃ d', (blocks.flatMap (blockLines key)).foldlM add d = some d' ∧
      d'.close = some ⟨.header, es ++ ofBlocks key (items ++ blocks.map (.table .header))⟩ := by
  induction blocks generalizing d items with
  | nil => exact ⟨d, rfl, by simpa using hd⟩
  | cons fields blocks ih =>
    have hnew : key ∉ es.map (·.1) := hkey (by simp)
    obtain ⟨d₁, hadd, hclose⟩ := add_block hd hnew (hblocks fields (by simp))
    obtain ⟨d₂, hrest, hend⟩ := ih hclose (fun _ => hnew) fun fields h => hblocks fields (by simp [h])
    refine ⟨d₂, ?_, by simpa using hend⟩
    rw [List.flatMap_cons, List.foldlM_append, hadd]
    exact hrest

theorem add_blocks (key : String) (blocks : List (List (String × Value))) (hd : d.close = some ⟨.header, es⟩)
    (hkey : blocks ≠ [] → key ∉ es.map (·.1)) (hblocks : ∀ fields ∈ blocks, (fields.map (·.1)).Nodup) :
    ∃ d', (blocks.flatMap (blockLines key)).foldlM add d = some d' ∧
      d'.close = some ⟨.header, es ++ ofBlocks key (blocks.map (.table .header))⟩ := by
  have hnone : d.close = some ⟨.header, es ++ ofBlocks key []⟩ := by rwa [ofBlocks, List.append_nil]
  exact add_moreBlocks hnone hkey hblocks

end Draft
end Toml

namespace Layout

open Toml Toml.Line

def bankFields (k : BankLayout) : List (String × Value) :=
  [("name", .text k.name), ("size", .integer k.size)]

def ofWord (w : UInt32) : Value := .integer w.toNat

def rangeFields (r : RangeLayout) : List (String × Value) :=
  [("name", .text r.name), ("cmp_mask", ofWord r.mask), ("cmp_value", ofWord r.value),
      ("access", .array false (r.access.map fun k => .text k.name))] ++
    (r.bank.map fun name => ("bank", Value.text name)).toList ++
    [("base", ofWord r.base), ("use_mask", ofWord r.useMask), ("tag", ofWord r.tag)]

/-- The keys of lists without elements. -/
def emptyFields (l : Layout) : List (String × Value) :=
  (if l.banks.isEmpty then [("bank", .array false [])] else []) ++
    if l.ranges.isEmpty then [("range", .array false [])] else []

def lines (l : Layout) : List Line :=
  fieldLines l.emptyFields ++ (l.banks.map bankFields).flatMap (blockLines "bank") ++
    (l.ranges.map rangeFields).flatMap (blockLines "range")

/-- The table of a layout. -/
def fields (l : Layout) : List (String × Value) :=
  l.emptyFields ++ ofBlocks "bank" ((l.banks.map bankFields).map (.table .header)) ++
    ofBlocks "range" ((l.ranges.map rangeFields).map (.table .header))

variable {l : Layout} {k : BankLayout}

theorem written_bankBlock (hsize : k.size < UInt64.size) :
    Written (bankBlock k) (blockLines "bank" (bankFields k)) := by
  have hname := Written.entry "name" (by decide) (Spells.quote k.name) (by decide)
  have hnumber := Written.entry "size" (by decide)
    (Spells.number (Nat.lt_trans hsize (by decide))) (by decide)
  exact ((Written.header "bank" (by decide)).append hname).append hnumber

theorem written_word (key : String) (hkey : IsBare key) (w : UInt32) :
    Written (Printer.entry key (Printer.number w.toNat)) (fieldLines [(key, ofWord w)]) :=
  Written.entry key hkey (Spells.number (Nat.lt_trans w.toNat_lt (by decide))) (by decide)

theorem written_rangeBlock (r : RangeLayout) :
    Written (rangeBlock r) (blockLines "range" (rangeFields r)) := by
  have hname := Written.entry "name" (by decide) (Spells.quote r.name) (by decide)
  have hkinds : List.Forall₂ (Spells 0) (r.access.map fun k => Printer.quote k.name.toList)
      (r.access.map fun k => .text k.name) := by
    rw [List.forall₂_map_left_iff, List.forall₂_map_right_iff]
    exact List.forall₂_same.mpr fun k _ => Spells.quote k.name
  have haccess := Written.entry "access" (by decide) (Spells.list hkinds) (by decide)
  have hbank : Written (bankEntry r.bank)
      (fieldLines (r.bank.map fun name => ("bank", Value.text name)).toList) := by
    cases r.bank with
    | none => exact .nil
    | some name => exact Written.entry "bank" (by decide) (Spells.quote name) (by decide)
  have hfront := ((((Written.header "range" (by decide)).append hname).append
    (written_word "cmp_mask" (by decide) r.mask)).append
    (written_word "cmp_value" (by decide) r.value)).append haccess
  have hall := (((hfront.append hbank).append
    (written_word "base" (by decide) r.base)).append
    (written_word "use_mask" (by decide) r.useMask)).append
    (written_word "tag" (by decide) r.tag)
  obtain ⟨name, mask, value, access, bank, base, useMask, tag⟩ := r
  cases bank with
  | none => exact hall
  | some name => exact hall

theorem written_emptyLists (l : Layout) : Written l.emptyLists (fieldLines l.emptyFields) := by
  have hlist : Spells 1 (Printer.list []) (.array false []) := Spells.list .nil
  have hone (key : String) (hkey : IsBare key) (b : Bool) :
      Written (if b then Printer.entry key (Printer.list []) else [])
        (fieldLines (if b then [(key, .array false [])] else [])) := by
    cases b with
    | false => exact .nil
    | true => exact Written.entry key hkey hlist (by decide)
  have hboth := (hone "bank" (by decide) l.banks.isEmpty).append
    (hone "range" (by decide) l.ranges.isEmpty)
  rwa [fieldLines, fieldLines, ← List.map_append] at hboth

theorem written_print (hsizes : ∀ k ∈ l.banks, k.size < UInt64.size) : Written l.print l.lines := by
  obtain ⟨parts, hfront, hflatten⟩ := (written_emptyLists l).nonempty
  have hbanks : List.Forall₂ Written (l.banks.map bankBlock)
      ((l.banks.map bankFields).map (blockLines "bank")) := by
    rw [List.map_map, List.forall₂_map_left_iff, List.forall₂_map_right_iff]
    exact List.forall₂_same.mpr fun k hk => written_bankBlock (hsizes k hk)
  have hranges : List.Forall₂ Written (l.ranges.map rangeBlock)
      ((l.ranges.map rangeFields).map (blockLines "range")) := by
    rw [List.map_map, List.forall₂_map_left_iff, List.forall₂_map_right_iff]
    exact List.forall₂_same.mpr fun r _ => written_rangeBlock r
  have hblocks : List.Forall₂ Written l.blocks _ := List.rel_append (List.rel_append hfront hbanks) hranges
  have hwritten := Written.intercalate hblocks
  rw [List.flatten_append, List.flatten_append, hflatten] at hwritten
  exact hwritten

theorem nodup_rangeFields (r : RangeLayout) : ((rangeFields r).map (·.1)).Nodup := by
  obtain ⟨name, mask, value, access, bank, base, useMask, tag⟩ := r
  cases bank with
  | none => simp [rangeFields]
  | some name => simp [rangeFields]

/-! No key comes twice. -/

theorem nodup_emptyFields (l : Layout) : (l.emptyFields.map (·.1)).Nodup := by
  cases hbanks : l.banks.isEmpty <;> cases hranges : l.ranges.isEmpty <;> simp [emptyFields, hbanks, hranges]

theorem bank_notMem_emptyFields (hbanks : l.banks ≠ []) : "bank" ∉ l.emptyFields.map (·.1) := by
  cases hranges : l.ranges.isEmpty <;> simp [emptyFields, hbanks, hranges]

theorem range_notMem_emptyFields (hranges : l.ranges ≠ []) (items : List Value) :
    "range" ∉ (l.emptyFields ++ ofBlocks "bank" items).map (·.1) := by
  cases hbanks : l.banks.isEmpty <;> cases items <;> simp [emptyFields, ofBlocks, hbanks, hranges]

/-- The table that the text of a layout is read as. -/
theorem ofText?_print (hsizes : ∀ k ∈ l.banks, k.size < UInt64.size) :
    Toml.Table.ofText? l.print = some ⟨.header, l.fields⟩ := by
  have hfront : (fieldLines l.emptyFields).foldlM Draft.add Draft.empty =
      some ⟨.empty .header, none, ⟨.header, l.emptyFields⟩⟩ := Draft.add_entries [] (nodup_emptyFields l)
  obtain ⟨d₁, hbanks, hclose₁⟩ := Draft.add_blocks (d := ⟨.empty .header, none, ⟨.header, l.emptyFields⟩⟩)
    "bank" (l.banks.map bankFields) rfl (fun hne => bank_notMem_emptyFields (by simpa using hne))
    (by simp [bankFields])
  obtain ⟨d₂, hranges, hclose₂⟩ := Draft.add_blocks "range" (l.ranges.map rangeFields) hclose₁
    (fun hne => range_notMem_emptyFields (by simpa using hne) _) (by simp [nodup_rangeFields])
  have hlines : l.lines.foldlM Draft.add Draft.empty = some d₂ := by
    rw [lines, List.foldlM_append, List.foldlM_append, hfront]
    simp only [Option.bind_eq_bind, Option.bind_some, hbanks, hranges]
  rw [Toml.Table.ofText?, (written_print hsizes).ofText?]
  simp only [Option.bind_eq_bind, Option.bind_some, Toml.Table.ofLines?, hlines]
  exact hclose₂

/-! The table is read as the layout. -/

theorem below?_integer {bound n : Nat} (hn : n < bound) : below? bound (.integer n) = some n := by
  rw [below?, if_pos (by omega), Int.toNat_natCast]

theorem word?_ofWord (w : UInt32) : word? (ofWord w) = some w := by
  have hbelow := below?_integer w.toNat_lt_size
  simp [word?, ofWord, hbelow]

/-- The key is there, and its value is read as `x`. -/
def Holds {α : Type} (es : List (String × Value)) (key : String) (f : Value → Option α) (x : α) : Prop :=
  ∃ v, es.lookup key = some v ∧ f v = some x

theorem Holds.orElse {α : Type} {es : List (String × Value)} {key : String} {f : Value → Option α} {x : α}
    (h : Holds es key f x) (missing : α) : orElse (es.lookup key) missing f = some x := by
  obtain ⟨v, hv, hx⟩ := h
  rw [hv]
  exact hx

/-- A bank is read from any table with its keys. -/
theorem bank?_table {es : List (String × Value)} (hsound : othersAreSound ["name", "size"] es = true)
    (hname : Holds es "name" text? k.name) (hsize : Holds es "size" (below? UInt64.size) k.size) :
    bank? (.table .header es) = some k := by
  obtain ⟨v, hv, hname⟩ := hname
  obtain ⟨w, hw, hsize⟩ := hsize
  simp [bank?, fields?, hsound, hv, hname, hw, hsize]

theorem bank?_fields (hsize : k.size < UInt64.size) : bank? (.table .header (bankFields k)) = some k :=
  bank?_table rfl ⟨_, rfl, rfl⟩ ⟨_, rfl, below?_integer hsize⟩

theorem accessKind?_text (k : AccessKind) : accessKind? (.text k.name) = some k := by
  cases k <;> rfl

theorem mapM_eq_some {α β : Type} {f : α → Option β} {g : β → α} {ys : List β}
    (h : ∀ y ∈ ys, f (g y) = some y) :
    (ys.map g).mapM f = some ys := by
  induction ys with
  | nil => rfl
  | cons y ys ih =>
    have hrest := ih fun y hy => h y (by simp [hy])
    rw [List.map_cons, List.mapM_cons, h y (by simp), hrest]
    rfl

/-- A range is read from any table with its keys; that of the bank may be missing. -/
theorem range?_table {r : RangeLayout} {es : List (String × Value)}
    (hsound : othersAreSound ["name", "cmp_mask", "cmp_value", "access", "bank", "base", "use_mask", "tag"] es =
      true)
    (hname : Holds es "name" text? r.name) (hmask : Holds es "cmp_mask" word? r.mask)
    (hvalue : Holds es "cmp_value" word? r.value) (haccess : Holds es "access" (list? accessKind?) r.access)
    (hbank : orElse (es.lookup "bank") none (fun v => (text? v).map some) = some r.bank)
    (hbase : Holds es "base" word? r.base) (huse : Holds es "use_mask" word? r.useMask)
    (htag : Holds es "tag" word? r.tag) : range? (.table .header es) = some r := by
  obtain ⟨v, hv, hname⟩ := hname
  obtain ⟨w, hw, hmask⟩ := hmask
  obtain ⟨u, hu, hvalue⟩ := hvalue
  simp [range?, fields?, hsound, hv, hname, hw, hmask, hu, hvalue, haccess.orElse, hbank, hbase.orElse,
    huse.orElse, htag.orElse]

theorem range?_fields (r : RangeLayout) : range? (.table .header (rangeFields r)) = some r := by
  obtain ⟨name, mask, value, access, bank, base, useMask, tag⟩ := r
  have hkinds : list? accessKind? (.array false (access.map fun k => .text k.name)) = some access :=
    mapM_eq_some fun k _ => accessKind?_text k
  -- the place of the last keys depends on whether there is one for the bank
  cases bank <;>
    exact range?_table rfl ⟨_, rfl, rfl⟩ ⟨_, rfl, word?_ofWord mask⟩ ⟨_, rfl, word?_ofWord value⟩
      ⟨_, rfl, hkinds⟩ rfl ⟨_, rfl, word?_ofWord base⟩ ⟨_, rfl, word?_ofWord useMask⟩
      ⟨_, rfl, word?_ofWord tag⟩

theorem ofTable?_fields (hsizes : ∀ k ∈ l.banks, k.size < UInt64.size) :
    ofTable? ⟨.header, l.fields⟩ = some l := by
  have hsound : othersAreSound ["bank", "range"] l.fields = true := by
    cases hbanks : l.banks <;> cases hranges : l.ranges <;>
      simp [othersAreSound, fields, emptyFields, ofBlocks, hbanks, hranges]
  have hbank : l.fields.lookup "bank" =
      some (.array (!l.banks.isEmpty) ((l.banks.map bankFields).map (.table .header))) := by
    cases hbanks : l.banks <;> cases hranges : l.ranges <;>
      simp [fields, emptyFields, ofBlocks, hbanks, hranges, List.lookup_cons]
  have hrange : l.fields.lookup "range" =
      some (.array (!l.ranges.isEmpty) ((l.ranges.map rangeFields).map (.table .header))) := by
    cases hbanks : l.banks <;> cases hranges : l.ranges <;>
      simp [fields, emptyFields, ofBlocks, hbanks, hranges, List.lookup_cons]
  have hbanks : ((l.banks.map bankFields).map (.table .header)).mapM bank? = some l.banks := by
    rw [List.map_map]
    exact mapM_eq_some fun k hk => bank?_fields (hsizes k hk)
  have hranges : ((l.ranges.map rangeFields).map (.table .header)).mapM range? = some l.ranges := by
    rw [List.map_map]
    exact mapM_eq_some fun r _ => range?_fields r
  have hguard : guard (othersAreSound ["bank", "range"] l.fields = true) = some () := if_pos hsound
  rw [ofTable?, hguard]
  simp only [Toml.Table.get?, hbank, hrange, orElse, list?, hbanks, hranges]
  rfl

/-- Every layout is read back from its text. The bound is that of the field of a bank's size. -/
theorem ofText_print (l : Layout) (hsizes : ∀ k ∈ l.banks, k.size < UInt64.size) :
    ofText (String.ofList l.print) = .ok l := by
  rw [ofText, parse?, String.toList_ofList, ofText?_print hsizes, Option.bind_eq_bind, Option.bind_some,
    ofTable?_fields hsizes]

/-- Names for every form of quotes, and ranges with and without a bank. -/
def oddNames : Layout where
  banks := [⟨"ra\"m", 0x400000⟩, ⟨"", 0⟩, ⟨"\\\"rom\"\n'''\u0001é", UInt64.size - 1⟩]
  ranges := [⟨"\"\"\"\\\n", 0xFFFFFFFF, 0, [.read, .read, .notify], some "ra\"m", 1, 2, 3⟩,
    ⟨"it's \"so\"", 0, 0, [], none, 0, 0, 0⟩]

theorem ofText_print_oddNames :
    (∀ k ∈ oddNames.banks, k.size < UInt64.size) ∧ ofText (String.ofList oddNames.print) = .ok oddNames :=
  ⟨by decide, ofText_print oddNames (by decide)⟩

end Layout
end MemoryBus
