import Mathlib.Data.List.DropRight
import Mathlib.Data.List.Nodup
import Mathlib.Data.Option.Basic
import MemoryBus.Proofs.Decimals
import MemoryBus.Tasks.Run

/-! Objects of natural numbers are read as they are printed, and so the counters that a run reports
are those that a comparison of traces finds in its output. -/
namespace MemoryBus

namespace Json

variable {c : Char} {s : List Char} {fuel depth n : Nat} {field : String × Nat}
  {fields : List (String × Nat)}

/-- What stands in a string as itself. -/
def Text.isPlain (c : Char) : Bool := c != '"' && c != '\\' && 0x20 ≤ c.toNat

theorem Text.read_plain {text : List Char} (htext : text.all isPlain = true) (s : List Char) :
    read .plain (text ++ '"' :: s) = some (text, s) := by
  induction text with
  | nil => rfl
  | cons c text ih =>
    simp only [List.all_cons, isPlain, Bool.and_eq_true, bne_iff_ne, decide_eq_true_eq] at htext
    obtain ⟨⟨⟨hquote, hescape⟩, hcontrol⟩, htext⟩ := htext
    rw [List.cons_append, read, if_neg hquote, if_neg hescape, if_neg (by omega), ih htext]
    rfl

/-- A printed number has neither a fraction nor an exponent. -/
theorem Number.readUnsigned_digits (hn : n < wordBound) (hc : c = ',' ∨ c = '\n') (s : List Char) :
    readUnsigned false (Decimal.digits n ++ c :: s) = some (.natural n, c :: s) := by
  have hcdigit : c.isDigit = false := by rcases hc with rfl | rfl <;> rfl
  have hspan : Decimal.span (Decimal.digits n ++ c :: s) = (Decimal.digits n, c :: s) :=
    Decimal.span_append (fun _ => Decimal.isDigit_of_mem_digits) hcdigit
  have hdigits : digits? (Decimal.digits n ++ c :: s) = some (Decimal.digits n, c :: s) := by
    rw [digits?, hspan]
    split
    · rename_i hnil
      exact absurd (congrArg Prod.fst hnil) (Decimal.digits_ne_nil n)
    · rfl
  have hfront : (Decimal.digits n).head? ≠ some '0' ∨ (Decimal.digits n).length = 1 := by
    rcases Decimal.digits_eq_or_head?_ne n with hzero | hhead
    · exact .inr (by rw [hzero]; rfl)
    · exact .inl hhead
  have hfraction : fraction? (c :: s) = some ([], c :: s) := by rcases hc with rfl | rfl <;> rfl
  have hexponent : exponent? (c :: s) = some (none, c :: s) := by rcases hc with rfl | rfl <;> rfl
  simp [readUnsigned, hdigits, guard, hfront, hfraction, hexponent, Decimal.value_digits, hn]

theorem readValue_digits (hn : n < Number.wordBound) (hc : c = ',' ∨ c = '\n') (s : List Char) :
    readValue (fuel + 1) depth (' ' :: (Decimal.digits n ++ c :: s)) = some (.natural n, c :: s) := by
  have hread := Number.readUnsigned_digits hn hc s
  obtain ⟨d, digits, hdigits⟩ := List.exists_cons_of_ne_nil (Decimal.digits_ne_nil n)
  have hd : d.isDigit = true := Decimal.isDigit_of_mem_digits (n := n) (by simp [hdigits])
  have hne {e : Char} {t : List Char} (he : e.isDigit = false) (heq : d :: (digits ++ c :: s) = e :: t) :
      False := by
    obtain rfl := (List.cons.inj heq).1
    exact Bool.false_ne_true (he.symm.trans hd)
  have hskip : skipSpaces (' ' :: d :: (digits ++ c :: s)) = d :: (digits ++ c :: s) := by
    have hspace : isSpace d = false := by
      simp only [isSpace, Bool.or_eq_false_iff, beq_eq_false_iff_ne]
      and_intros <;> (rintro rfl; cases hd)
    rw [skipSpaces, List.dropWhile_cons_of_pos rfl, List.dropWhile_cons_of_neg (by simp [hspace])]
  rw [hdigits, List.cons_append] at hread ⊢
  unfold readValue
  rw [hskip]
  -- No other kind of value begins with a digit.
  split
  case h_7 =>
    unfold Number.read
    split
    · exact (hne rfl ‹_›).elim
    · exact hread
  all_goals exact (hne rfl ‹_›).elim

/-- Blanks before a field do not count. -/
theorem readFields_skipSpaces (fuel depth : Nat) (s : List Char) :
    readFields fuel depth (skipSpaces s) = readFields fuel depth s := by
  have hexpect (c : Char) : expect c (skipSpaces s) = expect c s := by
    unfold expect skipSpaces
    rw [List.dropWhile_idempotent]
  cases fuel with
  | zero => rfl
  | succ fuel => simp only [readFields, hexpect]

theorem readFields_newline (fuel depth : Nat) (s : List Char) :
    readFields fuel depth ('\n' :: s) = readFields fuel depth s := by
  rw [← readFields_skipSpaces, ← readFields_skipSpaces fuel depth s]
  rfl

/-- The name of a field needs no escapes and its number fits in a word. -/
structure Printable (field : String × Nat) : Prop where
  name : field.1.toList.all Text.isPlain = true
  number : field.2 < Number.wordBound

def readBack (field : String × Nat) : List Char × Value := (field.1.toList, .natural field.2)

theorem expect_printField (field : String × Nat) (s : List Char) :
    expect '"' (printField field ++ s) =
      some (field.1.toList ++ '"' :: ':' :: ' ' :: (Decimal.digits field.2 ++ s)) := by
  simp [printField, expect, skipSpaces, isSpace]

theorem readFields_next (hfield : Printable field) (s : List Char) :
    readFields (fuel + 2) depth (printField field ++ ',' :: s) =
      (readFields (fuel + 1) depth s).map fun (fields, s) => (readBack field :: fields, s) := by
  have hcolon (s : List Char) : expect ':' (':' :: s) = some s := rfl
  have hcomma : skipSpaces (',' :: s) = ',' :: s := rfl
  rw [readFields, expect_printField]
  simp only [Option.bind_eq_bind, Option.bind_some, Text.read_plain hfield.name, hcolon,
    readValue_digits hfield.number (.inl rfl), hcomma]
  cases readFields (fuel + 1) depth s <;> rfl

theorem readFields_last (hfield : Printable field) (s : List Char) :
    readFields (fuel + 2) depth (printField field ++ '\n' :: '}' :: s) = some ([readBack field], s) := by
  have hcolon (s : List Char) : expect ':' (':' :: s) = some s := rfl
  have hbrace : skipSpaces ('\n' :: '}' :: s) = '}' :: s := rfl
  rw [readFields, expect_printField]
  simp only [Option.bind_eq_bind, Option.bind_some, Text.read_plain hfield.name, hcolon,
    readValue_digits hfield.number (.inr rfl), hbrace]
  rfl

theorem readFields_print (hne : fields ≠ []) (hfields : ∀ field ∈ fields, Printable field)
    (hfuel : fields.length < fuel) (s : List Char) :
    readFields fuel depth ([',', '\n'].intercalate (fields.map printField) ++ '\n' :: '}' :: s) =
      some (fields.map readBack, s) := by
  induction fields generalizing fuel with
  | nil => exact absurd rfl hne
  | cons field rest ih =>
    rw [List.length_cons] at hfuel
    obtain ⟨fuel, rfl⟩ : ∃ n, fuel = n + 2 := ⟨fuel - 2, by omega⟩
    have hfield := hfields field (by simp)
    cases rest with
    | nil =>
      rw [List.map_singleton, List.intercalate_singleton]
      exact readFields_last hfield s
    | cons next rest =>
      have hshorter : (next :: rest).length < fuel + 1 := by omega
      have hrest := ih (by simp) (fun field hf => hfields field (by simp [hf])) hshorter
      have hsplit : [',', '\n'].intercalate ((field :: next :: rest).map printField) ++ '\n' :: '}' :: s =
          printField field ++ ',' :: '\n' ::
            ([',', '\n'].intercalate ((next :: rest).map printField) ++ '\n' :: '}' :: s) := by
        simp [List.intercalate_cons_cons]
      rw [hsplit, readFields_next hfield, readFields_newline, hrest]
      rfl

theorem length_le_printed (fields : List (String × Nat)) :
    fields.length ≤ ([',', '\n'].intercalate (fields.map printField)).length := by
  induction fields with
  | nil => exact Nat.zero_le _
  | cons field rest ih =>
    cases rest with
    | nil => simp [printField]
    | cons next rest =>
      rw [List.map_cons] at ih
      rw [List.map_cons, List.map_cons, List.intercalate_cons_cons]
      simp only [List.length_append, List.length_cons] at ih ⊢
      omega

theorem readValue_printObject (hne : fields ≠ []) (hfields : ∀ field ∈ fields, Printable field)
    (hfuel : fields.length < fuel) (s : List Char) :
    readValue (fuel + 1) (depth + 1) (printObject fields ++ s) = some (.object (fields.map readBack), s) := by
  have htext : printObject fields ++ s =
      '{' :: '\n' :: ([',', '\n'].intercalate (fields.map printField) ++ '\n' :: '}' :: s) := by
    simp [printObject]
  obtain ⟨t, hfirst⟩ : ∃ t, skipSpaces ('\n' :: ([',', '\n'].intercalate (fields.map printField) ++
      '\n' :: '}' :: s)) = '"' :: t := by
    obtain ⟨field, rest, rfl⟩ := List.exists_cons_of_ne_nil hne
    cases rest <;> simp [printField, skipSpaces, isSpace, List.intercalate_cons_cons]
  have hread : readFields fuel depth ('"' :: t) = some (fields.map readBack, s) := by
    rw [← hfirst, readFields_skipSpaces, readFields_newline]
    exact readFields_print hne hfields hfuel s
  have hopen (t : List Char) : skipSpaces ('{' :: t) = '{' :: t := rfl
  rw [htext]
  unfold readValue
  simp only [hopen, hfirst]
  exact congrArg (Option.map fun (fields, s) => (Value.object fields, s)) hread

theorem read?_printObject (hne : fields ≠ []) (hfields : ∀ field ∈ fields, Printable field)
    (hs : skipSpaces s = []) : read? (printObject fields ++ s) = some (.object (fields.map readBack)) := by
  have hfuel : fields.length < (printObject fields ++ s).length := by
    have hlength := length_le_printed fields
    simp only [printObject, List.length_append, List.length_cons]
    omega
  rw [read?, maxDepth, readValue_printObject hne hfields hfuel]
  simp [hs]

/-- Among different names each one finds its own number. -/
theorem get?_readBack (hnames : (fields.map Prod.fst).Nodup) (hfield : field ∈ fields) :
    (Value.object (fields.map readBack)).get? field.1 = some (.natural field.2) := by
  obtain ⟨before, behind, rfl⟩ := List.mem_iff_append.mp hfield
  have hbehind : ∀ p ∈ (behind.map readBack).reverse, (field.1.toList != p.1) = true := by
    intro p hp
    obtain ⟨next, hnext, rfl⟩ := List.mem_map.mp (List.mem_reverse.mp hp)
    rw [List.map_append, List.map_cons, List.nodup_middle, List.nodup_cons] at hnames
    have hne : field.1 ≠ next.1 := by
      intro heq
      exact hnames.1 (List.mem_append_right _ (heq ▸ List.mem_map_of_mem hnext))
    simpa [readBack, String.toList_inj] using hne
  apply List.lookup_eq_some_iff.mpr
  refine ⟨_, (before.map readBack).reverse, ?_, hbehind⟩
  simp [readBack]

end Json

variable {s : BusStats}

namespace BusStats

/-- No counter has grown beyond a word of 64 bits. -/
def FitsWords (s : BusStats) : Prop := ∀ field ∈ s.fields, field.2 < 2 ^ 64

instance (s : BusStats) : Decidable s.FitsWords := inferInstanceAs (Decidable (∀ field ∈ s.fields, field.2 < 2 ^ 64))

/-- Those of the counters that are compared. -/
def summary (s : BusStats) : TraceSummary :=
  ⟨s.table.lookups, s.table.probes, s.table.promotions, s.dispatch.failed⟩

theorem nodup_names (s : BusStats) : (s.fields.map Prod.fst).Nodup := by
  simp only [fields, List.map_cons, List.map_nil]
  decide

theorem isPlain_names (s : BusStats) :
    (s.fields.map Prod.fst).all (fun name => name.toList.all Json.Text.isPlain) = true := by
  simp only [fields, List.map_cons, List.map_nil]
  decide

theorem FitsWords.printable (hs : s.FitsWords) : ∀ field ∈ s.fields, Json.Printable field := by
  intro field hfield
  constructor
  · exact List.all_eq_true.mp s.isPlain_names field.1 (List.mem_map_of_mem hfield)
  · exact hs field hfield

end BusStats

open Command

namespace TraceSummary

variable {name : String} {n : Nat} {blanks : List Char}

theorem field_readBack (hfield : (name, n) ∈ s.fields) :
    field (.object (s.fields.map Json.readBack)) name = n := by
  rw [field, Json.get?_readBack s.nodup_names hfield]
  rfl

theorem parse?_print_append (hs : s.FitsWords) (hblanks : Json.skipSpaces blanks = []) :
    parse? (s.print ++ blanks) = some s.summary := by
  have hne : s.fields ≠ [] := List.cons_ne_nil _ _
  rw [parse?, BusStats.print, Json.read?_printObject hne hs.printable hblanks, Option.map_some, ofValue,
    BusStats.summary]
  congr 2 <;> exact field_readBack (by simp [BusStats.fields])

theorem parse?_output (e : Exercise) (b : Bus Demo) (now : Timestamp) (hjson : e.json = true)
    (hb : b.stats.FitsWords) : parse? (e.report b now).output = some b.stats.summary := by
  rw [Exercise.report, if_pos hjson]
  exact parse?_print_append hb rfl

/-- Whatever the counters are, they are read back exactly, from their object alone and from the whole
output of a run that ends with them. -/
theorem parse?_print (hs : s.FitsWords) : parse? s.print = some s.summary ∧
    ∀ (e : Exercise) (b : Bus Demo) (now : Timestamp), e.json = true → b.stats = s →
      parse? (e.report b now).output = some s.summary := by
  constructor
  · have hparse : parse? (s.print ++ []) = some s.summary := parse?_print_append hs rfl
    rwa [List.append_nil] at hparse
  · rintro e b now hjson rfl
    exact parse?_output e b now hjson hs

theorem parse?_print_largest : ∃ (s : BusStats) (e : Exercise) (b : Bus Demo), s.FitsWords ∧
    s.summary = ⟨2 ^ 64 - 1, 2 ^ 64 - 2, 0, 2 ^ 63⟩ ∧ e.json = true ∧ b.stats = s ∧
      parse? s.print = some s.summary ∧ ∀ now, parse? (e.report b now).output = some s.summary := by
  let s : BusStats := ⟨⟨2 ^ 64 - 1, 2 ^ 64 - 2, 0⟩, ⟨2 ^ 64 - 1, 1, 0, 2 ^ 63⟩⟩
  let e : Exercise := ⟨none, none, defaultIterations, true, none⟩
  let b : Bus Demo := ⟨{ MemoryMap.empty with retired := s.table }, .ofLayout .macPlus, s.dispatch⟩
  have hs : s.FitsWords := by decide
  have hb : b.stats = s := by decide
  obtain ⟨hprint, hreport⟩ := parse?_print hs
  exact ⟨s, e, b, hs, rfl, rfl, hb, hprint, fun now => hreport e b now rfl hb⟩

end TraceSummary

namespace Tasks

/-- The row of a traced layout holds the counters that its run has printed. -/
theorem traceOne_report (e : Exercise) (b : Bus Demo) (now : Timestamp) (hjson : e.json = true)
    (hb : b.stats.FitsWords) {tool : Tool} {iterations hundredths : Nat} {release : Bool} {layout : Option String}
    (htool : tool (traceArguments iterations release layout) = some ⟨0, (e.report b now).output, hundredths⟩)
    (t : Transcript) :
    (traceOne tool iterations release layout t).1 = .ok ⟨label layout, b.stats.summary, hundredths⟩ := by
  have hparse := TraceSummary.parse?_output e b now hjson hb
  simp only [traceOne, Transcript.call, htool, hparse]
  rfl

end Tasks
end MemoryBus
