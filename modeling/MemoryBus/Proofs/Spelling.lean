import Mathlib.Data.List.Basic
import Mathlib.Data.List.TakeDrop
import Mathlib.Data.List.TakeWhile
import MemoryBus.Proofs.Decimals
import MemoryBus.Proofs.Quoting
import MemoryBus.Toml.Document

/-! Values and lines of TOML as they are written, each with what it is read as. -/
namespace MemoryBus

namespace Toml

/-- What ends a value in a list or on a line. -/
def isEnd (c : Char) : Bool := c == '\n' || c == ',' || c == ']'

/-- Neither a blank nor a mark. -/
def isStart (c : Char) : Bool :=
  !Quoted.isSpace c && c != '\n' && c != '\r' && c != '#' && c != ',' && c != ']' && c != '\uFEFF'

namespace Scalar

/-- Numbers below it fit into a word of 128 bits. -/
def wordBound : Nat := 0x100000000000000000000000000000000

variable {c : Char} {s rest : List Char} {n : Nat}

theorem digit?_of_isDigit (hc : c.isDigit = true) : Hex.digit? c = some (c.toNat - '0'.toNat) := by
  have hbetween : '0' ≤ c ∧ c ≤ '9' := by
    simpa [Char.isDigit, Char.le_def] using hc
  rw [Hex.digit?, if_pos hbetween]

theorem isDigitBelow_of_isDigit {base : Nat} (hbase : 10 ≤ base) (hc : c.isDigit = true) :
    isDigitBelow base c = true := by
  have hlt : c.toNat - '0'.toNat < 10 := by
    simp only [Char.isDigit, Bool.and_eq_true, decide_eq_true_eq, UInt32.le_iff_toNat_le] at hc
    have hnine : c.toNat ≤ 57 := hc.2
    have hzero : '0'.toNat = 48 := rfl
    omega
  simp only [isDigitBelow, digit?_of_isDigit hc, Option.any_some, decide_eq_true_eq]
  omega

theorem ne_underscore_of_isDigit (hc : c.isDigit = true) : c ≠ '_' := by
  rintro rfl
  cases hc

theorem isGrouped_of_digits (hs : ∀ c ∈ s, c.isDigit = true) (p : Char → Bool) (before : Bool) :
    isGrouped p before s = true := by
  induction s generalizing before with
  | nil => rfl
  | cons c s ih =>
    have hc := ne_underscore_of_isDigit (hs c (by simp))
    have hrest := ih (fun c hc => hs c (by simp [hc])) (p c)
    rw [isGrouped] <;> simp_all

theorem dropUnderscores_of_digits (hs : ∀ c ∈ s, c.isDigit = true) : dropUnderscores s = s :=
  List.filter_eq_self.mpr fun c hc => by simpa using ne_underscore_of_isDigit (hs c hc)

theorem natural?_digits (n : Nat) : natural? 10 (Decimal.digits n) = some n := by
  have hdigits (c : Char) (hc : c ∈ Decimal.digits n) := Decimal.isDigit_of_mem_digits hc
  have hall : (Decimal.digits n).all (isDigitBelow 10) = true :=
    List.all_eq_true.mpr fun c hc => isDigitBelow_of_isDigit (Nat.le_refl 10) (hdigits c hc)
  have hvalue : (Decimal.digits n).foldl (fun n c => 10 * n + (Hex.digit? c).getD 0) 0 = n := by
    rw [List.foldl_ext _ (fun n c => 10 * n + (c.toNat - '0'.toNat)) 0]
    · exact Decimal.value_digits n
    · intro m c hc
      rw [digit?_of_isDigit (hdigits c hc), Option.getD_some]
  rw [natural?, hvalue, if_pos]
  simpa [hall] using Decimal.digits_ne_nil n

theorem isDelimiter_of_isDigit (hc : c.isDigit = true) : isDelimiter c = false := by
  cases hdelimiter : isDelimiter c with
  | false => rfl
  | true =>
    simp only [isDelimiter, List.contains_eq_mem, decide_eq_true_eq, List.mem_cons, List.not_mem_nil,
      or_false] at hdelimiter
    rcases hdelimiter with rfl | rfl | rfl | rfl | rfl | rfl | rfl | rfl | rfl | rfl | rfl <;> cases hc

theorem splitSign_of_isDigit (hc : c.isDigit = true) (s : List Char) :
    splitSign (c :: s) = (none, c :: s) := by
  unfold splitSign
  split
  · rename_i heq
    obtain rfl := (List.cons.inj heq).1
    cases hc
  · rename_i heq
    obtain rfl := (List.cons.inj heq).1
    cases hc
  · rfl

theorem decimal?_digits (hn : n < wordBound) : decimal? none (Decimal.digits n) = some (.integer n) := by
  have hdigits (c : Char) (hc : c ∈ Decimal.digits n) := Decimal.isDigit_of_mem_digits hc
  have hrest : (Decimal.span (Decimal.digits n)).2 = [] := by
    rw [Decimal.span, List.span_eq_takeWhile_dropWhile, List.dropWhile_eq_nil_iff]
    exact hdigits
  have hfront := Decimal.digits_eq_or_head?_ne n
  have hgrouped := isGrouped_of_digits hdigits (isDigitBelow 16) false
  unfold decimal?
  rw [hrest, if_pos ⟨hfront, .inl rfl, rfl, hgrouped⟩, dropUnderscores_of_digits hdigits, natural?_digits]
  change some (integer (some (n : Int))) = _
  rw [integer, if_pos]
  unfold wordBound at hn
  omega

/-- Digits without a sign, a point or a mark of a base are a whole number. -/
theorem ofDigits?_digits (hn : n < wordBound) : ofDigits? (Decimal.digits n) = some (.integer n) := by
  have hdigits (c : Char) (hc : c ∈ Decimal.digits n) := Decimal.isDigit_of_mem_digits hc
  have hrest : (Decimal.digits n).dropWhile Char.isDigit = [] := List.dropWhile_eq_nil_iff.mpr hdigits
  obtain ⟨c, s, hs⟩ := List.exists_cons_of_ne_nil (Decimal.digits_ne_nil n)
  have hsign : splitSign (Decimal.digits n) = (none, Decimal.digits n) := by
    rw [hs]
    exact splitSign_of_isDigit (hdigits c (by simp [hs])) s
  simp only [ofDigits?, hsign, hrest]
  exact decimal?_digits hn

theorem ofWord?_digits (hn : n < wordBound) : ofWord? (Decimal.digits n) = some (.integer n) := by
  have hdigits (c : Char) (hc : c ∈ Decimal.digits n) := Decimal.isDigit_of_mem_digits hc
  have hnumber := ofDigits?_digits hn
  obtain ⟨c, s, hs⟩ := List.exists_cons_of_ne_nil (Decimal.digits_ne_nil n)
  rw [hs] at hdigits hnumber ⊢
  have hne (w : List Char) (hw : w.all Char.isDigit = false) : c :: s ≠ w := by
    rintro rfl
    exact Bool.false_ne_true (hw.symm.trans (List.all_eq_true.mpr hdigits))
  have hc : c.isDigit = true := hdigits c (by simp)
  unfold ofWord?
  rw [if_neg (hne _ (by decide)), if_neg (hne _ (by decide)), splitSign_of_isDigit hc]
  simp only
  rw [if_neg]
  · split
    · rename_i heq
      exact absurd heq (hne _ rfl)
    · rename_i heq
      exact absurd heq (hne _ rfl)
    · rename_i heq
      exact absurd heq (hne _ rfl)
    · rename_i heq _ _ _
      obtain ⟨rfl, rfl⟩ := List.cons.inj heq
      rw [if_pos hc, hnumber]
    · rename_i heq
      cases heq
  · rintro (heq | heq)
    · exact hne _ (by decide) heq
    · exact hne _ (by decide) heq

/-- A number ends where a list or a line goes on. -/
theorem read?_digits (hn : n < wordBound) {d : Char} (hd : isEnd d = true) (rest : List Char) :
    read? (Decimal.digits n ++ d :: rest) = some (.integer n, d :: rest) := by
  have hword (s : List Char) (hs : ∀ c ∈ s, c.isDigit = true) : word (s ++ d :: rest) = (s, d :: rest) := by
    induction s with
    | nil =>
      simp only [isEnd, Bool.or_eq_true, beq_iff_eq] at hd
      rw [List.nil_append, word, if_neg]
      rcases hd with (rfl | rfl) | rfl <;> simp [isDelimiter, Quoted.isSpace]
    | cons c s ih =>
      have hc := isDelimiter_of_isDigit (hs c (by simp))
      rw [List.cons_append, word, ih fun c hc => hs c (by simp [hc]), if_pos (by simp [hc])]
  simp only [read?, hword _ fun c hc => Decimal.isDigit_of_mem_digits hc, ofWord?_digits hn]
  rfl

end Scalar

/-- The text is read as value `v`, which nests `depth` deep. -/
structure Spells (depth : Nat) (text : List Char) (v : Value) : Prop where
  starts : ∃ c s, text = c :: s ∧ isStart c = true
  read : ∀ {fuel d : Nat} {c : Char} (rest : List Char), text.length < fuel → depth ≤ d → isEnd c = true →
    Line.readValue fuel d (text ++ c :: rest) = some (v, c :: rest)

namespace Spells

variable {depth : Nat} {text : List Char} {v : Value}

theorem quote (s : String) : Spells 0 (Printer.quote s.toList) (.text s) := by
  obtain ⟨c, t, hc, hquote⟩ : ∃ c t, Printer.quote s.toList = c :: t ∧ (c = '"' ∨ c = '\'') := by
    unfold Printer.quote
    cases Printer.form s.toList with
    | basic => exact ⟨_, _, rfl, .inl rfl⟩
    | literal => exact ⟨_, _, rfl, .inr rfl⟩
    | multiBasic => exact ⟨_, _, rfl, .inl rfl⟩
    | multiLiteral => exact ⟨_, _, rfl, .inr rfl⟩
  constructor
  · refine ⟨c, t, hc, ?_⟩
    rcases hquote with rfl | rfl <;> rfl
  · intro fuel d e rest hfuel _ he
    have hread : Quoted.read? (Printer.quote s.toList ++ e :: rest) = _ := Printer.read?_quote s.toList (by
      rintro heq
      obtain rfl := Option.some.inj heq
      cases he) (by
      rintro heq
      obtain rfl := Option.some.inj heq
      cases he)
    obtain ⟨fuel, rfl⟩ : ∃ n, fuel = n + 1 := ⟨fuel - 1, by omega⟩
    rw [hc, List.cons_append] at hread ⊢
    rw [Line.readValue.eq_def]
    rcases hquote with rfl | rfl
    · simp [hread]
    · simp [hread]

theorem number {n : Nat} (hn : n < Scalar.wordBound) : Spells 0 (Printer.number n) (.integer n) := by
  obtain ⟨c, t, hc⟩ := List.exists_cons_of_ne_nil (Decimal.digits_ne_nil n)
  have hdigit : c.isDigit = true := Decimal.isDigit_of_mem_digits (n := n) (by simp [hc])
  have hne {d : Char} (hd : d.isDigit = false) : c ≠ d := by
    rintro rfl
    cases hdigit.symm.trans hd
  constructor
  · refine ⟨c, t, hc, ?_⟩
    simp [isStart, Quoted.isSpace, hne]
  · intro fuel d e rest hfuel _ he
    have hread := Scalar.read?_digits hn he rest
    obtain ⟨fuel, rfl⟩ : ∃ n, fuel = n + 1 := ⟨fuel - 1, by omega⟩
    rw [Printer.number]
    rw [hc, List.cons_append] at hread ⊢
    rw [Line.readValue]
    · exact hread
    all_goals simp [hne]

theorem skipTrivia_of_isStart {c : Char} (hc : isStart c = true) (s : List Char) :
    Line.skipTrivia false (c :: s) = some (c :: s) := by
  simp only [isStart, Bool.and_eq_true, Bool.not_eq_true', bne_iff_ne] at hc
  rw [Line.skipTrivia]
  simp [Quoted.lineEnds, hc]

/-- What follows an element of a list. -/
theorem readItems_cons {text : List Char} (ht : Spells depth text v) {fuel d : Nat} {c : Char}
    (hfuel : text.length < fuel) (hd : depth ≤ d) (hc : isEnd c = true) (rest : List Char) :
    Line.readItems (fuel + 1) d (text ++ c :: rest) = (do
      match ← Line.skipTrivia false (c :: rest) with
      | ']' :: s => return ([v], s)
      | ',' :: s =>
        let (vs, s) ← Line.readItems fuel d s
        return (v :: vs, s)
      | _ => none) := by
  obtain ⟨e, t, rfl, he⟩ := ht.starts
  have hread := ht.read rest hfuel hd hc
  rw [List.cons_append] at hread ⊢
  have hne : e ≠ ']' := by
    rintro rfl
    cases he
  rw [Line.readItems, skipTrivia_of_isStart he, Option.bind_eq_bind, Option.bind_some]
  split
  · rename_i heq
    exact absurd (List.cons.inj heq).1 hne
  · rw [hread]
    rfl

/-- A blank in front of an element is skipped. -/
theorem readItems_space (fuel d : Nat) (s : List Char) :
    Line.readItems fuel d (' ' :: s) = Line.readItems fuel d s := by
  cases fuel with
  | zero => rfl
  | succ fuel => rfl

theorem items {texts : List (List Char)} {vs : List Value} (h : List.Forall₂ (Spells depth) texts vs)
    {fuel d : Nat} (hfuel : ([',', ' '].intercalate texts).length + 1 < fuel) (hd : depth ≤ d)
    (rest : List Char) :
    Line.readItems fuel d ([',', ' '].intercalate texts ++ ']' :: rest) = some (vs, rest) := by
  induction h generalizing fuel with
  | nil =>
    obtain ⟨fuel, rfl⟩ : ∃ n, fuel = n + 1 := ⟨fuel - 1, by omega⟩
    rfl
  | @cons text v texts vs ht htexts ih =>
    obtain ⟨fuel, rfl⟩ : ∃ n, fuel = n + 1 := ⟨fuel - 1, by omega⟩
    cases htexts with
    | nil =>
      have hbody : [',', ' '].intercalate [text] = text := by simp [List.intercalate]
      rw [hbody] at hfuel ⊢
      exact readItems_cons ht (Nat.lt_of_succ_lt_succ hfuel) hd rfl rest
    | @cons text' v' texts vs ht' htexts =>
      have hbody : [',', ' '].intercalate (text :: text' :: texts) =
          text ++ ',' :: ' ' :: [',', ' '].intercalate (text' :: texts) := by
        simp [List.intercalate, List.intersperse]
      rw [hbody] at hfuel ⊢
      simp only [List.length_append, List.length_cons] at hfuel
      rw [List.append_assoc, List.cons_append, List.cons_append,
        readItems_cons ht (by omega) hd rfl]
      have hskip (s : List Char) : Line.skipTrivia false (',' :: s) = some (',' :: s) := rfl
      rw [hskip, Option.bind_eq_bind, Option.bind_some]
      simp only [readItems_space]
      rw [ih (by omega)]
      rfl

theorem list {texts : List (List Char)} {vs : List Value} (h : List.Forall₂ (Spells depth) texts vs) :
    Spells (depth + 1) (Printer.list texts) (.array false vs) := by
  constructor
  · exact ⟨'[', _, rfl, rfl⟩
  · intro fuel d e rest hfuel hd he
    obtain ⟨fuel, rfl⟩ : ∃ n, fuel = n + 1 := ⟨fuel - 1, by omega⟩
    obtain ⟨d, rfl⟩ : ∃ n, d = n + 1 := ⟨d - 1, by omega⟩
    simp only [Printer.list, List.length_cons, List.length_append, List.length_nil] at hfuel
    have hitems : Line.readItems fuel d ([',', ' '].intercalate texts ++ ']' :: e :: rest) =
        some (vs, e :: rest) := items h (by omega) (by omega) (e :: rest)
    rw [Printer.list, List.cons_append, List.append_assoc, List.singleton_append, Line.readValue, hitems]
    rfl

end Spells

namespace Line

/-- A key that needs no quotes. -/
def IsBare (key : String) : Prop := key.toList ≠ [] ∧ key.toList.all isBareKeyChar = true

instance (key : String) : Decidable (IsBare key) := inferInstanceAs (Decidable (_ ∧ _))

theorem IsBare.isBareKeyChar {key : String} {c : Char} (h : IsBare key) (hc : c ∈ key.toList) :
    isBareKeyChar c = true :=
  List.all_eq_true.mp h.2 c hc

/-- The text is read as that line. -/
structure Shows (text : List Char) (line : Line) : Prop where
  starts : ∃ c s, text = c :: s ∧ isStart c = true
  read : ∀ rest, Line.read (text ++ '\n' :: rest) = some (line, '\n' :: rest)

/-- The text consists of these lines, perhaps with empty ones between them. -/
inductive Written : List Char → List Line → Prop
  | nil : Written [] []
  | blank {s : List Char} {lines : List Line} : Written s lines → Written ('\n' :: s) lines
  | line {text s : List Char} {l : Line} {lines : List Line} : Shows text l → Written s lines →
    Written (text ++ '\n' :: s) (l :: lines)

variable {key : String} {depth : Nat} {value s s' : List Char} {v : Value} {lines lines' : List Line}

theorem readKey_bare (hkey : IsBare key) {d e : Char} {rest rest' : List Char} (hd : isBareKeyChar d = false)
    (hskip : skipSpaces (d :: rest) = e :: rest') (he : e ≠ '.') :
    readKey (key.toList ++ d :: rest).length (key.toList ++ d :: rest) = some ([], key, e :: rest') := by
  have hsimple : readSimpleKey (key.toList ++ d :: rest) = some (key, d :: rest) := by
    have hspan : (key.toList ++ d :: rest).span isBareKeyChar = (key.toList, d :: rest) := by
      rw [List.span_eq_takeWhile_dropWhile, List.takeWhile_append_of_pos fun c => hkey.isBareKeyChar,
        List.dropWhile_append_of_pos fun c => hkey.isBareKeyChar, List.takeWhile_cons_of_neg (by simp [hd]),
        List.dropWhile_cons_of_neg (by simp [hd]), List.append_nil]
    rw [readSimpleKey, hspan]
    split
    · rename_i heq
      exact absurd (congrArg Prod.fst heq) hkey.1
    · rename_i heq
      obtain ⟨rfl, rfl⟩ := Prod.mk.inj heq
      rw [String.ofList_toList]
  have hlength : (key.toList ++ d :: rest).length = key.toList.length + rest.length + 1 := by simp; omega
  rw [hlength, readKey, hsimple, Option.bind_eq_bind, Option.bind_some]
  simp only [hskip]
  split
  · rename_i heq
    exact absurd (List.cons.inj heq).1 he
  · rfl

theorem ne_of_isBareKeyChar {c d : Char} (hc : isBareKeyChar c = true) (hd : isBareKeyChar d = false) :
    c ≠ d := by
  rintro rfl
  cases hc.symm.trans hd

theorem isStart_of_isBareKeyChar {c : Char} (hc : isBareKeyChar c = true) : isStart c = true := by
  simp only [isStart, Quoted.isSpace, Bool.and_eq_true, Bool.not_eq_true', Bool.or_eq_false_iff, bne_iff_ne,
    beq_eq_false_iff_ne]
  and_intros <;> exact ne_of_isBareKeyChar hc (by decide)

theorem skipSpaces_of_isStart {c : Char} (hc : isStart c = true) (s : List Char) :
    skipSpaces (c :: s) = c :: s := by
  simp only [isStart, Bool.and_eq_true, Bool.not_eq_true'] at hc
  rw [skipSpaces, List.dropWhile_cons_of_neg (by simp [hc])]

theorem Shows.entry (hkey : IsBare key) (hv : Spells depth value v) (hdepth : depth ≤ maxDepth) :
    Shows (key.toList ++ ' ' :: '=' :: ' ' :: value) (.entry [] key v) := by
  obtain ⟨c, cs, hcs⟩ := List.exists_cons_of_ne_nil hkey.1
  have hc : isBareKeyChar c = true := hkey.isBareKeyChar (by simp [hcs])
  constructor
  · exact ⟨c, _, by rw [hcs]; rfl, isStart_of_isBareKeyChar hc⟩
  · intro rest
    obtain ⟨e, t, rfl, hstart⟩ := hv.starts
    have hskip : skipSpaces (' ' :: (e :: t ++ '\n' :: rest)) = e :: t ++ '\n' :: rest :=
      skipSpaces_of_isStart hstart _
    have hvalue : readValue ((' ' :: (e :: t ++ '\n' :: rest)).length + 1) maxDepth (e :: t ++ '\n' :: rest) =
        some (v, '\n' :: rest) := hv.read rest (by simp; omega) hdepth rfl
    have hread : readEntry (key.toList ++ ' ' :: '=' :: ' ' :: (e :: t ++ '\n' :: rest)) =
        some (.entry [] key v, '\n' :: rest) := by
      rw [readEntry, readKey_bare (e := '=') hkey (by decide) rfl (by decide)]
      simp only [Option.bind_eq_bind, Option.bind_some, Scalar.mark, if_true, hskip, hvalue]
      rfl
    rw [List.append_assoc, List.cons_append, List.cons_append, List.cons_append, hcs, List.cons_append] at *
    rw [Line.read]
    · exact hread
    all_goals
      intro s heq
      exact absurd (List.cons.inj heq).1 (ne_of_isBareKeyChar hc (by decide))

theorem Shows.header (hkey : IsBare key) :
    Shows ('[' :: '[' :: (key.toList ++ [']', ']'])) (.header true [] key) := by
  constructor
  · exact ⟨'[', _, rfl, rfl⟩
  · intro rest
    obtain ⟨c, cs, hcs⟩ := List.exists_cons_of_ne_nil hkey.1
    have hc : isBareKeyChar c = true := hkey.isBareKeyChar (by simp [hcs])
    have hskip : skipSpaces (key.toList ++ ']' :: ']' :: '\n' :: rest) =
        key.toList ++ ']' :: ']' :: '\n' :: rest := by
      rw [hcs]
      exact skipSpaces_of_isStart (isStart_of_isBareKeyChar hc) _
    have hread : readHeader true (key.toList ++ ']' :: ']' :: '\n' :: rest) =
        some (.header true [] key, '\n' :: rest) := by
      rw [readHeader, hskip, readKey_bare (e := ']') hkey (by decide) rfl (by decide)]
      rfl
    simp only [List.cons_append, List.append_assoc, List.nil_append]
    exact hread

theorem Written.append (h : Written s lines) (h' : Written s' lines') :
    Written (s ++ s') (lines ++ lines') := by
  induction h with
  | nil => exact h'
  | blank _ ih => exact ih.blank
  | line hl _ ih =>
    rw [List.append_assoc]
    exact .line hl ih

theorem Written.readAll (h : Written s lines) {fuel : Nat} (hfuel : lines.length < fuel) :
    Line.readAll fuel s = some lines := by
  induction h generalizing fuel with
  | nil =>
    obtain ⟨fuel, rfl⟩ : ∃ n, fuel = n + 1 := ⟨fuel - 1, by omega⟩
    rfl
  | blank _ ih =>
    have hrest := ih hfuel
    obtain ⟨fuel, rfl⟩ : ∃ n, fuel = n + 1 := ⟨fuel - 1, by omega⟩
    exact hrest
  | @line text s l lines hl _ ih =>
    obtain ⟨fuel, rfl⟩ : ∃ n, fuel = n + 1 := ⟨fuel - 1, by omega⟩
    have hrest := ih (Nat.lt_of_succ_lt_succ hfuel)
    have hend : endLine false ('\n' :: s) = some s := rfl
    obtain ⟨c, t, rfl, hc⟩ := hl.starts
    have hread := hl.read s
    rw [List.cons_append] at hread ⊢
    rw [Line.readAll, Spells.skipTrivia_of_isStart hc, Option.bind_eq_bind, Option.bind_some]
    split
    · rename_i heq
      cases heq
    · simp only [hread, Option.bind_some, Option.bind_eq_bind, hend, hrest]
      rfl

theorem Written.length_le (h : Written s lines) : lines.length ≤ s.length := by
  induction h with
  | nil => exact Nat.le_refl 0
  | blank _ ih => exact Nat.le_succ_of_le ih
  | line _ _ ih =>
    simp only [List.length_append, List.length_cons]
    omega

/-- No line is written with a byte order mark in front. -/
theorem Written.head?_ne (h : Written s lines) : s.head? ≠ some '\uFEFF' := by
  cases h with
  | nil => simp
  | blank _ => simp
  | line hl _ =>
    obtain ⟨c, t, rfl, hc⟩ := hl.starts
    intro heq
    obtain rfl := Option.some.inj heq
    cases hc

theorem Written.ofText? (h : Written s lines) : Line.ofText? s = some lines := by
  have hlength := h.length_le
  have hread : Line.readAll (s.length + 1) s = some lines := h.readAll (by omega)
  unfold Line.ofText?
  split
  · exact absurd rfl h.head?_ne
  · exact hread

end Line

end Toml
end MemoryBus
