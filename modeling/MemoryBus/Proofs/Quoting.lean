import MemoryBus.Toml.Printer

/-! A text that is written in quotes is read back, whatever form the quotes have. -/
namespace MemoryBus

/-! The digits of a character's code. -/

theorem Hex.leftpad_upper : ∀ n < 128, (upper n).leftpad 4 '0' =
    ['0', '0', (Nat.digitChar (n / 16)).toUpper, (Nat.digitChar (n % 16)).toUpper] := by decide

theorem Hex.digit?_toUpper_digitChar : ∀ d < 16, digit? (Nat.digitChar d).toUpper = some d := by decide

namespace Toml

open Quoted Printer

namespace Quoted

variable {multi : Bool} {q c d : Char} {s rest : List Char}

/-! Steps of a basic string. -/

theorem basic_plain (multi : Bool) (c : Char) (s : List Char) : basic multi .plain (c :: s) =
    if c = '"' then (close? multi '"' s).or (push c (basic multi .plain s))
    else if c = '\\' then basic multi .escape s
    else if multi ∧ lineEnds c s then push c (basic multi .plain s)
    else if isControl c then none
    else push c (basic multi .plain s) := by
  rw [basic]
  cases close? multi '"' s <;> simp

theorem basic_escape (hd : escape? c = some (.char d)) (s : List Char) :
    basic multi .plain ('\\' :: c :: s) = push d (basic multi .plain s) := by
  rw [basic_plain, if_neg (by decide), if_pos rfl, basic]
  simp [hd]

theorem basic_code {n : Nat} (hn : Hex.digit? c = some n) (digits value : Nat) (s : List Char) :
    basic multi (.code (digits + 2) value) (c :: s) = basic multi (.code (digits + 1) (16 * value + n)) s := by
  rw [basic]
  simp [hn]

theorem charOfCode?_toNat (c : Char) : charOfCode? c.toNat = some c := by
  have hvalid : c.toNat.isValidChar := c.valid
  rw [charOfCode?, if_pos hvalid, Char.ofNat_toNat]

theorem basic_code_last {n value : Nat} (hn : Hex.digit? c = some n) (hd : 16 * value + n = d.toNat)
    (s : List Char) : basic multi (.code 1 value) (c :: s) = push d (basic multi .plain s) := by
  rw [basic]
  simp [hn, hd, charOfCode?_toNat]

theorem toNat_lt_of_isControl (hc : isControl c = true) : c.toNat < 128 := by
  simp only [isControl, Bool.or_eq_true, Bool.and_eq_true, decide_eq_true_eq, beq_iff_eq] at hc
  omega

theorem basic_unicodeEscape (hc : isControl c = true) (s : List Char) :
    basic multi .plain (unicodeEscape c ++ s) = push c (basic multi .plain s) := by
  have hlt := toNat_lt_of_isControl hc
  have hhigh := Hex.digit?_toUpper_digitChar (c.toNat / 16) (by omega)
  have hlow := Hex.digit?_toUpper_digitChar (c.toNat % 16) (by omega)
  have hzero : Hex.digit? '0' = some 0 := by decide
  have hopens (s : List Char) : basic multi .plain ('\\' :: 'u' :: s) = basic multi (.code 4 0) s := by
    rw [basic_plain, if_neg (by decide), if_pos rfl, basic]
    rfl
  rw [unicodeEscape, Hex.leftpad_upper _ hlt]
  simp only [List.cons_append, List.nil_append]
  rw [hopens, basic_code hzero, basic_code hzero, basic_code hhigh, basic_code_last hlow]
  omega

/-- An escaped character is read as itself. -/
theorem basic_escapeChar (multi : Bool) (c : Char) (s : List Char) :
    basic multi .plain (escapeChar c ++ s) = push c (basic multi .plain s) := by
  unfold escapeChar
  split
  case h_8 hb ht hn hf hr hbackslash hquote =>
    by_cases hc : isControl c = true
    · rw [if_pos hc, basic_unicodeEscape hc]
    · have hends : lineEnds c s = false := by
        simp only [lineEnds, Bool.or_eq_false_iff, beq_eq_false_iff_ne, Bool.and_eq_false_iff]
        exact ⟨hn, .inl hr⟩
      rw [if_neg hc, List.singleton_append, basic_plain, if_neg hquote, if_neg hbackslash]
      simp [hends, hc]
  all_goals exact basic_escape rfl s

/-! The closing quotes of a string of many lines. Both kinds of string treat quotes alike, so that `f` stands
for either. -/

section

variable {f : List Char → Option (List Char × List Char)}

/-- What is written in front of the contents. -/
def pushAll (cs : List Char) (r : Option (List Char × List Char)) : Option (List Char × List Char) :=
  r.map fun (ds, s) => (cs ++ ds, s)

theorem pushAll_nil (r : Option (List Char × List Char)) : pushAll [] r = r := by cases r <;> rfl

theorem pushAll_cons (c : Char) (cs : List Char) (r : Option (List Char × List Char)) :
    pushAll (c :: cs) r = push c (pushAll cs r) := by cases r <;> rfl

theorem close?_single (hd : d ≠ q) (s : List Char) : close? true q (d :: s) = none := by
  cases s <;> simp [close?, hd]

theorem close?_pair (hd : d ≠ q) (s : List Char) : close? true q (q :: d :: s) = none := by
  simp [close?, hd]

theorem extraQuotes_replicate (hrest : rest.head? ≠ some q) {n : Nat} (hn : n ≤ 2) :
    extraQuotes q (List.replicate n q ++ rest) = (List.replicate n q, rest) := by
  have hne : ∀ c s, rest = c :: s → c ≠ q := by
    rintro c s rfl rfl
    exact hrest rfl
  rcases n with _ | _ | _ | n
  · rcases rest with _ | ⟨c, _ | ⟨d, s⟩⟩
    · rfl
    · simp [extraQuotes, hne c [] rfl]
    · simp [extraQuotes, hne c (d :: s) rfl]
  · rcases rest with _ | ⟨c, s⟩
    · simp [extraQuotes]
    · simp [extraQuotes, hne c s rfl]
  · simp [extraQuotes, List.replicate_succ]
  · omega

variable (hf : ∀ s, f (q :: s) = (close? true q s).or (push q (f s)))
include hf

/-- One or two quotes that another character follows close nothing. -/
theorem quotes_pass (hd : d ≠ q) {n : Nat} (hn : n ≤ 2) (s : List Char) :
    f (List.replicate n q ++ d :: s) = pushAll (List.replicate n q) (f (d :: s)) := by
  rcases n with _ | _ | _ | n
  · exact (pushAll_nil _).symm
  · simp [hf, close?_single hd, pushAll_cons, pushAll_nil]
  · simp [hf, List.replicate_succ, close?_single hd, close?_pair hd, pushAll_cons, pushAll_nil]
  · omega

/-- One or two quotes right before the closing ones belong to the string. -/
theorem quotes_close (hrest : rest.head? ≠ some q) {n : Nat} (hn : n ≤ 2) :
    f (List.replicate n q ++ q :: q :: q :: rest) = some (List.replicate n q, rest) := by
  have hextra := extraQuotes_replicate hrest hn
  have hquotes : List.replicate n q ++ q :: q :: q :: rest = q :: q :: q :: (List.replicate n q ++ rest) := by
    rcases n with _ | _ | _ | n
    · rfl
    · rfl
    · rfl
    · omega
  rw [hquotes, hf]
  simp [close?, hextra]

end

/-! The contents of a string up to its closing quotes. -/

theorem push_some (c : Char) (cs s : List Char) : push c (some (cs, s)) = some (c :: cs, s) := rfl

theorem pushAll_some (cs ds s : List Char) : pushAll cs (some (ds, s)) = some (cs ++ ds, s) := rfl

theorem basic_escaped (s rest : List Char) :
    basic false .plain (s.flatMap escapeChar ++ '"' :: rest) = some (s, rest) := by
  induction s with
  | nil =>
    rw [List.flatMap_nil, List.nil_append, basic_plain, if_pos rfl]
    rfl
  | cons c s ih => rw [List.flatMap_cons, List.append_assoc, basic_escapeChar, ih, push_some]

/-- A character with which a literal string goes on. -/
theorem literal_push (hquote : c ≠ '\'') (hc : isControl c = false) (s : List Char) :
    literal multi (c :: s) = push c (literal multi s) := by
  rw [literal]
  simp [hquote, hc]

theorem literal_newline (s : List Char) : literal true ('\n' :: s) = push '\n' (literal true s) := by
  rw [literal]
  simp [lineEnds]

theorem literal_line (hs : ∀ c ∈ s, c ≠ '\'' ∧ isControl c = false) (rest : List Char) :
    literal false (s ++ '\'' :: rest) = some (s, rest) := by
  induction s with
  | nil => rfl
  | cons c s ih =>
    obtain ⟨hquote, hc⟩ := hs c (by simp)
    rw [List.cons_append, literal_push hquote hc, ih fun c hc => hs c (by simp [hc]), push_some]

theorem literal_quote (s : List Char) :
    literal true ('\'' :: s) = (close? true '\'' s).or (push '\'' (literal true s)) := by
  rw [literal]
  cases close? true '\'' s <;> simp

theorem basic_quote (s : List Char) :
    basic true .plain ('"' :: s) = (close? true '"' s).or (push '"' (basic true .plain s)) := by
  rw [basic_plain, if_pos rfl]

/-- `n` quotes have been seen so far, and nowhere more than two in a row. -/
theorem literal_lines (hs : ∀ c ∈ s, needsEscape c = false) (n : Nat) (hn : longestRun '\'' n s ≤ 2)
    (hrest : rest.head? ≠ some '\'') :
    literal true (List.replicate n '\'' ++ (s ++ '\'' :: '\'' :: '\'' :: rest)) =
      some (List.replicate n '\'' ++ s, rest) := by
  induction s generalizing n with
  | nil =>
    rw [List.append_nil]
    exact quotes_close literal_quote hrest hn
  | cons c s ih =>
    have hrun := ih fun c hc => hs c (by simp [hc])
    rw [longestRun] at hn
    by_cases hc : c = '\''
    · subst hc
      rw [if_pos rfl] at hn
      have hnext := hrun (n + 1) hn
      rw [List.replicate_succ'] at hnext
      simpa using hnext
    · rw [if_neg hc] at hn
      have hnext := hrun 0 (by omega)
      have hpush (t : List Char) : literal true (c :: t) = push c (literal true t) := by
        by_cases hnewline : c = '\n'
        · subst hnewline
          exact literal_newline t
        · have hcontrol : isControl c = false := by simpa [needsEscape, hnewline] using hs c (by simp)
          exact literal_push hc hcontrol t
      rw [List.cons_append, quotes_pass literal_quote hc (by omega), hpush]
      simp only [List.replicate_zero, List.nil_append] at hnext
      rw [hnext, push_some, pushAll_some]

/-- An escaped character begins with no quote and no newline. -/
theorem exists_escapeChar (c : Char) : ∃ d t, escapeChar c = d :: t ∧ d ≠ '"' ∧ d ≠ '\n' ∧ d ≠ '\r' := by
  unfold escapeChar
  split
  case h_8 hb ht hn hf hr hbackslash hquote =>
    split
    · exact ⟨_, _, rfl, by decide⟩
    · exact ⟨_, _, rfl, hquote, hn, hr⟩
  all_goals exact ⟨_, _, rfl, by decide⟩

/-- `n` quotes have just been written. -/
theorem basic_lines (s : List Char) (n : Nat) (hn : n ≤ 2) (hrest : rest.head? ≠ some '"') :
    basic true .plain (List.replicate n '"' ++ (multiBasicBody n s ++ '"' :: '"' :: '"' :: rest)) =
      some (List.replicate n '"' ++ s, rest) := by
  induction s generalizing n with
  | nil =>
    rw [List.append_nil]
    exact quotes_close basic_quote hrest hn
  | cons c s ih =>
    have hfresh := ih 0 (by omega)
    simp only [List.replicate_zero, List.nil_append] at hfresh
    rw [multiBasicBody]
    by_cases hquote : c = '"'
    · subst hquote
      rw [if_pos rfl]
      by_cases hfew : n < 2
      · have hnext := ih (n + 1) hfew
        rw [List.replicate_succ'] at hnext
        rw [if_pos hfew]
        simpa using hnext
      · rw [if_neg hfew, List.cons_append, quotes_pass basic_quote (by decide) hn, List.cons_append,
          basic_escape rfl, hfresh, push_some, pushAll_some]
    · rw [if_neg hquote]
      by_cases hnewline : c = '\n'
      · subst hnewline
        have hpush (t : List Char) : basic true .plain ('\n' :: t) = push '\n' (basic true .plain t) := by
          rw [basic_plain]
          simp [lineEnds]
        rw [if_pos rfl, List.cons_append, quotes_pass basic_quote (by decide) hn, hpush, hfresh, push_some,
          pushAll_some]
      · obtain ⟨d, t, hd, hne, -⟩ := exists_escapeChar c
        have hstep := basic_escapeChar true c (multiBasicBody 0 s ++ '"' :: '"' :: '"' :: rest)
        rw [hfresh, push_some, hd] at hstep
        rw [if_neg hnewline, List.append_assoc, hd, List.cons_append, quotes_pass basic_quote hne hn]
        rw [List.cons_append] at hstep
        rw [hstep, pushAll_some]

/-! Opening quotes. -/

theorem read?_line {cs : List Char} (hcs : cs.head? ≠ some q) (hrest : rest.head? ≠ some q) :
    read? (q :: (cs ++ q :: rest)) = readLine? (q :: (cs ++ q :: rest)) := by
  have hthree (t : List Char) : q :: (cs ++ q :: rest) ≠ q :: q :: q :: t := by
    rcases cs with _ | ⟨c, cs⟩
    · rintro heq
      simp only [List.nil_append, List.cons.injEq, true_and] at heq
      exact hrest (by simp [heq])
    · rintro heq
      simp only [List.cons_append, List.cons.injEq, true_and] at heq
      exact hcs (by simp [heq.1])
  unfold read?
  split
  · rename_i t heq
    obtain rfl : q = '"' := (List.cons.inj heq).1
    exact absurd heq (hthree t)
  · rename_i t heq
    obtain rfl : q = '\'' := (List.cons.inj heq).1
    exact absurd heq (hthree t)
  · rfl

theorem dropNewline_opening {cs : List Char} (hcs : '\n' ∉ s → ∀ t, cs ≠ '\n' :: t ∧ cs ≠ '\r' :: t) :
    dropNewline (opening s ++ cs) = cs := by
  unfold opening
  by_cases hs : '\n' ∈ s
  · simp [hs, dropNewline]
  · have hnone := hcs hs
    simp only [List.contains_eq_mem, hs, decide_false, Bool.false_eq_true, if_false, List.nil_append]
    unfold dropNewline
    split
    · exact absurd rfl (hnone _).1
    · exact absurd rfl (hnone _).2
    · rfl

end Quoted

namespace Printer

variable {q : Char} {s rest : List Char}

theorem le_longestRun (q : Char) (run : Nat) (s : List Char) : run ≤ longestRun q run s := by
  induction s generalizing run with
  | nil => exact Nat.le_refl run
  | cons c s ih =>
    rw [longestRun]
    split
    · exact Nat.le_of_succ_le (ih (run + 1))
    · exact Nat.le_max_left ..

theorem not_mem_of_longestRun (hs : longestRun q 0 s = 0) : q ∉ s := by
  induction s with
  | nil => simp
  | cons c s ih =>
    rw [longestRun] at hs
    by_cases hc : c = q
    · have hone := le_longestRun q (0 + 1) s
      rw [if_pos hc] at hs
      omega
    · rw [if_neg hc] at hs
      have hrest := ih (by omega)
      simp [Ne.symm hc, hrest]

theorem escapes_eq_false : (traits s).escapes = false ↔ ∀ c ∈ s, needsEscape c = false := by simp [traits]

theorem newline_eq_false : (traits s).newline = false ↔ '\n' ∉ s := by simp [traits]

/-- What the choice of a form says of a text that is shown without escapes. -/
theorem form_cases (s : List Char) : form s = .basic ∨ form s = .multiBasic ∨
    (form s = .literal ∧ (∀ c ∈ s, needsEscape c = false) ∧ '\n' ∉ s ∧ longestRun '\'' 0 s = 0) ∨
    (form s = .multiLiteral ∧ (∀ c ∈ s, needsEscape c = false) ∧ longestRun '\'' 0 s ≤ 2) := by
  unfold form
  simp only [Bool.not_eq_true', escapes_eq_false, newline_eq_false]
  split
  · exact .inl rfl
  split
  · exact .inl rfl
  split
  case isTrue hliteral => exact .inr (.inr (.inl ⟨rfl, hliteral⟩))
  split
  · exact .inr (.inl rfl)
  split
  case isTrue hlines => exact .inr (.inr (.inr ⟨rfl, hlines⟩))
  split
  · exact .inr (.inl rfl)
  · exact .inl rfl

/-- What is written in quotes is read back, unless a quote follows. -/
theorem read?_quote (s : List Char) (hdouble : rest.head? ≠ some '"') (hsingle : rest.head? ≠ some '\'') :
    Quoted.read? (quote s ++ rest) = some (String.ofList s, rest) := by
  unfold quote
  rcases form_cases s with hform | hform | ⟨hform, hs, hnewline, hrun⟩ | ⟨hform, hs, hrun⟩
  · have hhead : (s.flatMap escapeChar).head? ≠ some '"' := by
      rcases s with _ | ⟨c, s⟩
      · simp
      · obtain ⟨d, t, hd, hquote, -⟩ := exists_escapeChar c
        simpa [hd] using hquote
    have hread := read?_line hhead hdouble
    simp only [hform, List.cons_append, List.append_assoc, List.nil_append]
    rw [hread, readLine?, basic_escaped]
    rfl
  · have hbody := basic_lines s 0 (by omega) hdouble
    simp only [hform, List.cons_append, List.append_assoc, List.nil_append]
    rw [Quoted.read?, dropNewline_opening]
    · exact congrArg toText hbody
    · intro hs t
      rcases s with _ | ⟨c, s⟩
      · simp [multiBasicBody]
      · have hnewline : c ≠ '\n' := fun heq => hs (by simp [heq])
        obtain ⟨d, t', hd, -, hn, hr⟩ := exists_escapeChar c
        by_cases hquote : c = '"'
        · simp [multiBasicBody, hquote]
        · simp [multiBasicBody, hquote, hnewline, hd, hn, hr]
  · have hquote : '\'' ∉ s := not_mem_of_longestRun hrun
    have hplain : ∀ c ∈ s, c ≠ '\'' ∧ isControl c = false := by
      intro c hc
      have hne : c ≠ '\n' := fun heq => hnewline (heq ▸ hc)
      exact ⟨fun heq => hquote (heq ▸ hc), by simpa [needsEscape, hne] using hs c hc⟩
    have hread := read?_line (fun hhead => hquote (List.mem_of_mem_head? hhead)) hsingle
    simp only [hform, List.cons_append, List.append_assoc, List.nil_append]
    rw [hread, readLine?, literal_line hplain]
    rfl
  · have hbody := literal_lines hs 0 hrun hsingle
    simp only [hform, List.cons_append, List.append_assoc, List.nil_append]
    rw [Quoted.read?, dropNewline_opening]
    · exact congrArg toText hbody
    · intro hnone t
      rcases s with _ | ⟨c, s⟩
      · simp
      · have hnewline : c ≠ '\n' := fun heq => hnone (by simp [heq])
        have hreturn : c ≠ '\r' := by
          rintro rfl
          cases hs '\r' (by simp)
        simp [hnewline, hreturn]

end Printer
end Toml
end MemoryBus
