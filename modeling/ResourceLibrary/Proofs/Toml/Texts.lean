import Mathlib.Tactic.SplitIfs
import ResourceLibrary.Toml.Lexeme

/-!
Texts written and read again. Main statement: a text is read from each of the forms that it may be
written in, if the character after it is no quotation mark.
-/

namespace ResourceLibrary.Toml

theorem hexValue?_hexDigit : ∀ digit < 16, hexValue? (hexDigit digit) = some digit := by decide

theorem hexChar?_digits {n : Nat} (low : n < 0xd800) :
    hexChar? [hexDigit (n / 4096 % 16), hexDigit (n / 256 % 16), hexDigit (n / 16 % 16),
      hexDigit (n % 16)] = some (.ofNat n) := by
  have digit := fun m => hexValue?_hexDigit (m % 16) (Nat.mod_lt m (by decide))
  have number : 16 * (16 * (16 * (16 * 0 + n / 4096 % 16) + n / 256 % 16) + n / 16 % 16) + n % 16 =
      n := by
    omega
  simp only [hexChar?, List.mapM_cons, List.mapM_nil, digit, pure, bind, Option.bind_some,
    List.foldl_cons, List.foldl_nil, number]
  simp [low]

theorem toNat_lt_of_isControl {c : Char} (control : isControl c = true) : c.toNat < 0x80 := by
  simp only [isControl, Bool.or_eq_true, Bool.and_eq_true, decide_eq_true_eq, beq_iff_eq] at control
  omega

theorem hiddenLine?_eq_none {c : Char} (rest : List Char) (blank : isBlank c = false)
    (feed : c ≠ '\n') (turn : c ≠ '\r') : hiddenLine? (c :: rest) = none := by
  simp [hiddenLine?, skipBlanks, blank, lineFeed?, feed, turn]

structure Escapes (tail : List Char) (c : Char) : Prop where
  line : ∀ rest, hiddenLine? (tail ++ rest) = none
  read : ∀ rest, escaped? (tail ++ rest) = some (c, rest)

theorem escapes_mark : Escapes ['"'] '"' := ⟨fun _ => rfl, fun _ => rfl⟩
theorem escapes_feed : Escapes ['n'] '\n' := ⟨fun _ => rfl, fun _ => rfl⟩

theorem escape_cases (c : Char) :
    (escape c = [c] ∧ c ≠ '\\' ∧ isControl c = false) ∨
    ∃ tail, escape c = '\\' :: tail ∧ Escapes tail c := by
  have mark : ∀ {letter : Char}, isBlank letter = false → letter ≠ '\n' → letter ≠ '\r' →
      (∀ rest, escaped? (letter :: rest) = some (c, rest)) → Escapes [letter] c :=
    fun blank feed turn read => ⟨fun rest => hiddenLine?_eq_none rest blank feed turn, read⟩
  unfold escape
  split
  · next same =>
    subst same
    exact .inr ⟨['b'], rfl, mark rfl (by decide) (by decide) fun _ => rfl⟩
  split
  · next same =>
    subst same
    exact .inr ⟨['t'], rfl, mark rfl (by decide) (by decide) fun _ => rfl⟩
  split
  · next same =>
    subst same
    exact .inr ⟨['f'], rfl, mark rfl (by decide) (by decide) fun _ => rfl⟩
  split
  · next same =>
    subst same
    exact .inr ⟨['r'], rfl, mark rfl (by decide) (by decide) fun _ => rfl⟩
  split
  · next same =>
    subst same
    exact .inr ⟨['\\'], rfl, mark rfl (by decide) (by decide) fun _ => rfl⟩
  next slash =>
  split
  · next control =>
    refine .inr ⟨_, rfl, fun rest => hiddenLine?_eq_none _ rfl (by decide) (by decide),
      fun rest => ?_⟩
    have low := Nat.lt_trans (toNat_lt_of_isControl control) (show 0x80 < 0xd800 by decide)
    simp only [List.cons_append, List.nil_append, escaped?, hexChar?_digits low, Char.ofNat_toNat]
    rfl
  · next plain => exact .inl ⟨rfl, slash, by simpa using plain⟩

section
variable {c : Char} {tail rest : List Char}

theorem basic?_escaped (escapes : Escapes tail c) :
    basic? ('\\' :: (tail ++ rest)) = withHead c (basic? rest) := by
  rw [basic?]
  split
  · next read =>
    rw [escapes.read] at read
    cases read
    rfl
  · next read =>
    rw [escapes.read] at read
    cases read

theorem basic?_plain (quote : c ≠ '"') (slash : c ≠ '\\') (plain : isControl c = false)
    (feed : c ≠ '\n') : basic? (c :: rest) = withHead c (basic? rest) := by
  rw [basic?.eq_def]
  split <;> simp_all

theorem multiBasic?_escaped (escapes : Escapes tail c) :
    multiBasic? ('\\' :: (tail ++ rest)) = withHead c (multiBasic? rest) := by
  rw [multiBasic?]
  split
  · next line =>
    rw [escapes.line] at line
    cases line
  · split
    · next read =>
      rw [escapes.read] at read
      cases read
      rfl
    · next read =>
      rw [escapes.read] at read
      cases read

theorem multiBasic?_plain (quote : c ≠ '"') (slash : c ≠ '\\') (plain : isControl c = false) :
    multiBasic? (c :: rest) = withHead c (multiBasic? rest) := by
  have turn : c ≠ '\r' := by
    rintro rfl
    cases plain
  rw [multiBasic?.eq_def]
  split <;> simp_all

end

theorem basic?_escapeLine (text rest : List Char) :
    basic? (escapeLine text ++ '"' :: rest) = some (text, rest) := by
  induction text with
  | nil => simp [escapeLine, basic?]
  | cons c text ih =>
    have step : ∀ front : List Char, (∀ later, basic? (front ++ later) = withHead c (basic? later)) →
        basic? (front ++ escapeLine text ++ '"' :: rest) = some (c :: text, rest) := by
      intro front reads
      rw [List.append_assoc, reads, ih]
      rfl
    rw [escapeLine, List.flatMap_cons]
    refine step _ fun later => ?_
    split
    · next same =>
      subst same
      exact basic?_escaped escapes_mark
    split
    · next same =>
      subst same
      exact basic?_escaped escapes_feed
    next quote feed =>
    rcases escape_cases c with ⟨own, slash, plain⟩ | ⟨tail, written, escapes⟩
    · rw [own]
      exact basic?_plain quote slash plain feed
    · rw [written]
      exact basic?_escaped escapes

theorem literal?_append {text : List Char} (rest : List Char) (apostrophe : '\x27' ∉ text)
    (plain : text.any isControl = false) (line : '\n' ∉ text) :
    literal? (text ++ '\x27' :: rest) = some (text, rest) := by
  induction text with
  | nil => simp [literal?]
  | cons c text ih =>
    simp only [List.mem_cons, not_or, List.any_cons, Bool.or_eq_false_iff] at apostrophe plain line
    rw [List.cons_append, literal?, if_neg (Ne.symm apostrophe.1), plain.1,
      ih apostrophe.2 plain.2 line.2]
    simp [Ne.symm line.1, withHead]

/-- A reader that takes single marks as they stand takes up to two in a row so, if another character
follows. -/
theorem read_marks {read : List Char → Option (List Char × List Char)} {mark c : Char}
    (one : ∀ text, (∀ later, text ≠ mark :: mark :: later) →
      read (mark :: text) = withHead mark (read text))
    (other : c ≠ mark) {n : Nat} (few : n ≤ 2) (rest : List Char) :
    read (List.replicate n mark ++ c :: rest) =
      (read (c :: rest)).map fun (content, after) => (List.replicate n mark ++ content, after) := by
  match n, few with
  | 0, _ => simp
  | 1, _ =>
    rw [List.replicate_one, List.singleton_append, one _ (by simp [other])]
    rfl
  | 2, _ =>
    rw [show List.replicate 2 mark ++ c :: rest = mark :: mark :: c :: rest from rfl,
      one _ (by simp [other]), one _ (by simp [other])]
    cases read (c :: rest) <;> rfl

section
variable {n : Nat} (few : n ≤ 2)
include few

theorem multiBasic?_quotes {c : Char} (quote : c ≠ '"') (rest : List Char) :
    multiBasic? (List.replicate n '"' ++ c :: rest) =
      (multiBasic? (c :: rest)).map fun (content, after) =>
        (List.replicate n '"' ++ content, after) := by
  refine read_marks (fun text alone => ?_) quote few rest
  rw [multiBasic?.eq_def]
  have plain : isControl '"' = false := rfl
  split <;> grind

theorem multiBasic?_end {rest : List Char} (after : rest.head? ≠ some '"') :
    multiBasic? (List.replicate n '"' ++ '"' :: '"' :: '"' :: rest) =
      some (List.replicate n '"', rest) := by
  match n, few with
  | 0, _ | 1, _ | 2, _ =>
    simp only [List.replicate_succ, List.replicate_zero, List.cons_append, List.nil_append]
    rw [multiBasic?.eq_def]
    split <;> grind

/-- A text with each third quotation mark of a row escaped is read on several lines. The marks that
stand right before it count. -/
theorem multiBasic?_escapeLines (text : List Char) {rest : List Char} (after : rest.head? ≠ some '"') :
    multiBasic? (List.replicate n '"' ++ (escapeLines n text ++ '"' :: '"' :: '"' :: rest)) =
      some (List.replicate n '"' ++ text, rest) := by
  induction text generalizing n with
  | nil =>
    rw [escapeLines, List.nil_append, List.append_nil]
    exact multiBasic?_end few after
  | cons c text ih =>
    have none : multiBasic? (escapeLines 0 text ++ '"' :: '"' :: '"' :: rest) = some (text, rest) :=
      ih (Nat.zero_le 2)
    rw [escapeLines]
    split
    · next same =>
      subst same
      split
      · next last =>
        subst last
        rw [List.cons_append, multiBasic?_quotes few (by decide), List.cons_append,
          show '"' :: (escapeLines 0 text ++ '"' :: '"' :: '"' :: rest) =
            ['"'] ++ (escapeLines 0 text ++ '"' :: '"' :: '"' :: rest) from rfl,
          multiBasic?_escaped escapes_mark, none]
        rfl
      · next notLast =>
        have next := @ih (n + 1) (by omega)
        rw [List.replicate_succ', List.append_assoc, List.append_assoc] at next
        exact next
    · next quote =>
      have step : ∀ (head : Char) (front : List Char), head ≠ '"' →
          (∀ later, multiBasic? (head :: (front ++ later)) = withHead c (multiBasic? later)) →
          multiBasic? (List.replicate n '"' ++ (head :: front ++ escapeLines 0 text ++
            '"' :: '"' :: '"' :: rest)) = some (List.replicate n '"' ++ c :: text, rest) := by
        intro head front start reads
        rw [List.append_assoc, List.cons_append, multiBasic?_quotes few start, reads, none]
        rfl
      split
      · next feed =>
        subst feed
        exact step _ [] (by decide) fun later =>
          multiBasic?_plain (by decide) (by decide) rfl
      rcases escape_cases c with ⟨own, slash, plain⟩ | ⟨tail, written, escapes⟩
      · rw [own]
        exact step _ [] quote fun later => multiBasic?_plain quote slash plain
      · rw [written]
        exact step _ _ (by decide) fun later => multiBasic?_escaped escapes

end

section
variable {n : Nat} (few : n ≤ 2)
include few

theorem multiLiteral?_apostrophes {c : Char} (apostrophe : c ≠ '\x27') (rest : List Char) :
    multiLiteral? (List.replicate n '\x27' ++ c :: rest) =
      (multiLiteral? (c :: rest)).map fun (content, after) =>
        (List.replicate n '\x27' ++ content, after) := by
  refine read_marks (fun text alone => ?_) apostrophe few rest
  rw [multiLiteral?.eq_def]
  have plain : isControl '\x27' = false := rfl
  split <;> grind

theorem multiLiteral?_end {rest : List Char} (after : rest.head? ≠ some '\x27') :
    multiLiteral? (List.replicate n '\x27' ++ '\x27' :: '\x27' :: '\x27' :: rest) =
      some (List.replicate n '\x27', rest) := by
  match n, few with
  | 0, _ | 1, _ | 2, _ =>
    simp only [List.replicate_succ, List.replicate_zero, List.cons_append, List.nil_append]
    rw [multiLiteral?.eq_def]
    split <;> grind

end

theorem le_longestRun_step (target : Char) (text : List Char) (state : Nat × Nat) :
    state.2 ≤ (text.foldl (longestRun.step target) state).2 := by
  induction text generalizing state with
  | nil => exact Nat.le_refl _
  | cons c text ih => exact Nat.le_trans (Nat.le_max_left ..) (ih (longestRun.step target state c))

theorem multiLiteral?_append {text : List Char} (plain : text.any isControl = false) {n best : Nat}
    (few : n ≤ 2) (rows : (text.foldl (longestRun.step '\x27') (n, best)).2 ≤ 2) {rest : List Char}
    (after : rest.head? ≠ some '\x27') :
    multiLiteral? (List.replicate n '\x27' ++ (text ++ '\x27' :: '\x27' :: '\x27' :: rest)) =
      some (List.replicate n '\x27' ++ text, rest) := by
  induction text generalizing n best with
  | nil =>
    rw [List.nil_append, List.append_nil]
    exact multiLiteral?_end few after
  | cons c text ih =>
    rw [List.any_cons, Bool.or_eq_false_iff] at plain
    rw [List.foldl_cons, longestRun.step] at rows
    by_cases same : c = '\x27'
    · subst same
      have longer := Nat.le_trans (le_longestRun_step ..) rows
      have next := ih plain.2 (Nat.le_trans (Nat.le_max_right ..) longer) rows
      rw [if_pos rfl, List.replicate_succ', List.append_assoc, List.append_assoc] at next
      exact next
    · rw [if_neg same] at rows
      have turn : c ≠ '\r' := by
        rintro rfl
        cases plain.1
      have own : ∀ later, multiLiteral? (c :: later) = withHead c (multiLiteral? later) := by
        intro later
        rw [multiLiteral?.eq_def]
        split <;> grind
      have next := ih plain.2 (Nat.zero_le 2) rows
      rw [List.replicate_zero, List.nil_append] at next
      rw [List.cons_append, multiLiteral?_apostrophes few same, own, next]
      rfl

theorem text?_of_basic {text : List Char} (single : ∀ later, text ≠ '"' :: '"' :: later) :
    text? ('"' :: text) = basic? text := by
  rw [text?.eq_def]
  split <;> grind

theorem text?_of_literal {text : List Char} (single : ∀ later, text ≠ '\x27' :: '\x27' :: later) :
    text? ('\x27' :: text) = literal? text := by
  rw [text?.eq_def]
  split <;> grind

theorem lineFeed?_getD (hasLines : Bool) (content : List Char)
    (start : hasLines = false → content.head? ≠ some '\n' ∧ content.head? ≠ some '\r') :
    (lineFeed? ((if hasLines then ['\n'] else []) ++ content)).getD
      ((if hasLines then ['\n'] else []) ++ content) = content := by
  cases hasLines with
  | true => rfl
  | false =>
    obtain ⟨feed, turn⟩ := start rfl
    rw [if_neg (by decide), List.nil_append]
    unfold lineFeed?
    split <;> grind

theorem head?_escapeLines {n : Nat} {text : List Char} (line : '\n' ∉ text) (rest : List Char) :
    (escapeLines n text ++ '"' :: rest).head? ≠ some '\n' ∧
      (escapeLines n text ++ '"' :: rest).head? ≠ some '\r' := by
  cases text with
  | nil => simp [escapeLines]
  | cons c text =>
    rw [escapeLines]
    rcases escape_cases c with ⟨own, _, plain⟩ | ⟨tail, written, _⟩
    · have turn : c ≠ '\r' := by
        rintro rfl
        cases plain
      grind
    · grind

theorem head?_escapeLine (text : List Char) : (escapeLine text).head? ≠ some '"' := by
  cases text with
  | nil => simp [escapeLine]
  | cons c text =>
    rw [escapeLine, List.flatMap_cons]
    rcases escape_cases c with ⟨own, _, plain⟩ | ⟨tail, written, _⟩ <;> grind

theorem exists_quote_eq (text : List Char) :
    ∃ c later, quote text = c :: later ∧ (c = '"' ∨ c = '\x27') := by
  simp only [quote, enclosed]
  split_ifs <;> simp

section
variable (text : List Char) {rest : List Char}

theorem text?_basic (quote : rest.head? ≠ some '"') :
    text? ('"' :: (escapeLine text ++ ['"']) ++ rest) = some (text, rest) := by
  rw [List.cons_append, List.append_assoc, List.singleton_append, text?_of_basic,
    basic?_escapeLine]
  have head := head?_escapeLine text
  cases written : escapeLine text with
  | nil => cases rest <;> simp_all
  | cons c later => simp_all

theorem text?_literal (apostrophe : rest.head? ≠ some '\x27') (plain : text.any isControl = false)
    (line : '\n' ∉ text) (free : '\x27' ∉ text) :
    text? ('\x27' :: (text ++ ['\x27']) ++ rest) = some (text, rest) := by
  rw [List.cons_append, List.append_assoc, List.singleton_append, text?_of_literal,
    literal?_append rest free plain line]
  cases text with
  | nil => cases rest <;> simp_all
  | cons c later => grind

theorem text?_multiBasic (quote : rest.head? ≠ some '"') :
    text? (enclosed ['"', '"', '"'] (text.contains '\n') (escapeLines 0 text) ++ rest) =
      some (text, rest) := by
  have content := lineFeed?_getD (text.contains '\n')
    (escapeLines 0 text ++ '"' :: '"' :: '"' :: rest)
    fun line => head?_escapeLines (by simpa using line) _
  rw [enclosed, List.append_assoc, List.append_assoc, List.append_assoc]
  simp only [List.cons_append, List.nil_append, text?, content]
  exact multiBasic?_escapeLines (Nat.zero_le 2) text quote

theorem text?_multiLiteral (apostrophe : rest.head? ≠ some '\x27')
    (plain : text.any isControl = false) (rows : longestRun '\x27' text ≤ 2) :
    text? (enclosed ['\x27', '\x27', '\x27'] (text.contains '\n') text ++ rest) =
      some (text, rest) := by
  have content := lineFeed?_getD (text.contains '\n')
    (text ++ '\x27' :: '\x27' :: '\x27' :: rest) (by
      intro line
      cases text with
      | nil => simp
      | cons c later =>
        rw [List.any_cons, Bool.or_eq_false_iff] at plain
        have turn : c ≠ '\r' := by
          rintro rfl
          cases plain.1
        grind)
  rw [enclosed, List.append_assoc, List.append_assoc, List.append_assoc]
  simp only [List.cons_append, List.nil_append, text?, content]
  exact multiLiteral?_append plain (Nat.zero_le 2) rows apostrophe

variable (rest) in
theorem text?_quote (quote : rest.head? ≠ some '"') (apostrophe : rest.head? ≠ some '\x27') :
    text? (Toml.quote text ++ rest) = some (text, rest) := by
  simp only [Toml.quote]
  split
  · exact text?_basic text quote
  split
  · next literal =>
    simp only [Bool.and_eq_true, Bool.not_eq_true', List.contains_eq_mem,
      decide_eq_false_iff_not] at literal
    exact text?_literal text apostrophe literal.1.2 literal.1.1 literal.2
  split
  · exact text?_multiBasic text quote
  split
  · next literal =>
    simp only [Bool.and_eq_true, Bool.not_eq_true', decide_eq_true_eq] at literal
    exact text?_multiLiteral text apostrophe literal.1 literal.2
  split
  · exact text?_multiBasic text quote
  · exact text?_basic text quote

end

end ResourceLibrary.Toml
