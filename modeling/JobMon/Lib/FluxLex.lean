import Mathlib.Data.List.Basic
import Mathlib.Tactic.Common

/-!
# Reading the text of a Flux query

Flux text is read character by character.  String, regular expression and duration
literals are told apart as the language does it; of everything else only words and single
symbols are kept.

* `step`, `lexFrom`, `lex` — the reader.
* `Piece` — a text is put together from fixed pieces, and from pieces that are meant to
  be the contents of a literal.
* `template`, `fill` — the tokens of the fixed text, and the literals put into them.
* `Contained` — the text is read as its pieces are meant.
* `contained_iff` — that is so exactly when the fixed pieces leave the reader where a
  literal can stand, and every literal is closed where its piece ends.
* `Contained.same_template` — texts that differ in what is put into their literals only
  have the same tokens, these literals apart.
-/

namespace FluxLex

/-! ## Characters and words -/

def backslash : Char := Char.ofNat 92

def newline : Char := Char.ofNat 10

def isSpace (c : Char) : Bool := c == ' ' || c == Char.ofNat 9 || c == newline

/-- A character of an identifier, of a number, or of a duration. -/
def isWordChar (c : Char) : Bool := c.isAlphanum || c == '_' || c == '.' || c == 'µ'

/-- The units of a duration. -/
def durationUnits : List (List Char) :=
  ["y".toList, "mo".toList, "w".toList, "d".toList, "h".toList, "m".toList, "s".toList,
    "ms".toList, "us".toList, "µs".toList, "ns".toList]

/-- How far a duration has been read. -/
inductive DurationState
  | start
  | digits
  | unit (cs : List Char)
  deriving DecidableEq

def DurationState.step : DurationState → Char → Option DurationState
  | start, c => if c.isDigit then some .digits else none
  | digits, c => if c.isDigit then some .digits else some (.unit [c])
  | unit cs, c =>
    if c.isDigit then if cs ∈ durationUnits then some .digits else none
    else some (.unit (cs ++ [c]))

/-- The rest of a duration literal: numbers and units by turns, a unit at the end. -/
def durationFrom : DurationState → List Char → Bool
  | .unit cs, [] => decide (cs ∈ durationUnits)
  | _, [] => false
  | s, c :: cs =>
    match s.step c with
    | some s' => durationFrom s' cs
    | none => false

/-- A duration literal. -/
def isDuration (cs : List Char) : Bool := durationFrom .start cs

/-- The words an operand comes after. -/
def operandWords : List (List Char) :=
  ["and".toList, "or".toList, "not".toList, "return".toList, "if".toList, "then".toList,
    "else".toList, "exists".toList]

/-! ## Literals -/

/-- A literal between delimiters. -/
inductive Kind
  /-- A string, or what follows an expression inside of one. -/
  | str (first : Bool)
  | regex
  deriving DecidableEq

/-- What the last character inside a literal was. -/
inductive Sub
  | plain
  | escaped
  | dollar
  deriving DecidableEq

/-- What a character does inside a literal. -/
inductive Scan
  | more (sub : Sub)
  | close
  /-- An expression begins inside the string. -/
  | interpolate
  /-- The character may not stand there. -/
  | fail
  deriving DecidableEq

def Kind.delimiter : Kind → Char
  | str _ => '"'
  | regex => '/'

def scan : Kind → Sub → Char → Scan
  | _, .escaped, _ => .more .plain
  | .str _, sub, c =>
    if c = '"' then .close
    else if c = backslash then .more .escaped
    else if c = '$' then .more .dollar
    else if sub = .dollar ∧ c = '{' then .interpolate
    else .more .plain
  | .regex, _, c =>
    if c = '/' then .close
    else if c = newline then .fail
    else if c = backslash then .more .escaped
    else .more .plain

/-- Read on inside a literal, as long as it does not end. -/
def scanAll (k : Kind) : Sub → List Char → Option Sub
  | sub, [] => some sub
  | sub, c :: cs =>
    match scan k sub c with
    | .more sub' => scanAll k sub' cs
    | _ => none

/-- The contents of a literal, which ends where they do. -/
def IsContent (k : Kind) (cs : List Char) : Prop :=
  ∃ sub, scanAll k .plain cs = some sub ∧ sub ≠ .escaped

instance (k : Kind) (cs : List Char) : Decidable (IsContent k cs) :=
  match h : scanAll k .plain cs with
  | none => isFalse fun ⟨_, hsub, _⟩ => by rw [h] at hsub; cases hsub
  | some sub =>
    if hesc : sub = .escaped then
      isFalse fun ⟨_, hsub, hne⟩ => by
        rw [h] at hsub
        cases hsub
        exact hne hesc
    else isTrue ⟨sub, h, hesc⟩

/-! ## The reader -/

inductive Token
  /-- A literal, or the part of one up to an expression inside. -/
  | literal (k : Kind) (complete : Bool) (cs : List Char)
  | duration (cs : List Char)
  | word (cs : List Char)
  | symbol (c : Char)
  /-- The text cannot be read. -/
  | bad
  deriving DecidableEq

/-- What the reader is in the middle of. -/
inductive Mode
  | code
  | word (cs : List Char)
  /-- After a slash, which may be an operator or start something. -/
  | slash
  | comment
  | literal (k : Kind) (sub : Sub) (cs : List Char)
  | bad
  deriving DecidableEq

structure State where
  mode : Mode := .code
  /-- An operand comes next: a slash then starts a regular expression. -/
  operand : Bool := true
  /-- The strings around, with the braces that are open in each of their expressions. -/
  braces : List ℕ := []
  deriving DecidableEq

/-- The token of a word. -/
def wordToken (cs : List Char) : Token := if isDuration cs then .duration cs else .word cs

/-- A character outside of words and literals. -/
def codeStep (operand : Bool) (braces : List ℕ) (c : Char) : State × List Token :=
  if isWordChar c then ({ mode := .word [c], operand, braces }, [])
  else if isSpace c then ({ operand, braces }, [])
  else if c = '"' then ({ mode := .literal (.str true) .plain [], operand, braces }, [])
  else if c = '/' then ({ mode := .slash, operand, braces }, [])
  else if c = '{' then
    match braces with
    | [] => ({ braces }, [.symbol c])
    | n :: ns => ({ braces := (n + 1) :: ns }, [.symbol c])
  else if c = '}' then
    match braces with
    | [] => ({ operand := false, braces }, [.symbol c])
    | 0 :: ns => ({ mode := .literal (.str false) .plain [], braces := ns }, [.symbol c])
    | (n + 1) :: ns => ({ operand := false, braces := n :: ns }, [.symbol c])
  else ({ operand := decide (c ≠ ')' ∧ c ≠ ']'), braces }, [.symbol c])

/-- A character inside a literal. -/
def literalStep (k : Kind) (sub : Sub) (cs : List Char) (s : State) (c : Char) :
    State × List Token :=
  match scan k sub c with
  | .more sub' => ({ s with mode := .literal k sub' (cs ++ [c]) }, [])
  | .close => ({ operand := false, braces := s.braces }, [.literal k true cs])
  | .interpolate => ({ braces := 0 :: s.braces }, [.literal k false cs])
  | .fail => ({ s with mode := .bad }, [.bad])

/-- One character: what the reader is in the middle of then, and the tokens it has
completed. -/
def step (s : State) (c : Char) : State × List Token :=
  match s.mode with
  | .code => codeStep s.operand s.braces c
  | .word cs =>
    if isWordChar c then ({ s with mode := .word (cs ++ [c]) }, [])
    else
      let (s', ts) := codeStep (decide (cs ∈ operandWords)) s.braces c
      (s', wordToken cs :: ts)
  | .slash =>
    if c = '/' then ({ s with mode := .comment }, [])
    else if s.operand then literalStep .regex .plain [] s c
    else
      let (s', ts) := codeStep true s.braces c
      (s', .symbol '/' :: ts)
  | .comment => if c = newline then ({ s with mode := .code }, []) else (s, [])
  | .literal k sub cs => literalStep k sub cs s c
  | .bad => (s, [])

/-- The tokens at the end of the text. -/
def finish (s : State) : List Token :=
  match s.mode with
  | .code => []
  | .word cs => [wordToken cs]
  | .slash => [.symbol '/']
  | .comment => []
  | .literal _ _ _ => [.bad]
  | .bad => []

/-- The tokens of a text. -/
def lexFrom (s : State) : List Char → List Token
  | [] => finish s
  | c :: cs => (step s c).2 ++ lexFrom (step s c).1 cs

def lex (text : String) : List Token := lexFrom {} text.toList

/-- What the reader is in the middle of after a text, and the tokens completed on the
way. -/
def run (s : State) : List Char → State × List Token
  | [] => (s, [])
  | c :: cs =>
    let (s', ts) := run (step s c).1 cs
    (s', (step s c).2 ++ ts)

theorem lexFrom_append (s : State) (xs ys : List Char) :
    lexFrom s (xs ++ ys) = (run s xs).2 ++ lexFrom (run s xs).1 ys := by
  induction xs generalizing s with
  | nil => rfl
  | cons c xs ih => rw [List.cons_append, lexFrom, run, ih, List.append_assoc]

/-! ## Inside a literal -/

theorem scanAll_cons_of_more {k : Kind} {sub sub' : Sub} {c : Char} {cs : List Char}
    (h : scan k sub c = .more sub') : scanAll k sub (c :: cs) = scanAll k sub' cs := by
  rw [scanAll, h]

theorem scanAll_append (k : Kind) (sub : Sub) (xs ys : List Char) :
    scanAll k sub (xs ++ ys) = (scanAll k sub xs).bind fun sub' => scanAll k sub' ys := by
  induction xs generalizing sub with
  | nil => rfl
  | cons c xs ih =>
    rw [List.cons_append, scanAll, scanAll]
    cases scan k sub c with
    | more sub' => exact ih sub'
    | close => rfl
    | interpolate => rfl
    | fail => rfl

/-- The delimiter ends a literal, unless it is escaped. -/
theorem scan_eq_close_iff {k : Kind} {sub : Sub} {c : Char} :
    scan k sub c = .close ↔ sub ≠ .escaped ∧ c = k.delimiter := by
  cases k with
  | str first =>
    cases sub with
    | escaped => simp [scan]
    | plain =>
      by_cases hc : c = '"'
      · simp [scan, Kind.delimiter, hc]
      · simp only [scan, Kind.delimiter, hc, if_false]
        split_ifs <;> simp
    | dollar =>
      by_cases hc : c = '"'
      · simp [scan, Kind.delimiter, hc]
      · simp only [scan, Kind.delimiter, hc, if_false]
        split_ifs <;> simp
  | regex =>
    cases sub with
    | escaped => simp [scan]
    | plain =>
      by_cases hc : c = '/'
      · simp [scan, Kind.delimiter, hc]
      · simp only [scan, Kind.delimiter, hc, if_false]
        split_ifs <;> simp
    | dollar =>
      by_cases hc : c = '/'
      · simp [scan, Kind.delimiter, hc]
      · simp only [scan, Kind.delimiter, hc, if_false]
        split_ifs <;> simp

/-- Contents end at once, or go on after their first character. -/
theorem content_cases {k : Kind} {sub : Sub} {c : Char} {cs pre rest : List Char}
    (hcs : c :: cs = pre ++ k.delimiter :: rest)
    (h : ∃ sub', scanAll k sub pre = some sub' ∧ sub' ≠ .escaped) :
    (pre = [] ∧ rest = cs ∧ scan k sub c = .close) ∨
      ∃ sub' pre', pre = c :: pre' ∧ cs = pre' ++ k.delimiter :: rest ∧
        scan k sub c = .more sub' ∧
        ∃ sub'', scanAll k sub' pre' = some sub'' ∧ sub'' ≠ .escaped := by
  obtain ⟨sub', hsub, hne⟩ := h
  cases pre with
  | nil =>
    cases hsub
    obtain ⟨rfl, rfl⟩ := List.cons.inj hcs
    exact .inl ⟨rfl, rfl, scan_eq_close_iff.2 ⟨hne, rfl⟩⟩
  | cons d pre =>
    obtain ⟨rfl, rfl⟩ := List.cons.inj hcs
    right
    cases hscan : scan k sub c with
    | more sub'' =>
      rw [scanAll_cons_of_more hscan] at hsub
      exact ⟨sub'', pre, rfl, rfl, rfl, sub', hsub, hne⟩
    | close => simp [scanAll, hscan] at hsub
    | interpolate => simp [scanAll, hscan] at hsub
    | fail => simp [scanAll, hscan] at hsub

/-- Where a literal neither goes on nor ends, there are no contents. -/
theorem not_content {k : Kind} {sub : Sub} {c : Char} {cs : List Char}
    (hmore : ∀ sub', scan k sub c ≠ .more sub') (hclose : scan k sub c ≠ .close)
    {pre rest : List Char} (hcs : c :: cs = pre ++ k.delimiter :: rest) :
    ¬ ∃ sub', scanAll k sub pre = some sub' ∧ sub' ≠ .escaped := by
  intro hpre
  rcases content_cases hcs hpre with ⟨-, -, hends⟩ | ⟨sub', pre', -, -, hgoes, -⟩
  · exact hclose hends
  · exact hmore sub' hgoes

/-- **What is read as a complete literal** is the text up to a delimiter that is not
escaped. -/
theorem lexFrom_literal_iff {k : Kind} {sub : Sub} {acc x : List Char} {operand : Bool}
    {braces : List ℕ} {cs : List Char} {ts : List Token} :
    lexFrom { mode := .literal k sub acc, operand, braces } cs = .literal k true x :: ts ↔
      ∃ pre rest, cs = pre ++ k.delimiter :: rest ∧ x = acc ++ pre ∧
        (∃ sub', scanAll k sub pre = some sub' ∧ sub' ≠ .escaped) ∧
        ts = lexFrom { operand := false, braces } rest := by
  induction cs generalizing sub acc with
  | nil =>
    refine iff_of_false ?_ ?_
    · simp [lexFrom, finish]
    · rintro ⟨pre, rest, h, -⟩
      simp at h
  | cons c cs ih =>
    rw [lexFrom, step]
    simp only [literalStep]
    cases hscan : scan k sub c with
    | more sub' =>
      rw [List.nil_append, ih]
      constructor
      · rintro ⟨pre, rest, rfl, rfl, hpre, rfl⟩
        refine ⟨c :: pre, rest, rfl, by simp, ?_, rfl⟩
        rwa [scanAll_cons_of_more hscan]
      · rintro ⟨pre, rest, hcs, rfl, hpre, rfl⟩
        rcases content_cases hcs hpre with ⟨-, -, hclose⟩ | ⟨sub'', pre', rfl, hcs', hmore, hpre'⟩
        · rw [hclose] at hscan
          cases hscan
        · rw [hmore] at hscan
          cases hscan
          exact ⟨pre', rest, hcs', by simp, hpre', rfl⟩
    | close =>
      obtain ⟨hne, rfl⟩ := scan_eq_close_iff.1 hscan
      constructor
      · intro h
        obtain ⟨hx, hts⟩ := List.cons.inj h
        cases hx
        exact ⟨[], cs, rfl, by simp, ⟨sub, rfl, hne⟩, hts.symm⟩
      · rintro ⟨pre, rest, hcs, rfl, hpre, rfl⟩
        rcases content_cases hcs hpre with ⟨rfl, rfl, -⟩ | ⟨sub'', pre', rfl, -, hmore, -⟩
        · simp
        · rw [hmore] at hscan
          cases hscan
    | interpolate =>
      refine iff_of_false (by simp) ?_
      rintro ⟨pre, rest, hcs, -, hpre, -⟩
      exact not_content (by simp [hscan]) (by simp [hscan]) hcs hpre
    | fail =>
      refine iff_of_false (by simp) ?_
      rintro ⟨pre, rest, hcs, -, hpre, -⟩
      exact not_content (by simp [hscan]) (by simp [hscan]) hcs hpre

/-- **The contents of a literal**, put between its delimiters, are read as such; anything
else is not. -/
theorem lexFrom_content_iff {k : Kind} {operand : Bool} {braces : List ℕ} {cs rest : List Char}
    {ts : List Token} :
    lexFrom { mode := .literal k .plain [], operand, braces } (cs ++ k.delimiter :: rest) =
        .literal k true cs :: ts ↔
      IsContent k cs ∧ ts = lexFrom { operand := false, braces } rest := by
  rw [lexFrom_literal_iff]
  constructor
  · rintro ⟨pre, rest', hcs, rfl, hpre, rfl⟩
    obtain ⟨-, hrest⟩ := List.append_inj hcs rfl
    obtain ⟨-, rfl⟩ := List.cons.inj hrest
    exact ⟨hpre, rfl⟩
  · rintro ⟨hcs, rfl⟩
    exact ⟨cs, rest, rfl, rfl, hcs, rfl⟩

/-! ## Words -/

theorem run_word {cs acc : List Char} {operand : Bool} {braces : List ℕ}
    (h : ∀ c ∈ cs, isWordChar c = true) :
    run { mode := .word acc, operand, braces } cs =
      ({ mode := .word (acc ++ cs), operand, braces }, []) := by
  induction cs generalizing acc with
  | nil => rw [run, List.append_nil]
  | cons c cs ih =>
    have hc : step { mode := .word acc, operand, braces } c =
        ({ mode := .word (acc ++ [c]), operand, braces }, []) := by
      rw [step]
      simp only [h c List.mem_cons_self, if_true]
    rw [run, hc, ih fun c' hc' => h c' (List.mem_cons_of_mem _ hc')]
    simp

/-- A word is read up to the first character that does not belong to one. -/
theorem lexFrom_word {cs rest : List Char} {operand : Bool} {braces : List ℕ} {d : Char}
    (hne : cs ≠ []) (h : ∀ c ∈ cs, isWordChar c = true) (hd : isWordChar d = false) :
    lexFrom { operand, braces } (cs ++ d :: rest) =
      wordToken cs :: ((codeStep (decide (cs ∈ operandWords)) braces d).2 ++
        lexFrom (codeStep (decide (cs ∈ operandWords)) braces d).1 rest) := by
  obtain ⟨c, cs, rfl⟩ := List.exists_cons_of_ne_nil hne
  have hc : step { operand, braces } c = ({ mode := .word [c], operand, braces }, []) := by
    rw [step]
    simp only [codeStep, h c List.mem_cons_self, if_true]
  rw [List.cons_append, lexFrom, hc, List.nil_append, lexFrom_append,
    run_word fun c' hc' => h c' (List.mem_cons_of_mem _ hc'), List.nil_append, lexFrom, step]
  simp only [hd, Bool.false_eq_true, if_false, List.cons_append, List.nil_append]

/-! ## Durations -/

theorem durationFrom_of_some {s s' : DurationState} {c : Char} (h : s.step c = some s')
    (cs : List Char) : durationFrom s (c :: cs) = durationFrom s' cs := by
  rw [durationFrom, h]

theorem durationFrom_of_none {s : DurationState} {c : Char} (h : s.step c = none)
    (cs : List Char) : durationFrom s (c :: cs) = false := by
  rw [durationFrom, h]

theorem durationFrom_digits {ds rest : List Char} (h : ∀ c ∈ ds, c.isDigit = true) :
    durationFrom .digits (ds ++ rest) = durationFrom .digits rest := by
  induction ds with
  | nil => rfl
  | cons d ds ih =>
    have hd : DurationState.step .digits d = some .digits := if_pos (h d List.mem_cons_self)
    rw [List.cons_append, durationFrom_of_some hd]
    exact ih fun c hc => h c (List.mem_cons_of_mem _ hc)

/-- A number can stand at the beginning and after a unit. -/
theorem durationFrom_number {s : DurationState} (hs : s = .start ∨ ∃ u ∈ durationUnits, s = .unit u)
    {ds rest : List Char} (hne : ds ≠ []) (h : ∀ c ∈ ds, c.isDigit = true) :
    durationFrom s (ds ++ rest) = durationFrom .digits rest := by
  obtain ⟨d, ds, rfl⟩ := List.exists_cons_of_ne_nil hne
  have hd : s.step d = some .digits := by
    rcases hs with rfl | ⟨u, hu, rfl⟩
    · exact if_pos (h d List.mem_cons_self)
    · exact (if_pos (h d List.mem_cons_self)).trans (if_pos hu)
  rw [List.cons_append, durationFrom_of_some hd]
  exact durationFrom_digits fun c hc => h c (List.mem_cons_of_mem _ hc)

/-- A number with a fraction cannot. -/
theorem durationFrom_fraction {ds rest : List Char} (hne : ds ≠ [])
    (h : ∀ c ∈ ds, c.isDigit = true) : durationFrom .digits ('.' :: (ds ++ rest)) = false := by
  obtain ⟨d, ds, rfl⟩ := List.exists_cons_of_ne_nil hne
  have hpoint : DurationState.step .digits '.' = some (.unit ['.']) := rfl
  have hd : DurationState.step (.unit ['.']) d = none :=
    (if_pos (h d List.mem_cons_self)).trans (if_neg (by decide))
  rw [durationFrom_of_some hpoint, List.cons_append, durationFrom_of_none hd]

/-! ## A text put together from pieces -/

/-- A piece of a text. -/
inductive Piece
  /-- Fixed text. -/
  | code (text : String)
  /-- A literal with these contents. -/
  | literal (k : Kind) (content : String)
  /-- What is meant to be a duration, and the symbol after it. -/
  | duration (text : String) (close : Char)
  deriving DecidableEq

namespace Piece

def chars : Piece → List Char
  | code text => text.toList
  | literal k content => k.delimiter :: (content.toList ++ [k.delimiter])
  | duration text close => text.toList ++ [close]

/-- Where the reader is after the piece, when that is read as it is meant; `none` where the
piece cannot stand. -/
def after (s : State) : Piece → Option State
  | code text => some (run s text.toList).1
  | literal k _ =>
    if s.mode = .code ∧ (k = .regex → s.operand = true) then
      some { operand := false, braces := s.braces }
    else none
  | duration _ close => if s.mode = .code then some (codeStep false s.braces close).1 else none

/-- The tokens the piece is meant to be. -/
def tokens (s : State) : Piece → List Token
  | code text => (run s text.toList).2
  | literal k content => [.literal k true content.toList]
  | duration text close => .duration text.toList :: (codeStep false s.braces close).2

/-- The tokens of the fixed text, and a slot for the literal. -/
def template (s : State) : Piece → List (Option Token)
  | code text => (run s text.toList).2.map some
  | literal _ _ => [none]
  | duration _ close => none :: (codeStep false s.braces close).2.map some

/-- The literal that is meant. -/
def contents : Piece → List Token
  | code _ => []
  | literal k content => [.literal k true content.toList]
  | duration text _ => [.duration text.toList]

/-- The contents of the piece stay inside the literal. -/
def Closed : Piece → Prop
  | code _ => True
  | literal k content => IsContent k content.toList
  | duration text _ => isDuration text.toList = true

/-- What is put into pieces: strings, regular expressions with a beginning, and what
printing a duration yields. -/
def Proper : Piece → Prop
  | code _ => True
  | literal (.str first) _ => first = true
  | literal .regex content => ∃ c cs, content.toList = c :: cs ∧ c ≠ '/'
  | duration text close => isWordChar close = false ∧ ∃ cs, cs ≠ [] ∧
      (∀ c ∈ cs, isWordChar c = true) ∧ (text.toList = cs ∨ text.toList = '-' :: cs)

/-- The piece without what is put into it. -/
def erase : Piece → Piece
  | code text => code text
  | literal k _ => literal k ""
  | duration _ close => duration "" close

theorem after_erase (s : State) (p : Piece) : p.erase.after s = p.after s := by
  cases p with
  | code text => rfl
  | literal k content => rfl
  | duration text close => rfl

theorem template_erase (s : State) (p : Piece) : p.erase.template s = p.template s := by
  cases p with
  | code text => rfl
  | literal k content => rfl
  | duration text close => rfl

theorem not_mem_operandWords {cs : List Char} (h : isDuration cs = true) : cs ∉ operandWords := by
  intro hmem
  have hnone : ∀ w ∈ operandWords, isDuration w = false := by decide
  rw [hnone cs hmem] at h
  cases h

/-- **One piece**: the text is read as the piece is meant exactly when the piece is
closed. -/
theorem lexFrom_iff {p : Piece} {s s' : State} (hproper : p.Proper) (hafter : p.after s = some s')
    {rest : List Char} {ts : List Token} :
    lexFrom s (p.chars ++ rest) = p.tokens s ++ ts ↔ p.Closed ∧ ts = lexFrom s' rest := by
  cases p with
  | code text =>
    cases hafter
    rw [chars, lexFrom_append, tokens, List.append_cancel_left_eq, Closed, true_and, eq_comm]
  | literal k content =>
    rw [after, Option.ite_none_right_eq_some] at hafter
    obtain ⟨⟨hmode, hoperand⟩, hs'⟩ := hafter
    cases hs'
    obtain ⟨mode, operand, braces⟩ := s
    obtain rfl : mode = .code := hmode
    rw [chars, tokens, List.cons_append, List.append_assoc, List.singleton_append,
      List.singleton_append, lexFrom, Closed]
    cases k with
    | str first =>
      obtain rfl : first = true := hproper
      exact lexFrom_content_iff
    | regex =>
      obtain rfl : operand = true := hoperand rfl
      obtain ⟨c, cs, hcontent, hc⟩ := hproper
      have hiff := @lexFrom_content_iff .regex true braces content.toList rest ts
      rw [← hiff, hcontent]
      have hslash : step { mode := .slash, operand := true, braces } c =
          step { mode := .literal .regex .plain [], operand := true, braces } c := by
        simp only [step, hc, if_false, if_true, literalStep]
      show lexFrom { mode := .slash, operand := true, braces } (c :: (cs ++ _)) = _ ↔
        lexFrom _ (c :: (cs ++ _)) = _
      rw [lexFrom, lexFrom, hslash]
  | duration text close =>
    rw [after, Option.ite_none_right_eq_some] at hafter
    obtain ⟨hmode, hs'⟩ := hafter
    cases hs'
    obtain ⟨mode, operand, braces⟩ := s
    obtain rfl : mode = .code := hmode
    obtain ⟨hclose, cs, hne, hword, htext⟩ := hproper
    rw [chars, tokens, List.append_assoc, List.singleton_append, Closed]
    rcases htext with htext | htext
    · rw [htext, lexFrom_word hne hword hclose, wordToken]
      by_cases hduration : isDuration cs = true
      · rw [if_pos hduration, decide_eq_false (not_mem_operandWords hduration), List.cons_append,
          List.cons_inj_right, List.append_cancel_left_eq, eq_comm]
        exact (and_iff_right hduration).symm
      · rw [if_neg hduration]
        refine iff_of_false (fun h => ?_) fun h => hduration h.1
        cases (List.cons.inj h).1
    · rw [htext]
      refine iff_of_false (fun h => ?_) fun h => ?_
      · -- a minus sign
        cases (List.cons.inj h).1
      · exact absurd h.1 (by simp [isDuration, durationFrom, DurationState.step])

end Piece

/-- The pieces can stand one after the other. -/
def Sound : State → List Piece → Prop
  | _, [] => True
  | s, p :: ps => ∃ s', p.after s = some s' ∧ Sound s' ps

instance decidableSound : (s : State) → (ps : List Piece) → Decidable (Sound s ps)
  | _, [] => isTrue trivial
  | s, p :: ps =>
    match h : p.after s with
    | none => isFalse fun ⟨_, hafter, _⟩ => by rw [h] at hafter; cases hafter
    | some s' =>
      match decidableSound s' ps with
      | isTrue hsound => isTrue ⟨s', h, hsound⟩
      | isFalse hunsound => isFalse fun ⟨_, hafter, hsound⟩ => by
        rw [h] at hafter
        cases hafter
        exact hunsound hsound

/-- The tokens of the fixed text, with a slot for each literal; only the pieces without what
is put into them matter. -/
def template (s : State) : List Piece → List (Option Token)
  | [] => (finish s).map some
  | p :: ps =>
    match p.after s with
    | some s' => p.template s ++ template s' ps
    | none => []

/-- Put tokens into the slots. -/
def fill : List (Option Token) → List Token → List Token
  | [], _ => []
  | some t :: ts, xs => t :: fill ts xs
  | none :: ts, x :: xs => x :: fill ts xs
  | none :: _, [] => []

/-- The text of pieces is read as they are meant. -/
def Contained (ps : List Piece) : Prop :=
  Sound {} ps ∧
    lexFrom {} (ps.flatMap Piece.chars) = fill (template {} ps) (ps.flatMap Piece.contents)

theorem length_fill_congr {slots : List (Option Token)} {xs ys : List Token}
    (h : xs.length = ys.length) : (fill slots xs).length = (fill slots ys).length := by
  induction slots generalizing xs ys with
  | nil => rfl
  | cons slot slots ih =>
    cases slot with
    | some t =>
      rw [fill, fill, List.length_cons, List.length_cons, ih h]
    | none =>
      cases xs with
      | nil =>
        obtain rfl := List.length_eq_zero_iff.1 h.symm
        rfl
      | cons x xs =>
        obtain ⟨y, ys, rfl⟩ := List.exists_cons_of_length_eq_add_one h.symm
        rw [fill, fill, List.length_cons, List.length_cons, ih (Nat.succ.inj h)]

theorem fill_map_some_append (ts : List Token) (slots : List (Option Token)) (xs : List Token) :
    fill (ts.map some ++ slots) xs = ts ++ fill slots xs := by
  induction ts with
  | nil => rfl
  | cons t ts ih => rw [List.map_cons, List.cons_append, fill, ih, List.cons_append]

theorem fill_piece (s : State) (p : Piece) (slots : List (Option Token)) (xs : List Token) :
    fill (p.template s ++ slots) (p.contents ++ xs) = p.tokens s ++ fill slots xs := by
  cases p with
  | code text => exact fill_map_some_append _ _ _
  | literal k content => rfl
  | duration text close =>
    rw [Piece.template, Piece.contents, List.cons_append, List.cons_append, List.nil_append, fill,
      fill_map_some_append, Piece.tokens, List.cons_append]

theorem lexFrom_eq_fill_iff {ps : List Piece} (hproper : ∀ p ∈ ps, p.Proper) {s : State}
    (hsound : Sound s ps) :
    lexFrom s (ps.flatMap Piece.chars) = fill (template s ps) (ps.flatMap Piece.contents) ↔
      ∀ p ∈ ps, p.Closed := by
  induction ps generalizing s with
  | nil =>
    have hfill := fill_map_some_append (finish s) [] []
    rw [List.append_nil, fill, List.append_nil] at hfill
    refine iff_of_true hfill.symm ?_
    simp
  | cons p ps ih =>
    obtain ⟨s', hafter, hsound'⟩ := hsound
    have hrest := ih (fun p hp => hproper p (List.mem_cons_of_mem _ hp)) hsound'
    rw [template, hafter, List.flatMap_cons, List.flatMap_cons, fill_piece,
      Piece.lexFrom_iff (hproper p List.mem_cons_self) hafter, eq_comm, hrest, List.forall_mem_cons]

/-- **The text of pieces is read as they are meant exactly when they can stand one after
the other and each of them is closed.** -/
theorem contained_iff {ps : List Piece} (hproper : ∀ p ∈ ps, p.Proper) :
    Contained ps ↔ Sound {} ps ∧ ∀ p ∈ ps, p.Closed :=
  and_congr_right fun hsound => lexFrom_eq_fill_iff hproper hsound

/-! ## What is put into the literals -/

/-- Whether the pieces can stand one after the other does not depend on what is put into
them. -/
theorem sound_erase {ps : List Piece} {s : State} : Sound s (ps.map Piece.erase) ↔ Sound s ps := by
  induction ps generalizing s with
  | nil => exact Iff.rfl
  | cons p ps ih => simp only [List.map_cons, Sound, Piece.after_erase, ih]

/-- Nor do the tokens of the fixed text. -/
theorem template_erase (s : State) (ps : List Piece) :
    template s (ps.map Piece.erase) = template s ps := by
  induction ps generalizing s with
  | nil => rfl
  | cons p ps ih =>
    rw [List.map_cons, template, template, p.after_erase, p.template_erase]
    cases p.after s with
    | none => rfl
    | some s' => exact congrArg (p.template s ++ ·) (ih s')

/-- **Two texts that differ in what is put into their literals only have the same tokens,
these literals apart.** -/
theorem Contained.same_template {ps ps' : List Piece} (h : Contained ps) (h' : Contained ps')
    (hsame : ps.map Piece.erase = ps'.map Piece.erase) :
    ∃ slots, lexFrom {} (ps.flatMap Piece.chars) = fill slots (ps.flatMap Piece.contents) ∧
      lexFrom {} (ps'.flatMap Piece.chars) = fill slots (ps'.flatMap Piece.contents) := by
  refine ⟨template {} ps, h.2, ?_⟩
  rw [← template_erase, hsame, template_erase]
  exact h'.2

end FluxLex
