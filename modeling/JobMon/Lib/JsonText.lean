import Mathlib.Data.List.Basic
import Mathlib.Data.List.TakeWhile
import Mathlib.Tactic.Common

/-!
# Reading JSON

The text is read character by character into tokens, and these by a machine with a stack of
the arrays and objects that are open.

* `step`, `run`, `lex` — the characters; `run_append` puts readings together.
* `contents` — the characters of a string; a surrogate without its partner is replaced.
* `accept`, `parse` — the tokens.
* `escape` — the text a string is written with; `run_quoted` says that it is read back exactly
  when there are no control characters in it.
* `parse_objectTokens` — an object without arrays or objects in it is read exactly when all
  its values are.
* `objectText` — such an object, written with a member to a line; `read_objectText` and
  `read_objectText_control` say what is read from it.
-/

namespace JsonText

/-! ## Characters -/

def quote : Char := Char.ofNat 34

def backslash : Char := Char.ofNat 92

def isSpace (c : Char) : Bool :=
  c = ' ' || c = Char.ofNat 9 || c = Char.ofNat 10 || c = Char.ofNat 13

def isSymbol (c : Char) : Bool :=
  c = Char.ofNat 123 || c = Char.ofNat 125 || c = '[' || c = ']' || c = ':' || c = ','

/-- The characters of numbers, `true`, `false` and `null`. -/
def isWordChar (c : Char) : Bool := c.isAlphanum || c = '-' || c = '+' || c = '.'

def isControl (c : Char) : Bool := c.toNat < 32

/-- There are no control characters. -/
def Clear (cs : List Char) : Prop := ∀ c ∈ cs, isControl c = false

instance (cs : List Char) : Decidable (Clear cs) := List.decidableBAll _ cs

/-- A character of a string, or one half of a character that is written in two. -/
inductive Piece
  | char (c : Char)
  | unit (n : ℕ)
  deriving DecidableEq

def isHigh (n : ℕ) : Bool := 0xD800 ≤ n && n < 0xDC00

def isLow (n : ℕ) : Bool := 0xDC00 ≤ n && n < 0xE000

/-- What a unit stands for on its own. -/
def ofUnit (n : ℕ) : Char := if isHigh n || isLow n then Char.ofNat 0xFFFD else Char.ofNat n

/-- The characters of a string. -/
def contents : List Piece → List Char
  | [] => []
  | .char c :: ps => c :: contents ps
  | .unit n :: .unit m :: ps =>
    if isHigh n && isLow m then
      Char.ofNat (0x10000 + (n - 0xD800) * 0x400 + (m - 0xDC00)) :: contents ps
    else ofUnit n :: contents (.unit m :: ps)
  | .unit n :: ps => ofUnit n :: contents ps

@[simp] theorem contents_map_char (cs : List Char) : contents (cs.map .char) = cs := by
  induction cs with
  | nil => rfl
  | cons c cs ih => rw [List.map_cons, contents, ih]

/-- What stands for a character behind a backslash. -/
def unescape (c : Char) : Option Char :=
  if c = quote ∨ c = backslash ∨ c = '/' then some c
  else if c = 'b' then some (Char.ofNat 8)
  else if c = 'f' then some (Char.ofNat 12)
  else if c = 'n' then some (Char.ofNat 10)
  else if c = 'r' then some (Char.ofNat 13)
  else if c = 't' then some (Char.ofNat 9)
  else none

def hexDigit (c : Char) : Option ℕ :=
  if '0' ≤ c ∧ c ≤ '9' then some (c.toNat - 48)
  else if 'a' ≤ c ∧ c ≤ 'f' then some (c.toNat - 87)
  else if 'A' ≤ c ∧ c ≤ 'F' then some (c.toNat - 55)
  else none

/-! ## Tokens -/

inductive Token
  | symbol (c : Char)
  | text (cs : List Char)
  | word (cs : List Char)
  deriving DecidableEq

/-- How far a token has been read. -/
inductive Mode
  | plain
  | word (cs : List Char)
  | text (ps : List Piece)
  | escaped (ps : List Piece)
  | hex (ps : List Piece) (digits : List ℕ)
  deriving DecidableEq

/-- A character outside of a token. -/
def plainStep (c : Char) : Option (List Token × Mode) :=
  if isSpace c then some ([], .plain)
  else if isSymbol c then some ([.symbol c], .plain)
  else if c = quote then some ([], .text [])
  else if isWordChar c then some ([], .word [c])
  else none

/-- A character: the tokens that end with it, and how the reading goes on. -/
def step : Mode → Char → Option (List Token × Mode)
  | .plain, c => plainStep c
  | .word cs, c =>
    if isWordChar c then some ([], .word (cs ++ [c]))
    else (plainStep c).map fun r => (.word cs :: r.1, r.2)
  | .text ps, c =>
    if c = quote then some ([.text (contents ps)], .plain)
    else if c = backslash then some ([], .escaped ps)
    else if isControl c then none
    else some ([], .text (ps ++ [.char c]))
  | .escaped ps, c =>
    if c = 'u' then some ([], .hex ps [])
    else (unescape c).map fun c => ([], .text (ps ++ [.char c]))
  | .hex ps digits, c =>
    (hexDigit c).map fun d =>
      if digits.length = 3 then
        ([], .text (ps ++ [.unit ((digits ++ [d]).foldl (fun n d => 16 * n + d) 0)]))
      else ([], .hex ps (digits ++ [d]))

/-- The tokens of a text, and how far the last one has been read. -/
def run : Mode → List Char → Option (List Token × Mode)
  | m, [] => some ([], m)
  | m, c :: cs => (step m c).bind fun r => (run r.2 cs).map fun r' => (r.1 ++ r'.1, r'.2)

/-- The end of the text. -/
def finish : Mode → Option (List Token)
  | .plain => some []
  | .word cs => some [.word cs]
  | _ => none

/-- The tokens of a text. -/
def lex (cs : List Char) : Option (List Token) :=
  (run .plain cs).bind fun r => (finish r.2).map fun ts => r.1 ++ ts

theorem run_append (m : Mode) (xs ys : List Char) :
    run m (xs ++ ys) =
      (run m xs).bind fun r => (run r.2 ys).map fun r' => (r.1 ++ r'.1, r'.2) := by
  induction xs generalizing m with
  | nil =>
    rw [List.nil_append, run, Option.bind_some]
    simp
  | cons c xs ih =>
    rw [List.cons_append, run, run]
    cases step m c with
    | none => rfl
    | some r =>
      simp only [Option.bind_some, ih]
      cases run r.2 xs with
      | none => rfl
      | some r' =>
        simp only [Option.bind_some, Option.map_some]
        cases run r'.2 ys with
        | none => rfl
        | some r'' => simp

theorem run_append_of_eq_some {m m' : Mode} {xs : List Char} {ts : List Token}
    (h : run m xs = some (ts, m')) (ys : List Char) :
    run m (xs ++ ys) = (run m' ys).map fun r => (ts ++ r.1, r.2) := by
  rw [run_append, h, Option.bind_some]

theorem run_append_of_eq_none {m : Mode} {xs : List Char} (h : run m xs = none)
    (ys : List Char) : run m (xs ++ ys) = none := by
  rw [run_append, h, Option.bind_none]

/-- Readings put together. -/
theorem run_trans {m m' m'' : Mode} {xs ys : List Char} {ts us : List Token}
    (hxs : run m xs = some (ts, m')) (hys : run m' ys = some (us, m'')) :
    run m (xs ++ ys) = some (ts ++ us, m'') := by
  rw [run_append_of_eq_some hxs, hys, Option.map_some]

theorem run_spaces {cs : List Char} (h : ∀ c ∈ cs, isSpace c = true) :
    run .plain cs = some ([], .plain) := by
  induction cs with
  | nil => rfl
  | cons c cs ih =>
    rw [run, step, plainStep, if_pos (h c List.mem_cons_self), Option.bind_some,
      ih fun d hd => h d (List.mem_cons_of_mem c hd), Option.map_some]
    rfl

/-! ## Words -/

theorem run_word {cs ds : List Char} (h : ∀ d ∈ ds, isWordChar d = true) :
    run (.word cs) ds = some ([], .word (cs ++ ds)) := by
  induction ds generalizing cs with
  | nil => simp [run]
  | cons d ds ih =>
    rw [run, step, if_pos (h d List.mem_cons_self), Option.bind_some,
      ih fun e he => h e (List.mem_cons_of_mem d he), Option.map_some, List.append_assoc]
    rfl

/-- A character of a word is neither blank nor symbol nor quote. -/
theorem plainStep_word {c : Char} (h : isWordChar c = true) :
    plainStep c = some ([], .word [c]) := by
  have hne : ∀ d : Char, isWordChar d = false → c ≠ d := by
    rintro d hd rfl
    rw [h] at hd
    cases hd
  have hspace : isSpace c = false := by
    simp [isSpace, hne ' ' rfl, hne (Char.ofNat 9) rfl, hne (Char.ofNat 10) rfl,
      hne (Char.ofNat 13) rfl]
  have hsymbol : isSymbol c = false := by
    simp [isSymbol, hne (Char.ofNat 123) rfl, hne (Char.ofNat 125) rfl, hne '[' rfl,
      hne ']' rfl, hne ':' rfl, hne ',' rfl]
  rw [plainStep, hspace, hsymbol, if_neg Bool.false_ne_true, if_neg Bool.false_ne_true,
    if_neg (hne quote rfl), if_pos h]

/-- A word, from its first character on. -/
theorem run_cons_word {c : Char} {cs : List Char} (h : ∀ d ∈ c :: cs, isWordChar d = true) :
    run .plain (c :: cs) = some ([], .word (c :: cs)) := by
  rw [run, step, plainStep_word (h c List.mem_cons_self), Option.bind_some,
    run_word fun d hd => h d (List.mem_cons_of_mem c hd), Option.map_some]
  rfl

/-! ## Strings -/

/-- The text of a string between quotes: quotes and backslashes get a backslash. -/
def escape (cs : List Char) : List Char :=
  cs.flatMap fun c => if c = backslash ∨ c = quote then [backslash, c] else [c]

theorem run_escape_char {c : Char} (h : isControl c = false) (ps : List Piece) :
    run (.text ps) (escape [c]) = some ([], .text (ps ++ [.char c])) := by
  by_cases hc : c = backslash ∨ c = quote
  · rcases hc with rfl | rfl
    · rfl
    · rfl
  · rw [not_or] at hc
    simp [escape, run, step, hc.1, hc.2, h]

theorem run_escape {cs : List Char} (h : Clear cs) (ps : List Piece) :
    run (.text ps) (escape cs) = some ([], .text (ps ++ cs.map .char)) := by
  induction cs generalizing ps with
  | nil => simp [escape, run]
  | cons c cs ih =>
    rw [show escape (c :: cs) = escape [c] ++ escape cs by simp [escape],
      run_trans (run_escape_char (h c List.mem_cons_self) ps)
        (ih (fun d hd => h d (List.mem_cons_of_mem c hd)) _)]
    simp

/-- A control character ends the reading. -/
theorem run_escape_control {cs : List Char} (h : ∃ c ∈ cs, isControl c = true) (ps : List Piece) :
    run (.text ps) (escape cs) = none := by
  induction cs generalizing ps with
  | nil => simp at h
  | cons c cs ih =>
    rw [show escape (c :: cs) = escape [c] ++ escape cs by simp [escape]]
    cases hc : isControl c with
    | true =>
      have hne : ∀ d : Char, isControl d = false → c ≠ d := by
        rintro d hd rfl
        rw [hc] at hd
        cases hd
      refine run_append_of_eq_none ?_ _
      simp [escape, run, step, hne quote rfl, hne backslash rfl, hc]
    | false =>
      obtain ⟨d, hd, hcontrol⟩ := h
      have hrest : d ∈ cs := by
        rcases List.mem_cons.1 hd with rfl | hmem
        · rw [hc] at hcontrol
          cases hcontrol
        · exact hmem
      rw [run_append_of_eq_some (run_escape_char hc ps), ih ⟨d, hrest, hcontrol⟩, Option.map_none]

/-- A string as it is written. -/
def quoted (cs : List Char) : List Char := quote :: escape cs ++ [quote]

theorem run_quote (cs : List Char) : run .plain (quote :: cs) = run (.text []) cs := by
  rw [run]
  show (some ([], Mode.text []) : Option (List Token × Mode)).bind _ = _
  simp

/-- **A string is read back**, without control characters. -/
theorem run_quoted {cs : List Char} (h : Clear cs) :
    run .plain (quoted cs) = some ([.text cs], .plain) := by
  have hend : run (.text (cs.map .char)) [quote] = some ([.text cs], .plain) := by
    simp [run, step]
  rw [quoted, List.cons_append, run_quote]
  exact run_trans (run_escape h []) hend

/-- With one it is not. -/
theorem run_quoted_control {cs : List Char} (h : ∃ c ∈ cs, isControl c = true) :
    run .plain (quoted cs) = none := by
  rw [quoted, List.cons_append, run_quote]
  exact run_append_of_eq_none (run_escape_control h []) _

/-- A text that needs no escapes. -/
def Plain (cs : List Char) : Prop :=
  ∀ c ∈ cs, c ≠ quote ∧ c ≠ backslash ∧ isControl c = false

instance (cs : List Char) : Decidable (Plain cs) :=
  List.decidableBAll _ cs

theorem escape_of_plain {cs : List Char} (h : Plain cs) : escape cs = cs := by
  induction cs with
  | nil => rfl
  | cons c cs ih =>
    have hc := h c List.mem_cons_self
    rw [show escape (c :: cs) = escape [c] ++ escape cs by simp [escape],
      ih fun d hd => h d (List.mem_cons_of_mem c hd)]
    simp [escape, hc.1, hc.2.1]

/-! ## Values -/

inductive Value
  | null
  | bool (b : Bool)
  /-- A number, as it is written. -/
  | number (cs : List Char)
  | text (cs : List Char)
  | array (vs : List Value)
  | object (ms : List (List Char × Value))

/-- The digits of an integer without a sign. -/
def isInteger (cs : List Char) : Bool :=
  cs = ['0'] || (cs ≠ [] && cs.all Char.isDigit && cs.head? ≠ some '0')

/-- An exponent, or nothing. -/
def isExponent : List Char → Bool
  | [] => true
  | e :: cs =>
    let digits := if cs.head? = some '-' ∨ cs.head? = some '+' then cs.tail else cs
    (e = 'e' || e = 'E') && digits ≠ [] && digits.all Char.isDigit

/-- A fraction and an exponent, or less. -/
def isFraction (cs : List Char) : Bool :=
  if cs.head? = some '.' then
    cs.tail.takeWhile Char.isDigit ≠ [] && isExponent (cs.tail.dropWhile Char.isDigit)
  else isExponent cs

def isNumber (cs : List Char) : Bool :=
  let digits := if cs.head? = some '-' then cs.tail else cs
  isInteger (digits.takeWhile Char.isDigit) && isFraction (digits.dropWhile Char.isDigit)

/-- The value a word stands for. -/
def ofWord (cs : List Char) : Option Value :=
  if cs = "null".toList then some .null
  else if cs = "true".toList then some (.bool true)
  else if cs = "false".toList then some (.bool false)
  else if isNumber cs then some (.number cs)
  else none

/-- A row of digits is a number unless it begins with a zero. -/
theorem ofWord_digits {cs : List Char} (h : ∀ c ∈ cs, c.isDigit = true) :
    ofWord cs = if isInteger cs = true then some (.number cs) else none := by
  have hne : ∀ d ds, d.isDigit = false → cs ≠ d :: ds := by
    rintro d ds hd rfl
    rw [h d List.mem_cons_self] at hd
    cases hd
  have hhead : cs.head? ≠ some '-' := by
    intro hhead
    obtain ⟨ds, hds⟩ := List.head?_eq_some_iff.1 hhead
    exact hne _ _ rfl hds
  have hnumber : isNumber cs = isInteger cs := by
    simp [isNumber, hhead, List.takeWhile_eq_self_iff.2 h, List.dropWhile_eq_nil_iff.2 h,
      isFraction, isExponent]
  have hnull : cs ≠ "null".toList := hne 'n' "ull".toList rfl
  have htrue : cs ≠ "true".toList := hne 't' "rue".toList rfl
  have hfalse : cs ≠ "false".toList := hne 'f' "alse".toList rfl
  rw [ofWord, if_neg hnull, if_neg htrue, if_neg hfalse, hnumber]

/-- A minus sign in front of a number. -/
theorem ofWord_minus {cs : List Char} (h : ∀ c ∈ cs, c.isDigit = true)
    (hinteger : isInteger cs = true) : ofWord ('-' :: cs) = some (.number ('-' :: cs)) := by
  have hnull : '-' :: cs ≠ "null".toList := fun h => by cases h
  have htrue : '-' :: cs ≠ "true".toList := fun h => by cases h
  have hfalse : '-' :: cs ≠ "false".toList := fun h => by cases h
  have hnumber : isNumber ('-' :: cs) = true := by
    simp [isNumber, List.takeWhile_eq_self_iff.2 h, List.dropWhile_eq_nil_iff.2 h, isFraction,
      isExponent, hinteger]
  rw [ofWord, if_neg hnull, if_neg htrue, if_neg hfalse, if_pos hnumber]

/-- An array or an object that is open, with what is in it so far; of an object also the
key whose value is being read. -/
inductive Frame
  | array (vs : List Value)
  | object (ms : List (List Char × Value)) (key : List Char)

/-- What may come next. -/
inductive State
  | value (stack : List Frame)
  /-- An element, or the end of the array. -/
  | element (stack : List Frame)
  | key (stack : List Frame) (ms : List (List Char × Value))
  /-- A key, or the end of the object. -/
  | member (stack : List Frame)
  | colon (stack : List Frame) (ms : List (List Char × Value)) (key : List Char)
  /-- A value has ended. -/
  | next (stack : List Frame) (v : Value)

/-- A token where a value is to begin. -/
def acceptValue (stack : List Frame) : Token → Option State
  | .word cs => (ofWord cs).map fun v => .next stack v
  | .text cs => some (.next stack (.text cs))
  | .symbol c =>
    if c = '[' then some (.element stack)
    else if c = Char.ofNat 123 then some (.member stack)
    else none

/-- One token. -/
def accept : State → Token → Option State
  | .value stack, t => acceptValue stack t
  | .element stack, t =>
    if t = .symbol ']' then some (.next stack (.array []))
    else acceptValue (.array [] :: stack) t
  | .key stack ms, .text cs => some (.colon stack ms cs)
  | .key _ _, _ => none
  | .member stack, .text cs => some (.colon stack [] cs)
  | .member stack, t =>
    if t = .symbol (Char.ofNat 125) then some (.next stack (.object [])) else none
  | .colon stack ms key, t =>
    if t = .symbol ':' then some (.value (.object ms key :: stack)) else none
  | .next [] _, _ => none
  | .next (.array vs :: stack) v, t =>
    if t = .symbol ',' then some (.value (.array (vs ++ [v]) :: stack))
    else if t = .symbol ']' then some (.next stack (.array (vs ++ [v])))
    else none
  | .next (.object ms key :: stack) v, t =>
    if t = .symbol ',' then some (.key stack (ms ++ [(key, v)]))
    else if t = .symbol (Char.ofNat 125) then some (.next stack (.object (ms ++ [(key, v)])))
    else none

/-- Tokens, one after the other. -/
def acceptAll : State → List Token → Option State
  | s, [] => some s
  | s, t :: ts => (accept s t).bind fun s' => acceptAll s' ts

/-- The value of a row of tokens. -/
def parse (ts : List Token) : Option Value :=
  match acceptAll (.value []) ts with
  | some (.next [] v) => some v
  | _ => none

/-- The value a text stands for. -/
def read (cs : List Char) : Option Value := (lex cs).bind parse

/-! ## Flat objects -/

/-- The value of a token that is a word or a string. -/
def scalar : Token → Option Value
  | .word cs => ofWord cs
  | .text cs => some (.text cs)
  | .symbol _ => none

/-- A member of an object: its key, and the token of its value, which may be missing. -/
abbrev Member := List Char × Option Token

def Member.tokens (m : Member) : List Token := .text m.1 :: .symbol ':' :: m.2.toList

/-- Further members, each behind a comma. -/
def moreTokens (ms : List Member) : List Token := ms.flatMap fun m => .symbol ',' :: m.tokens

def objectTokens (m : Member) (ms : List Member) : List Token :=
  .symbol (Char.ofNat 123) :: m.tokens ++ moreTokens ms ++ [.symbol (Char.ofNat 125)]

/-- The values of the members, if they all have one. -/
def values : List Member → Option (List (List Char × Value))
  | [] => some []
  | m :: ms => (m.2.bind scalar).bind fun v => (values ms).map fun vs => (m.1, v) :: vs

/-- A value: a token that is none, or that is missing, ends the reading. -/
theorem acceptAll_value (stack : List Frame) (t : Option Token) (c : Char) (ts : List Token)
    (hc : c = ',' ∨ c = Char.ofNat 125) (ht : ∀ d, t ≠ some (.symbol d)) :
    acceptAll (.value stack) (t.toList ++ .symbol c :: ts) =
      (t.bind scalar).bind fun v => acceptAll (.next stack v) (.symbol c :: ts) := by
  cases t with
  | none => rcases hc with rfl | rfl <;> rfl
  | some t =>
    cases t with
    | symbol d => exact absurd rfl (ht d)
    | text cs => rfl
    | word cs =>
      show ((ofWord cs).map fun v => State.next stack v).bind _ = (ofWord cs).bind _
      rw [Option.bind_map]
      rfl

theorem acceptAll_more {ms : List Member} (h : ∀ m ∈ ms, ∀ d, m.2 ≠ some (.symbol d))
    (stack : List Frame) (seen : List (List Char × Value)) (key : List Char) (v : Value) :
    acceptAll (.next (.object seen key :: stack) v) (moreTokens ms ++ [.symbol (Char.ofNat 125)]) =
      (values ms).map fun vs => .next stack (.object (seen ++ (key, v) :: vs)) := by
  induction ms generalizing seen key v with
  | nil => rfl
  | cons m ms ih =>
    have hm := h m List.mem_cons_self
    have hrest := ih fun m' hm' => h m' (List.mem_cons_of_mem m hm')
    have hvalue : ∀ c ts, c = ',' ∨ c = Char.ofNat 125 →
        acceptAll (.next (.object seen key :: stack) v)
          (.symbol ',' :: m.tokens ++ .symbol c :: ts) =
        (m.2.bind scalar).bind fun w =>
          acceptAll (.next (.object (seen ++ [(key, v)]) m.1 :: stack) w) (.symbol c :: ts) :=
      fun c ts hc => acceptAll_value _ m.2 c ts hc hm
    have hsplit : acceptAll (.next (.object seen key :: stack) v)
        (moreTokens (m :: ms) ++ [.symbol (Char.ofNat 125)]) =
        (m.2.bind scalar).bind fun w =>
          acceptAll (.next (.object (seen ++ [(key, v)]) m.1 :: stack) w)
            (moreTokens ms ++ [.symbol (Char.ofNat 125)]) := by
      rw [show moreTokens (m :: ms) = .symbol ',' :: m.tokens ++ moreTokens ms from rfl,
        List.append_assoc]
      cases ms with
      | nil => exact hvalue _ _ (Or.inr rfl)
      | cons m' ms => exact hvalue _ _ (Or.inl rfl)
    rw [hsplit, values]
    cases m.2.bind scalar with
    | none => rfl
    | some w =>
      rw [Option.bind_some, Option.bind_some, hrest, Option.map_map]
      simp [Function.comp_def]

/-- **A flat object is read** when all its values are there and can be read. -/
theorem parse_objectTokens {m : Member} {ms : List Member}
    (h : ∀ m' ∈ m :: ms, ∀ d, m'.2 ≠ some (.symbol d)) :
    parse (objectTokens m ms) = (values (m :: ms)).map .object := by
  have hm := h m List.mem_cons_self
  have hvalue : ∀ c ts, c = ',' ∨ c = Char.ofNat 125 →
      acceptAll (.value []) (.symbol (Char.ofNat 123) :: m.tokens ++ .symbol c :: ts) =
        (m.2.bind scalar).bind fun v =>
          acceptAll (.next [.object [] m.1] v) (.symbol c :: ts) :=
    fun c ts hc => acceptAll_value _ m.2 c ts hc hm
  have hall : acceptAll (.value []) (objectTokens m ms) =
      (m.2.bind scalar).bind fun v =>
        acceptAll (.next [.object [] m.1] v) (moreTokens ms ++ [.symbol (Char.ofNat 125)]) := by
    rw [objectTokens, List.append_assoc]
    cases ms with
    | nil => exact hvalue _ _ (Or.inr rfl)
    | cons m' ms => exact hvalue _ _ (Or.inl rfl)
  rw [parse, hall, values]
  cases m.2.bind scalar with
  | none => rfl
  | some v =>
    rw [Option.bind_some, Option.bind_some,
      acceptAll_more fun m' hm' => h m' (List.mem_cons_of_mem m hm')]
    cases values ms <;> rfl

/-! ## A member to a line -/

def newline : Char := Char.ofNat 10

/-- A line with a member, from the end of the line before. -/
def memberText (indent : ℕ) (m : List Char × List Char) : List Char :=
  newline :: List.replicate indent ' ' ++ (quoted m.1 ++ (':' :: ' ' :: m.2))

/-- The lines of the members, with commas between them. -/
def linesText (indent : ℕ) : List (List Char × List Char) → List Char
  | [] => []
  | [m] => memberText indent m
  | m :: ms => memberText indent m ++ ',' :: linesText indent ms

/-- An object: the keys, and the texts of the values. -/
def objectText (indent closing : ℕ) (ms : List (List Char × List Char)) : List Char :=
  Char.ofNat 123 :: linesText indent ms ++
    newline :: List.replicate closing ' ' ++ [Char.ofNat 125]

/-- The text of a value, and its token. -/
inductive Spelling : List Char → Option Token → Prop
  | missing (n : ℕ) : Spelling (List.replicate n ' ') none
  | word {cs : List Char} (hne : cs ≠ []) (h : ∀ c ∈ cs, isWordChar c = true) (n : ℕ) :
      Spelling (cs ++ List.replicate n ' ') (some (.word cs))
  | text {cs : List Char} (h : Clear cs) :
      Spelling (quoted cs) (some (.text cs))

theorem Spelling.ne_symbol {cs : List Char} {t : Option Token} (h : Spelling cs t) (c : Char) :
    t ≠ some (.symbol c) := by
  cases h <;> simp

/-- The token of a word; one without characters is missing. -/
def wordToken (cs : List Char) : Option Token := if cs = [] then none else some (.word cs)

theorem spelling_wordToken {cs : List Char} (h : ∀ c ∈ cs, isWordChar c = true) (n : ℕ) :
    Spelling (cs ++ List.replicate n ' ') (wordToken cs) := by
  unfold wordToken
  split_ifs with hcs
  · subst hcs
    exact .missing n
  · exact .word hcs h n

/-- What stands behind a value: a comma, or the end of the line. -/
def separatorTokens (comma : Bool) : List Token := if comma then [.symbol ','] else []

def separator (comma : Bool) : Char := if comma then ',' else newline

theorem isSpace_of_mem_replicate {n : ℕ} {c : Char} (h : c ∈ List.replicate n ' ') :
    isSpace c = true := by
  rw [List.eq_of_mem_replicate h]
  rfl

/-- The character behind a word ends it. -/
theorem run_word_append {cs rest : List Char} {c : Char} (hc : isWordChar c = false) :
    run (.word cs) (c :: rest) = (run .plain (c :: rest)).map fun r => (.word cs :: r.1, r.2) := by
  have hstep : step (.word cs) c = (plainStep c).map fun r => (.word cs :: r.1, r.2) := by
    rw [step, hc, if_neg Bool.false_ne_true]
  rw [run, run, hstep, step]
  cases plainStep c with
  | none => rfl
  | some r =>
    simp only [Option.map_some, Option.bind_some]
    cases run r.2 rest <;> rfl

theorem run_blanks (n : ℕ) (comma : Bool) :
    run .plain (List.replicate n ' ' ++ [separator comma]) =
      some (separatorTokens comma, .plain) := by
  rw [run_append_of_eq_some (run_spaces fun c hc => isSpace_of_mem_replicate hc)]
  cases comma <;> rfl

theorem run_spelling {cs : List Char} {t : Option Token} (h : Spelling cs t) (comma : Bool) :
    run .plain (cs ++ [separator comma]) =
      some (t.toList ++ separatorTokens comma, .plain) := by
  cases h with
  | missing n => exact run_blanks n comma
  | @word cs hne hword n =>
    obtain ⟨c, cs, rfl⟩ := List.exists_cons_of_ne_nil hne
    have hend : run (.word (c :: cs)) (List.replicate n ' ' ++ [separator comma]) =
        some (.word (c :: cs) :: separatorTokens comma, .plain) := by
      cases n with
      | zero =>
        rw [List.replicate_zero, List.nil_append, run_word_append (by cases comma <;> rfl)]
        cases comma <;> rfl
      | succ n =>
        rw [List.replicate_succ, List.cons_append, run_word_append rfl, ← List.cons_append,
          ← List.replicate_succ, run_blanks, Option.map_some]
    have hword := run_trans (run_cons_word hword) hend
    rwa [← List.append_assoc] at hword
  | text hcontrol =>
    refine run_trans (run_quoted hcontrol) ?_
    cases comma <;> rfl

/-- What has to hold of a member for its line to be read. -/
def Written (m : List Char × List Char) (m' : Member) : Prop :=
  m.1 = m'.1 ∧ Clear m.1 ∧ Spelling m.2 m'.2

theorem run_indent (indent : ℕ) :
    run .plain (newline :: List.replicate indent ' ') = some ([], .plain) := by
  refine run_spaces fun c hc => ?_
  rcases List.mem_cons.1 hc with rfl | hc
  · rfl
  · exact isSpace_of_mem_replicate hc

theorem run_memberText {indent : ℕ} {m : List Char × List Char} {m' : Member}
    (h : Written m m') (comma : Bool) :
    run .plain (memberText indent m ++ [separator comma]) =
      some (m'.tokens ++ separatorTokens comma, .plain) := by
  obtain ⟨hkey, hcontrol, hvalue⟩ := h
  have hcolon : run .plain [':', ' '] = some ([.symbol ':'], .plain) := rfl
  have hend := run_trans hcolon (run_spelling hvalue comma)
  have hmember := run_trans (run_indent indent) (run_trans (run_quoted hcontrol) hend)
  rw [hkey] at hmember
  simpa [memberText, Member.tokens, hkey] using hmember

theorem run_linesText {indent : ℕ} {m : List Char × List Char} {m' : Member}
    {ms : List (List Char × List Char)} {ms' : List Member} (hm : Written m m')
    (h : List.Forall₂ Written ms ms') :
    run .plain (linesText indent (m :: ms) ++ [newline]) =
      some (m'.tokens ++ moreTokens ms', .plain) := by
  induction h generalizing m m' with
  | nil => exact run_memberText hm false
  | @cons n n' ms ms' hn _ ih =>
    have hmember : run .plain (memberText indent m ++ [',']) =
        some (m'.tokens ++ [.symbol ','], .plain) := run_memberText hm true
    have hmore := run_trans hmember (ih hn)
    simpa [linesText, moreTokens] using hmore

theorem ne_symbol_of_written {ms : List (List Char × List Char)} {ms' : List Member}
    (h : List.Forall₂ Written ms ms') : ∀ m' ∈ ms', ∀ d, m'.2 ≠ some (.symbol d) := by
  induction h with
  | nil => simp
  | cons hm _ ih => exact List.forall_mem_cons.2 ⟨hm.2.2.ne_symbol, ih⟩

/-- **What is read from an object**, when its keys and values are written properly. -/
theorem read_objectText {indent closing : ℕ} {m : List Char × List Char} {m' : Member}
    {ms : List (List Char × List Char)} {ms' : List Member}
    (h : List.Forall₂ Written (m :: ms) (m' :: ms')) :
    read (objectText indent closing (m :: ms)) = (values (m' :: ms')).map .object := by
  obtain ⟨hm, hrest⟩ := List.forall₂_cons.1 h
  have hopen : run .plain [Char.ofNat 123] = some ([.symbol (Char.ofNat 123)], .plain) := rfl
  have hbrace : run .plain [Char.ofNat 125] = some ([.symbol (Char.ofNat 125)], .plain) := rfl
  have hclose := run_trans
    (run_spaces fun c (hc : c ∈ List.replicate closing ' ') => isSpace_of_mem_replicate hc) hbrace
  have hrun : run .plain (objectText indent closing (m :: ms)) =
      some (objectTokens m' ms', .plain) := by
    have hlines : run .plain (linesText indent (m :: ms) ++ [newline]) = _ :=
      run_linesText hm hrest
    have hobject := run_trans hopen (run_trans hlines hclose)
    simpa [objectText, objectTokens] using hobject
  rw [read, lex, hrun, Option.bind_some, finish, Option.map_some, List.append_nil,
    Option.bind_some, parse_objectTokens (ne_symbol_of_written h)]

/-- A value with a control character ends the reading. -/
theorem run_linesText_control {indent : ℕ} {before : List (List Char × List Char)}
    {before' : List Member} (h : List.Forall₂ Written before before') {key cs : List Char}
    (hkey : Clear key) (hcs : ∃ c ∈ cs, isControl c = true)
    (after : List (List Char × List Char)) (rest : List Char) :
    run .plain (linesText indent (before ++ (key, quoted cs) :: after) ++ rest) = none := by
  induction h with
  | nil =>
    have hcolon : run .plain [':', ' '] = some ([.symbol ':'], .plain) := rfl
    have hline : run .plain (memberText indent (key, quoted cs)) = none := by
      have hstart := run_trans (run_indent indent) (run_trans (run_quoted hkey) hcolon)
      have hmember := run_append_of_eq_some hstart (quoted cs)
      rw [run_quoted_control hcs, Option.map_none] at hmember
      simpa [memberText] using hmember
    cases after with
    | nil => exact run_append_of_eq_none hline rest
    | cons n after =>
      rw [List.nil_append, linesText, List.append_assoc]
      · exact run_append_of_eq_none hline _
      · simp
  | @cons m m' before before' hm _ ih =>
    have hmember : run .plain (memberText indent m ++ [',']) =
        some (m'.tokens ++ [.symbol ','], .plain) := run_memberText hm true
    have hmore := run_append_of_eq_some hmember
      (linesText indent (before ++ (key, quoted cs) :: after) ++ rest)
    rw [ih, Option.map_none] at hmore
    rw [List.cons_append, linesText]
    · simpa using hmore
    · simp

theorem read_objectText_control {indent closing : ℕ} {before : List (List Char × List Char)}
    {before' : List Member} (h : List.Forall₂ Written before before') {key cs : List Char}
    (hkey : Clear key) (hcs : ∃ c ∈ cs, isControl c = true)
    (after : List (List Char × List Char)) :
    read (objectText indent closing (before ++ (key, quoted cs) :: after)) = none := by
  have hopen : run .plain [Char.ofNat 123] = some ([.symbol (Char.ofNat 123)], .plain) := rfl
  have hrun : run .plain (objectText indent closing (before ++ (key, quoted cs) :: after)) =
      none := by
    have hobject := run_append_of_eq_some hopen
      (linesText indent (before ++ (key, quoted cs) :: after) ++
        (newline :: List.replicate closing ' ' ++ [Char.ofNat 125]))
    rw [run_linesText_control h hkey hcs, Option.map_none] at hobject
    simpa [objectText] using hobject
  rw [read, lex, hrun, Option.bind_none, Option.bind_none]

end JsonText
