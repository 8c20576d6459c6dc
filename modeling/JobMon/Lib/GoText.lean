import Mathlib.Data.List.Basic
import Mathlib.Data.List.Induction
import Mathlib.Data.List.TakeWhile
import Mathlib.Data.Rat.Defs
import Mathlib.Algebra.Order.Field.Rat
import Mathlib.Tactic.Common

/-!
# The parts of Go's standard library that read text

`strconv.Atoi`, `strings.Split`, `strings.Count` and `time.ParseDuration`, as
their documentation describes them.

* `mem_toList_iff` — splitting drops nothing but the separator.
* `split_intercalate`, `atoi_toString` — splitting undoes joining, and reading a
  number undoes printing it.
* `digitsVal_inj` — rows of digits of one length that denote one number are the same.
* `atoi` returns the value Go returns next to the error too: a caller that tests
  the error the wrong way round reads it.
* `durationText` is how a duration is printed; `fracText_cases` says when it has a
  fraction.
* `parseDuration` works on exact numbers where Go rounds the fraction of a unit
  through a `float64`.
-/

namespace Go

/-! ## Splitting -/

/-- `strings.Split(s, sep)` for a one-character separator. -/
def split (s : String) (sep : Char) : List String := (s.toList.splitOn sep).map String.ofList

/-- `strings.Count(s, c)` for a one-character text. -/
def count (s : String) (c : Char) : ℕ := s.toList.count c

/-- `strings.Contains(s, c)` for a one-character text. -/
def containsChar (s : String) (c : Char) : Bool := s.toList.contains c

theorem containsChar_eq_false_iff {s : String} {c : Char} :
    containsChar s c = false ↔ c ∉ s.toList := by
  rw [containsChar, List.contains_eq_mem, decide_eq_false_iff_not]

theorem containsChar_eq_false_iff_count {s : String} {c : Char} :
    containsChar s c = false ↔ count s c = 0 :=
  containsChar_eq_false_iff.trans List.count_eq_zero.symm

theorem mem_intercalate_iff {α : Type} {sep a : α} (ha : a ≠ sep) {ls : List (List α)} :
    a ∈ [sep].intercalate ls ↔ ∃ l ∈ ls, a ∈ l := by
  induction ls with
  | nil => simp
  | cons l ls ih =>
    cases ls with
    | nil => simp
    | cons l' ls =>
      rw [List.intercalate_cons_cons, List.mem_append, List.mem_append, ih]
      simp [ha]

/-- Apart from the separator, the characters of a text are those of its parts. -/
theorem mem_toList_iff {s : String} {sep c : Char} (hc : c ≠ sep) :
    c ∈ s.toList ↔ ∃ part ∈ split s sep, c ∈ part.toList := by
  have hjoin : [sep].intercalate (s.toList.splitOn sep) = s.toList := List.intercalate_splitOn sep
  rw [← hjoin, mem_intercalate_iff hc]
  simp only [split, List.mem_map, exists_exists_and_eq_and, String.toList_ofList]

/-- A text has one part more than it has separators. -/
theorem length_split (s : String) (sep : Char) : (split s sep).length = count s sep + 1 := by
  have hlist : ∀ l : List Char, (l.splitOn sep).length = l.count sep + 1 := by
    intro l
    induction l with
    | nil => rfl
    | cons c l ih =>
      rw [List.splitOn_cons_eq_if_modifyHead, List.count_cons]
      by_cases hc : c = sep
      · simp [hc, ih]
      · simp [hc, ih]
  rw [split, List.length_map, hlist, count]

/-- **What was joined is taken apart again**, when no part holds the separator. -/
theorem split_intercalate {sep : Char} {parts : List String}
    (h : ∀ part ∈ parts, sep ∉ part.toList) (hne : parts ≠ []) :
    split ((String.singleton sep).intercalate parts) sep = parts := by
  have hsplit : ([sep].intercalate (parts.map String.toList)).splitOn sep =
      parts.map String.toList := by
    refine List.splitOn_intercalate sep ?_ (by simpa using hne)
    rw [List.forall_mem_map]
    exact h
  rw [split, String.toList_intercalate]
  simp only [String.toList_singleton, hsplit, List.map_map]
  exact List.map_id'' (fun s => String.ofList_toList) _

/-- A text without the separator is its only part. -/
theorem split_eq_singleton {s : String} {sep : Char} (h : containsChar s sep = false) :
    split s sep = [s] := by
  have hone : ∀ part ∈ [s], sep ∉ part.toList := by
    intro part hpart
    rw [List.mem_singleton.1 hpart]
    exact containsChar_eq_false_iff.1 h
  have := split_intercalate hone (by simp)
  simpa using this

/-- Joining the parts again. -/
theorem intercalate_split (s : String) (sep : Char) :
    (String.singleton sep).intercalate (split s sep) = s := by
  refine String.toList_inj.1 ?_
  rw [String.toList_intercalate, String.toList_singleton, split, List.map_map]
  rw [show String.toList ∘ String.ofList = id from funext fun l => String.toList_ofList]
  rw [List.map_id, List.intercalate_splitOn]

/-- No part holds the separator. -/
theorem not_mem_of_mem_split {s : String} {sep : Char} {part : String} (h : part ∈ split s sep) :
    sep ∉ part.toList := by
  obtain ⟨l, hl, rfl⟩ := List.mem_map.1 h
  rw [String.toList_ofList]
  have hlist : ∀ cs : List Char, ∀ l ∈ cs.splitOn sep, sep ∉ l := by
    intro cs
    induction cs with
    | nil => simp
    | cons c cs ih =>
      rw [List.splitOn_cons_eq_if_modifyHead]
      intro l hl
      by_cases hc : c = sep
      · simp only [hc, beq_self_eq_true, if_true, List.mem_cons] at hl
        rcases hl with rfl | hl
        · exact List.not_mem_nil
        · exact ih l hl
      · simp only [beq_eq_false_iff_ne.2 hc, Bool.false_eq_true, if_false] at hl
        cases hsplit : cs.splitOn sep with
        | nil => exact absurd hsplit (List.splitOn_ne_nil sep cs)
        | cons first rest =>
          rw [hsplit, List.modifyHead_cons, List.mem_cons] at hl
          rw [hsplit] at ih
          rcases hl with rfl | hl
          · rw [List.mem_cons, not_or]
            exact ⟨fun h => hc h.symm, ih first List.mem_cons_self⟩
          · exact ih l (List.mem_cons_of_mem _ hl)
  exact hlist _ l hl

/-! ## Integers -/

/-- A decimal digit. -/
def isDigit (c : Char) : Bool := '0' ≤ c && c ≤ '9'

/-- The number a row of decimal digits denotes. -/
def digitsVal (ds : List Char) : ℕ := ds.foldl (fun n c => 10 * n + (c.toNat - 48)) 0

/-- The largest `int`. -/
def maxInt : ℤ := 2 ^ 63 - 1

/-- The smallest `int`. -/
def minInt : ℤ := -2 ^ 63

/-- The digits of a text after its sign, when it has at least one and nothing
else. -/
def signedDigits : List Char → Option (Bool × List Char)
  | '-' :: ds => if ds ≠ [] ∧ ds.all isDigit then some (true, ds) else none
  | '+' :: ds => if ds ≠ [] ∧ ds.all isDigit then some (false, ds) else none
  | ds => if ds ≠ [] ∧ ds.all isDigit then some (false, ds) else none

/-- `strconv.Atoi`.  An error carries the value Go returns beside it: `0` for a
text that is not a number, the nearest `int` for one out of range. -/
def atoi (s : String) : Except ℤ ℤ :=
  match signedDigits s.toList with
  | none => .error 0
  | some (neg, ds) =>
    let n : ℤ := if neg then -(digitsVal ds : ℤ) else digitsVal ds
    if n < minInt then .error minInt else if maxInt < n then .error maxInt else .ok n

theorem isDigit_of_mem_repr {n : ℕ} {c : Char} (h : c ∈ (Nat.repr n).toList) :
    isDigit c = true := by
  rw [Nat.repr, String.toList_ofList] at h
  have hc := Nat.isDigit_of_mem_toDigits (by decide) (by decide) h
  simp only [Char.isDigit, isDigit, Bool.and_eq_true, decide_eq_true_eq] at hc ⊢
  exact hc

theorem toList_repr_ne_nil (n : ℕ) : (Nat.repr n).toList ≠ [] := by
  rw [Nat.repr, String.toList_ofList]
  exact Nat.toDigits_ne_nil

/-- A printed number is made of a sign and digits. -/
theorem mem_toString_int {z : ℤ} {c : Char} (h : c ∈ (toString z).toList) :
    c = '-' ∨ isDigit c = true := by
  cases z with
  | ofNat n => exact Or.inr (isDigit_of_mem_repr h)
  | negSucc n =>
    have hcons : c ∈ ("-" ++ Nat.repr n.succ).toList := h
    rw [String.toList_append, List.mem_append] at hcons
    rcases hcons with hminus | hdigit
    · exact Or.inl (by simpa using hminus)
    · exact Or.inr (isDigit_of_mem_repr hdigit)

theorem not_mem_int {d : Char} (hminus : d ≠ '-') (hdigit : isDigit d = false) (z : ℤ) :
    d ∉ (toString z).toList := by
  intro hmem
  rcases mem_toString_int hmem with h | h
  · exact hminus h
  · rw [hdigit] at h
    cases h

theorem digitsVal_repr (n : ℕ) : digitsVal (Nat.repr n).toList = n := by
  have hvalue : Nat.ofDigitChars 10 (Nat.toDigits 10 n) 0 = n := Nat.ofDigitChars_ten_toDigits
  rw [Nat.ofDigitChars_eq_foldl] at hvalue
  rw [Nat.repr, String.toList_ofList]
  exact hvalue

theorem digitsVal_replicate_zero (n : ℕ) : digitsVal (List.replicate n '0') = 0 := by
  unfold digitsVal
  induction n with
  | zero => rfl
  | succ n ih => exact ih

theorem digitsVal_concat (l : List Char) (c : Char) :
    digitsVal (l ++ [c]) = 10 * digitsVal l + (c.toNat - 48) := by
  rw [digitsVal, digitsVal, List.foldl_append]
  rfl

theorem isDigit_bounds {c : Char} (h : isDigit c = true) : 48 ≤ c.toNat ∧ c.toNat ≤ 57 := by
  rw [isDigit, Bool.and_eq_true, decide_eq_true_iff, decide_eq_true_iff] at h
  exact h

theorem digitsVal_lt {l : List Char} (h : ∀ c ∈ l, isDigit c = true) :
    digitsVal l < 10 ^ l.length := by
  induction l using List.reverseRecOn with
  | nil => decide
  | append_singleton l c ih =>
    have hl := ih fun d hd => h d (List.mem_append_left _ hd)
    have hc := isDigit_bounds (h c (by simp))
    rw [digitsVal_concat, List.length_append, List.length_singleton, pow_succ]
    omega

/-- Rows of digits of one length that denote one number are the same. -/
theorem digitsVal_inj {l l' : List Char} (hl : ∀ c ∈ l, isDigit c = true)
    (hl' : ∀ c ∈ l', isDigit c = true) (hlength : l.length = l'.length)
    (h : digitsVal l = digitsVal l') : l = l' := by
  induction l using List.reverseRecOn generalizing l' with
  | nil => exact (List.length_eq_zero_iff.1 hlength.symm).symm
  | append_singleton l c ih =>
    rcases List.eq_nil_or_concat' l' with rfl | ⟨m, d, rfl⟩
    · simp at hlength
    · have hc := isDigit_bounds (hl c (by simp))
      have hd := isDigit_bounds (hl' d (by simp))
      rw [digitsVal_concat, digitsVal_concat] at h
      have hval : digitsVal l = digitsVal m := by omega
      have hchar : c = d := Char.toNat_inj.1 (by omega)
      have hrest := ih (fun x hx => hl x (List.mem_append_left _ hx))
        (fun x hx => hl' x (List.mem_append_left _ hx)) (by simpa using hlength) hval
      rw [hrest, hchar]

theorem signedDigits_of_digits {ds : List Char} (hne : ds ≠ []) (h : ∀ c ∈ ds, isDigit c = true) :
    signedDigits ds = some (false, ds) := by
  have hall : ds.all isDigit = true := List.all_eq_true.2 h
  cases ds with
  | nil => exact absurd rfl hne
  | cons d ds =>
    have hd := h d List.mem_cons_self
    unfold signedDigits
    split
    · rename_i heq
      cases heq
      exact absurd hd (by decide)
    · rename_i heq
      cases heq
      exact absurd hd (by decide)
    · exact if_pos ⟨hne, hall⟩

theorem signedDigits_of_minus {ds : List Char} (hne : ds ≠ []) (h : ∀ c ∈ ds, isDigit c = true) :
    signedDigits ('-' :: ds) = some (true, ds) :=
  if_pos ⟨hne, List.all_eq_true.2 h⟩

/-- **A printed number is read back**, when it is an `int`. -/
theorem atoi_toString {n : ℤ} (hmin : minInt ≤ n) (hmax : n ≤ maxInt) :
    atoi (toString n) = .ok n := by
  have hdigits : ∀ k : ℕ, ∀ c ∈ (Nat.repr k).toList, isDigit c = true :=
    fun k c hc => isDigit_of_mem_repr hc
  unfold atoi
  cases n with
  | ofNat k =>
    have htext : (toString (Int.ofNat k)).toList = (Nat.repr k).toList := rfl
    rw [htext, signedDigits_of_digits (toList_repr_ne_nil k) (hdigits k)]
    simp only [digitsVal_repr, Bool.false_eq_true, if_false]
    exact (if_neg (not_lt.2 hmin)).trans (if_neg (not_lt.2 hmax))
  | negSucc k =>
    have htext : (toString (Int.negSucc k)).toList = '-' :: (Nat.repr k.succ).toList := by
      show ("-" ++ Nat.repr k.succ).toList = _
      rw [String.toList_append]
      rfl
    rw [htext, signedDigits_of_minus (toList_repr_ne_nil _) (hdigits _)]
    simp only [digitsVal_repr, if_true]
    exact (if_neg (not_lt.2 hmin)).trans (if_neg (not_lt.2 hmax))

/-! ## Durations -/

/-- `time.Duration`: a number of nanoseconds. -/
abbrev Duration := ℤ

/-- `time.Second`. -/
def second : Duration := 1000000000

/-- `Duration.Seconds`, over exact numbers. -/
def seconds (d : Duration) : ℚ := (d : ℚ) / 1000000000

/-- The length of a unit in nanoseconds (`unitMap`). -/
def unitOf (u : List Char) : Option ℕ :=
  if u = ['n', 's'] then some 1
  else if u = ['u', 's'] ∨ u = ['µ', 's'] ∨ u = ['μ', 's'] then some 1000
  else if u = ['m', 's'] then some 1000000
  else if u = ['s'] then some 1000000000
  else if u = ['m'] then some 60000000000
  else if u = ['h'] then some 3600000000000
  else none

/-- `leadingFraction`: the digits of a fraction and their scale; digits past the
range of an `int64` are read and ignored. -/
def fraction (ds : List Char) : ℕ × ℕ :=
  let step := fun (acc : ℕ × ℕ × Bool) (c : Char) =>
    let (f, scale, full) := acc
    let y := 10 * f + (c.toNat - 48)
    if full || decide ((2 ^ 63 - 1) / 10 < f) || decide (2 ^ 63 < y) then (f, scale, true)
    else (y, 10 * scale, false)
  let (f, scale, _) := ds.foldl step (0, 1, false)
  (f, scale)

/-- The body of `time.ParseDuration` after the sign: number and unit, again and
again, until the text is used up.  `fuel` bounds the number of rounds; every
round reads at least one character. -/
def durationBody : ℕ → List Char → ℕ → Option ℕ
  | _, [], d => some d
  | 0, _ :: _, _ => none
  | fuel + 1, cs, d =>
    let pre := cs.takeWhile isDigit
    let rest := cs.dropWhile isDigit
    let (post, rest) :=
      match rest with
      | '.' :: r => (r.takeWhile isDigit, r.dropWhile isDigit)
      | r => ([], r)
    let unit := rest.takeWhile (fun c => !(c == '.' || isDigit c))
    let rest := rest.dropWhile (fun c => !(c == '.' || isDigit c))
    if pre = [] ∧ post = [] then none
    else if 2 ^ 63 < digitsVal pre then none
    else
      match unitOf unit with
      | none => none
      | some u =>
        if 2 ^ 63 / u < digitsVal pre then none
        else
          let (f, scale) := fraction post
          let v := digitsVal pre * u + f * u / scale
          if 2 ^ 63 < v ∨ 2 ^ 63 < d + v then none else durationBody fuel rest (d + v)

/-- `time.ParseDuration`; `none` is an error. -/
def parseDuration (s : String) : Option Duration :=
  let (neg, cs) :=
    match s.toList with
    | '-' :: cs => (true, cs)
    | '+' :: cs => (false, cs)
    | cs => (false, cs)
  if cs = ['0'] then some 0
  else if cs = [] then none
  else
    match durationBody cs.length cs 0 with
    | none => none
    | some d => if neg then some (-(d : ℤ)) else if maxInt < (d : ℤ) then none else some d

/-! ## Durations as text -/

/-- `fmtFrac`: a fraction of `prec` digits, without its trailing zeros; nothing
when it is zero. -/
def fracText (v prec : ℕ) : String :=
  let digits := (toString v).toList
  let padded := List.replicate (prec - digits.length) '0' ++ digits
  let kept := (padded.reverse.dropWhile (· == '0')).reverse
  if kept = [] then "" else "." ++ String.ofList kept

/-- A fraction of zero is not printed; another one is printed as a point and digits. -/
theorem fracText_cases (v prec : ℕ) :
    v = 0 ∧ fracText v prec = "" ∨
      v ≠ 0 ∧ ∃ ds : List Char, ds ≠ [] ∧ (∀ c ∈ ds, isDigit c = true) ∧
        fracText v prec = "." ++ String.ofList ds := by
  unfold fracText
  set padded := List.replicate (prec - (toString v).toList.length) '0' ++ (toString v).toList
  have hdigits : ∀ c ∈ padded, isDigit c = true := by
    intro c hc
    rcases List.mem_append.1 hc with hc | hc
    · rw [List.eq_of_mem_replicate hc]
      decide
    · exact isDigit_of_mem_repr hc
  have hkept : ∀ c ∈ (padded.reverse.dropWhile (· == '0')).reverse, isDigit c = true := by
    intro c hc
    exact hdigits c (List.mem_reverse.1 ((List.dropWhile_suffix _).subset (List.mem_reverse.1 hc)))
  have hempty : (padded.reverse.dropWhile (· == '0')).reverse = [] ↔ v = 0 := by
    rw [List.reverse_eq_nil_iff, List.dropWhile_eq_nil_iff]
    constructor
    · intro hzero
      have hzeros : ∀ c ∈ (Nat.repr v).toList, c = '0' := fun c hc =>
        eq_of_beq (hzero c (List.mem_reverse.2 (List.mem_append_right _ hc)))
      rw [← digitsVal_repr v, List.eq_replicate_of_mem hzeros]
      exact digitsVal_replicate_zero _
    · rintro rfl c hc
      rcases List.mem_append.1 (List.mem_reverse.1 hc) with hc | hc
      · rw [List.eq_of_mem_replicate hc]
        rfl
      · have hzero : (toString 0).toList = ['0'] := by decide
        rw [hzero, List.mem_singleton] at hc
        rw [hc]
        rfl
  by_cases hv : v = 0
  · exact .inl ⟨hv, if_pos (hempty.2 hv)⟩
  · exact .inr ⟨hv, _, fun h => hv (hempty.1 h), hkept, if_neg fun h => hv (hempty.1 h)⟩

/-- The text of a positive duration. -/
def durationTextPos (u : ℕ) : String :=
  if u < 1000 then toString u ++ "ns"
  else if u < 1000000 then toString (u / 1000) ++ fracText (u % 1000) 3 ++ "µs"
  else if u < 1000000000 then toString (u / 1000000) ++ fracText (u % 1000000) 6 ++ "ms"
  else
    let s := u / 1000000000
    let secText := toString (s % 60) ++ fracText (u % 1000000000) 9 ++ "s"
    let minText := if s < 60 then "" else toString (s / 60 % 60) ++ "m"
    let hourText := if s < 3600 then "" else toString (s / 3600) ++ "h"
    hourText ++ minText ++ secText

/-- `Duration.String`. -/
def durationText (d : Duration) : String :=
  if d = 0 then "0s"
  else if d < 0 then "-" ++ durationTextPos d.natAbs
  else durationTextPos d.natAbs

example : durationText (3690 * second) = "1h1m30s" := by decide
example : durationText 1500000 = "1.5ms" := by decide
example : parseDuration "1m30s" = some (90 * second) := by decide
example : parseDuration "1.5s" = some 1500000000 := by decide
example : parseDuration "30" = none := by decide
example : atoi "-12" = .ok (-12) := by decide

end Go
