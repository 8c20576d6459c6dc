import JobMon.Lib.Regex

/-!
# The text of a regular expression

The text is read from the left, one open group on top of another.  Alternatives, groups and
the two anchors are read; classes, repetitions and escapes are left out.

* `parse` — the expression a text stands for.
* `test` — whether there is a match anywhere in a text.
* `parseFrom_words` — words between bars are alternatives that match these words.
* `test_anchored_iff` — an anchored group of words matches exactly these words.
-/

namespace Regex

/-! ## Matching -/

section Test

variable {α : Type} {r : Regex α} {s : List α}

/-- There is a match somewhere in the text. -/
def test (r : Regex α) (s : List α) : Bool := (r.exec s).isSome

theorem test_iff : r.test s = true ↔ ∃ u ∈ s.tails, rests s r u ≠ [] := by
  rw [test, exec, List.findSome?_isSome_iff]
  simp [List.head?_eq_none_iff, List.ne_nil_iff_exists_cons, Option.isSome_iff_ne_none]

/-- It matches the empty text only. -/
def empty : Regex α := star (cls fun _ => false)

theorem mem_empty_iff {whole t : List α} : t ∈ rests whole empty s ↔ s = t := by
  rw [empty, mem_star_iff single_cls]
  constructor
  · rintro ⟨w, rfl, hw⟩
    cases w with
    | nil => rfl
    | cons a w => exact absurd (hw a List.mem_cons_self) Bool.false_ne_true
  · rintro rfl
    exact ⟨[], rfl, by simp⟩

/-- The expression matches these words, whatever comes after them. -/
def Reads (r : Regex α) (words : List (List α)) : Prop :=
  ∀ whole s t, t ∈ rests whole r s ↔ ∃ w ∈ words, s = w ++ t

theorem reads_empty : Reads (empty : Regex α) [[]] := fun whole s t => by
  simp [mem_empty_iff]

theorem Reads.alt {r' : Regex α} {ws ws' : List (List α)} (h : r.Reads ws) (h' : r'.Reads ws') :
    (r.alt r').Reads (ws ++ ws') := fun whole s t => by
  rw [mem_alt_iff, h whole s t, h' whole s t]
  simp only [List.mem_append, or_and_right, exists_or]

end Test

/-! ## Reading -/

/-- The characters that do not stand for themselves. -/
def specialChars : List Char :=
  [Char.ofNat 92, '.', '+', '*', '?', '(', ')', '|', '[', ']', '{', '}', '^', '$']

/-- One character. -/
def char (c : Char) : Regex Char := cls fun d => d == c

/-- A group that is being read. -/
structure Group where
  /-- The alternatives before the last bar. -/
  before : Option (Regex Char) := none
  /-- What comes after it. -/
  current : Option (Regex Char) := none

namespace Group

def push (g : Group) (r : Regex Char) : Group :=
  { g with current := some (match g.current with | none => r | some r' => seq r' r) }

def close (g : Group) : Regex Char :=
  match g.before with
  | none => g.current.getD empty
  | some r => alt r (g.current.getD empty)

def bar (g : Group) : Group := { before := some g.close }

end Group

/-- Read on, inside of these groups; `none` for what is not read here. -/
def parseFrom : List Group → List Char → Option (Regex Char)
  | gs, [] => match gs with
    | [g] => some g.close
    | _ => none
  | [], _ :: _ => none
  | g :: gs, c :: cs =>
    if c = '(' then parseFrom ({} :: g :: gs) cs
    else if c = ')' then
      match gs with
      | [] => none
      | outer :: gs => parseFrom (outer.push g.close :: gs) cs
    else if c = '|' then parseFrom (g.bar :: gs) cs
    else if c = '^' then parseFrom (g.push bos :: gs) cs
    else if c = '$' then parseFrom (g.push eos :: gs) cs
    else if c ∈ specialChars then none
    else parseFrom (g.push (char c) :: gs) cs

/-- The expression a text stands for. -/
def parse (cs : List Char) : Option (Regex Char) := parseFrom [{}] cs

/-! ## Words and bars -/

/-- The group has read these words, and this one after the last bar. -/
structure Group.Has (g : Group) (words : List (List Char)) (word : List Char) : Prop where
  before : match g.before with
    | none => words = []
    | some r => r.Reads words
  current : (g.current.getD empty).Reads [word]

theorem Group.has_new : Group.Has {} [] [] := ⟨rfl, reads_empty⟩

theorem Group.Has.close {g : Group} {words : List (List Char)} {word : List Char}
    (h : g.Has words word) : g.close.Reads (words ++ [word]) := by
  obtain ⟨before, current⟩ := g
  cases before with
  | none =>
    rw [show words = [] from h.before, List.nil_append]
    exact h.current
  | some r => exact Reads.alt h.before h.current

theorem Group.Has.bar {g : Group} {words : List (List Char)} {word : List Char}
    (h : g.Has words word) : g.bar.Has (words ++ [word]) [] :=
  ⟨h.close, reads_empty⟩

theorem Group.Has.push_char {g : Group} {words : List (List Char)} {word : List Char}
    (h : g.Has words word) (c : Char) : (g.push (char c)).Has words (word ++ [c]) := by
  refine ⟨h.before, fun whole s t => ?_⟩
  have hchar : ∀ s t, t ∈ rests whole (char c) s ↔ s = c :: t := by
    intro s t
    rw [char, mem_cls_iff]
    simp
  obtain ⟨before, current⟩ := g
  cases current with
  | none =>
    have hword : word = [] := by
      have hnil := (h.current [] word []).2 ⟨word, by simp, by simp⟩
      simpa [mem_empty_iff] using hnil
    subst hword
    simpa [Group.push] using hchar s t
  | some r =>
    have hread := h.current whole
    simp only [Option.getD_some, List.mem_singleton, exists_eq_left] at hread
    simp only [Group.push, Option.getD_some, mem_seq_iff, hchar, hread, List.mem_singleton,
      exists_eq_left, List.append_assoc, List.singleton_append]
    constructor
    · rintro ⟨u, hs, rfl⟩
      exact hs
    · intro hs
      exact ⟨c :: t, hs, rfl⟩

theorem parseFrom_char {c : Char} (h : c ∉ specialChars) (g : Group) (gs : List Group)
    (cs : List Char) : parseFrom (g :: gs) (c :: cs) = parseFrom (g.push (char c) :: gs) cs := by
  have hne : ∀ d ∈ specialChars, c ≠ d := fun d hd heq => h (heq ▸ hd)
  rw [parseFrom.eq_def]
  simp only [if_neg (hne '(' (by decide)), if_neg (hne ')' (by decide)),
    if_neg (hne '|' (by decide)), if_neg (hne '^' (by decide)), if_neg (hne '$' (by decide)),
    if_neg h]

/-- **Words between bars** become the alternatives of the group they stand in. -/
theorem parseFrom_words {cs : List Char} (h : ∀ c ∈ cs, c = '|' ∨ c ∉ specialChars) {g : Group}
    {words : List (List Char)} {word : List Char} (hg : g.Has words word) (gs : List Group)
    (rest : List Char) :
    ∃ g', parseFrom (g :: gs) (cs ++ rest) = parseFrom (g' :: gs) rest ∧
      g'.close.Reads (words ++ (cs.splitOn '|').modifyHead (word ++ ·)) := by
  induction cs generalizing g words word with
  | nil => exact ⟨g, rfl, by simpa using hg.close⟩
  | cons c cs ih =>
    have hcs : ∀ d ∈ cs, d = '|' ∨ d ∉ specialChars := fun d hd => h d (List.mem_cons_of_mem _ hd)
    rw [List.splitOn_cons_eq_if_modifyHead, List.cons_append]
    by_cases hbar : c = '|'
    · subst hbar
      obtain ⟨g', hparse, hreads⟩ := ih hcs hg.bar
      have hid : (fun l : List Char => [] ++ l) = id := rfl
      rw [hid, List.modifyHead_id] at hreads
      refine ⟨g', hparse, ?_⟩
      simpa using hreads
    · obtain ⟨g', hparse, hreads⟩ := ih hcs (hg.push_char c)
      refine ⟨g', ?_, ?_⟩
      · rw [parseFrom_char ((h c List.mem_cons_self).resolve_left hbar)]
        exact hparse
      · have hhead : (fun l : List Char => word ++ l) ∘ (fun l => c :: l) =
            fun l => word ++ [c] ++ l := by
          funext l
          simp
        simpa [hbar, List.modifyHead_modifyHead, hhead] using hreads

/-- **An anchored group of words** matches exactly these words. -/
theorem test_anchored_iff {cs : List Char} (h : ∀ c ∈ cs, c = '|' ∨ c ∉ specialChars) :
    ∃ r, parse ('^' :: '(' :: (cs ++ [')', '$'])) = some r ∧
      ∀ s, r.test s = true ↔ s ∈ cs.splitOn '|' := by
  obtain ⟨g, hparse, hreads⟩ := parseFrom_words h Group.has_new [Group.push {} bos] [')', '$']
  have hid : (fun l : List Char => [] ++ l) = id := rfl
  rw [hid, List.modifyHead_id, List.nil_append] at hreads
  refine ⟨seq (seq bos g.close) eos, ?_, fun s => ?_⟩
  · exact hparse
  · rw [test_iff]
    constructor
    · rintro ⟨u, hu, hne⟩
      obtain ⟨t, ht⟩ := List.exists_mem_of_ne_nil _ hne
      obtain ⟨t', hgroup, hend⟩ := mem_seq_iff.1 ht
      obtain ⟨rfl, -⟩ := mem_eos_iff.1 hend
      obtain ⟨u', hstart, hwords⟩ := mem_seq_iff.1 hgroup
      obtain ⟨hlength, rfl⟩ := mem_bos_iff.1 hstart
      obtain ⟨w, hw, hs⟩ := (hreads s u' []).1 hwords
      rw [← ((List.mem_tails _ _).1 hu).eq_of_length hlength, hs, List.append_nil]
      exact hw
    · intro hs
      have hwords : [] ∈ rests s g.close s := (hreads s s []).2 ⟨s, hs, by simp⟩
      have hgroup : [] ∈ rests s (seq bos g.close) s :=
        mem_seq_iff.2 ⟨s, mem_bos_iff.2 ⟨rfl, rfl⟩, hwords⟩
      have hmatch : [] ∈ rests s (seq (seq bos g.close) eos) s :=
        mem_seq_iff.2 ⟨[], hgroup, mem_eos_iff.2 ⟨rfl, rfl⟩⟩
      exact ⟨s, (List.mem_tails _ _).2 List.suffix_rfl, List.ne_nil_of_mem hmatch⟩

example : ((parse "^(n1|n2)$".toList).map fun r => (r.test "n2".toList, r.test "n12".toList)) =
    some (true, false) := by decide

end Regex
