import Mathlib.Data.List.Basic
import Mathlib.Tactic.Common

/-!
# `LIKE` conditions in the text of a statement

A text that is put between the quotes of a literal is read back by the database, and
with it whatever stands around the literal.

* `readLiteral` — a text literal, in which a doubled quote stands for a single one.
* `readLiteral_append` — a text without quotes is read back as it is.
* `readLiteral_of_mem` — from a text with quotes something shorter is read.
* `readWhere` — `LIKE` conditions joined by `OR`.
* `readWhere_whereText` — conditions whose patterns have no quotes are read back.

The quote is a parameter, and so is what the columns stand for.
-/

namespace SqlText

variable (q : Char)

/-! ## Literals -/

/-- A text literal whose opening quote has been read: what it says, and what comes after
it. -/
def readLiteral : List Char → Option (List Char × List Char)
  | [] => none
  | [c] => if c = q then some ([], []) else none
  | c :: d :: cs =>
    if c = q then
      if d = q then (readLiteral cs).map fun p => (q :: p.1, p.2) else some ([], d :: cs)
    else (readLiteral (d :: cs)).map fun p => (c :: p.1, p.2)

variable {q}

theorem readLiteral_cons {c : Char} (h : c ≠ q) {cs : List Char} (hcs : cs ≠ []) :
    readLiteral q (c :: cs) = (readLiteral q cs).map fun p => (c :: p.1, p.2) := by
  cases cs with
  | nil => exact absurd rfl hcs
  | cons d cs => rw [readLiteral, if_neg h]

/-- **A text without quotes.** -/
theorem readLiteral_append {cs rest : List Char} (h : q ∉ cs) (hrest : rest.head? ≠ some q) :
    readLiteral q (cs ++ q :: rest) = some (cs, rest) := by
  induction cs with
  | nil =>
    cases rest with
    | nil => simp [readLiteral]
    | cons d rest =>
      have hd : d ≠ q := by simpa using hrest
      simp [readLiteral, hd]
  | cons c cs ih =>
    have hc : c ≠ q := fun heq => h (by simp [heq])
    rw [List.cons_append, readLiteral_cons hc (by simp), ih fun hmem => h (by simp [hmem])]
    rfl

/-- **A text with quotes.**  The literal ends before the text does, or one quote of a
doubled one is gone. -/
theorem readLiteral_of_mem {pad : Char} {rest : List Char} (hpad : pad ≠ q)
    (hrest : rest.head? ≠ some q) {cs p r : List Char} (hq : q ∈ cs)
    (h : readLiteral q (cs ++ pad :: q :: rest) = some (p, r)) :
    p.length < cs.length ∨ ∃ u : List Char, u.length < cs.length ∧ p = u ++ [pad] := by
  induction cs using readLiteral.induct q generalizing p r with
  | case1 => simp at hq
  | case2 =>
    simp [readLiteral, hpad] at h
    simp [← h.1]
  | case3 c hc => exact absurd (List.mem_singleton.1 hq).symm hc
  | case4 cs ih =>
    -- a doubled quote
    rw [List.cons_append, List.cons_append, readLiteral, if_pos rfl, if_pos rfl,
      Option.map_eq_some_iff] at h
    obtain ⟨⟨p', r'⟩, hread, heq⟩ := h
    cases heq
    by_cases hmem : q ∈ cs
    · rcases ih hmem hread with hlt | ⟨u, hlt, rfl⟩
      · left
        simp only [List.length_cons]
        omega
      · right
        refine ⟨q :: u, ?_, rfl⟩
        simp only [List.length_cons]
        omega
    · have hall : readLiteral q ((cs ++ [pad]) ++ q :: rest) = some (cs ++ [pad], rest) :=
        readLiteral_append (by simp [hmem, hpad.symm]) hrest
      rw [List.append_assoc, List.singleton_append, hread] at hall
      cases hall
      right
      exact ⟨q :: cs, by simp, rfl⟩
  | case5 d cs hd =>
    rw [List.cons_append, List.cons_append, readLiteral, if_pos rfl, if_neg hd] at h
    cases h
    left
    simp
  | case6 c d cs hc ih =>
    rw [List.cons_append, readLiteral_cons hc (by simp), Option.map_eq_some_iff] at h
    obtain ⟨⟨p', r'⟩, hread, heq⟩ := h
    cases heq
    have hmem : q ∈ d :: cs := by
      rcases List.mem_cons.1 hq with heq | hmem
      · exact absurd heq.symm hc
      · exact hmem
    rcases ih hmem hread with hlt | ⟨u, hlt, rfl⟩
    · left
      simp only [List.length_cons] at hlt ⊢
      omega
    · right
      refine ⟨c :: u, ?_, rfl⟩
      simp only [List.length_cons] at hlt ⊢
      omega

/-! ## Conditions -/

variable {κ : Type} (q) (columns : List (List Char × κ))

/-- A condition `column LIKE 'pattern'`: what the column stands for, the pattern, and what
comes after it. -/
def readCondition (cs : List Char) : Option ((κ × List Char) × List Char) :=
  (columns.findSome? fun column =>
    ((column.1 ++ " LIKE ".toList ++ [q]).isPrefixOf? cs).map fun cs => (column.2, cs)).bind
      fun found => (readLiteral q found.2).map fun p => ((found.1, p.1), p.2)

/-- Conditions joined by `OR`, at most as many as the first argument says. -/
def readWhere : ℕ → List Char → Option (List (κ × List Char))
  | 0, _ => none
  | fuel + 1, cs =>
    match readCondition q columns cs with
    | none => none
    | some (condition, rest) =>
      if rest = [] then some [condition]
      else
        (" OR ".toList.isPrefixOf? rest).bind fun rest =>
          (readWhere fuel rest).map fun conditions => condition :: conditions

variable {q columns}

theorem isPrefixOf?_append (l cs : List Char) : l.isPrefixOf? (l ++ cs) = some cs := by
  induction l with
  | nil => rfl
  | cons c l ih => simp [List.isPrefixOf?, ih]

theorem isPrefixOf?_append_of_ne {l m cs : List Char} (hlm : ¬ l <+: m) (hml : ¬ m <+: l) :
    l.isPrefixOf? (m ++ cs) = none := by
  induction l generalizing m with
  | nil => exact absurd List.nil_prefix hlm
  | cons c l ih =>
    cases m with
    | nil => exact absurd List.nil_prefix hml
    | cons d m =>
      by_cases hc : c = d
      · subst hc
        rw [List.prefix_cons_inj] at hlm hml
        simpa [List.isPrefixOf?] using ih hlm hml
      · simp [List.isPrefixOf?, hc]

/-- A text that starts with the column of this name is read so. -/
def Reads (q : Char) (columns : List (List Char × κ)) (column : List Char × κ) : Prop :=
  ∀ cs, readCondition q columns (column.1 ++ " LIKE ".toList ++ [q] ++ cs) =
    (readLiteral q cs).map fun p => ((column.2, p.1), p.2)

theorem Reads.head (column : List Char × κ) : Reads q (column :: columns) column := by
  intro cs
  simp only [readCondition, List.findSome?_cons, isPrefixOf?_append, Option.map_some,
    Option.bind_some]

theorem Reads.tail {column other : List Char × κ} (h : Reads q columns column)
    (hlm : ¬ other.1 ++ " LIKE ".toList ++ [q] <+: column.1 ++ " LIKE ".toList ++ [q])
    (hml : ¬ column.1 ++ " LIKE ".toList ++ [q] <+: other.1 ++ " LIKE ".toList ++ [q]) :
    Reads q (other :: columns) column := by
  intro cs
  rw [← h cs]
  simp only [readCondition, List.findSome?_cons, isPrefixOf?_append_of_ne hlm hml,
    Option.map_none]

theorem readWhere_last {fuel : ℕ} {cs : List Char} {condition : κ × List Char}
    (h : readCondition q columns cs = some (condition, [])) :
    readWhere q columns (fuel + 1) cs = some [condition] := by
  simp [readWhere, h]

theorem readWhere_or {fuel : ℕ} {cs rest : List Char} {condition : κ × List Char}
    (h : readCondition q columns cs = some (condition, " OR ".toList ++ rest)) :
    readWhere q columns (fuel + 1) cs =
      (readWhere q columns fuel rest).map fun conditions => condition :: conditions := by
  simp only [readWhere, h]
  rfl

/-- The text of a condition. -/
def conditionText (q : Char) (column pattern : List Char) : List Char :=
  column ++ " LIKE ".toList ++ [q] ++ (pattern ++ [q])

/-- The text of conditions joined by `OR`. -/
def whereText (q : Char) (conditions : List (List Char × List Char)) : List Char :=
  " OR ".toList.intercalate (conditions.map fun c => conditionText q c.1 c.2)

/-- There are no more conditions than characters. -/
theorem length_le_whereText (conditions : List (List Char × List Char)) :
    conditions.length ≤ (whereText q conditions).length := by
  induction conditions with
  | nil => simp
  | cons c conditions ih =>
    have hc : 1 ≤ (conditionText q c.1 c.2).length := by
      simp [conditionText]
      omega
    cases conditions with
    | nil => simpa [whereText] using hc
    | cons d conditions =>
      simp only [whereText, List.map_cons, List.intercalate_cons_cons, List.length_append,
        List.length_cons] at ih ⊢
      omega

theorem Reads.conditionText {column : List Char × κ} (h : Reads q columns column)
    {pattern rest : List Char} (hpattern : q ∉ pattern) (hrest : rest.head? ≠ some q) :
    readCondition q columns (conditionText q column.1 pattern ++ rest) =
      some ((column.2, pattern), rest) := by
  rw [SqlText.conditionText, List.append_assoc, h, List.append_assoc, List.singleton_append,
    readLiteral_append hpattern hrest]
  rfl

/-- **Conditions whose patterns have no quotes are read back.** -/
theorem readWhere_whereText (hq : q ≠ ' ') {conditions : List ((List Char × κ) × List Char)}
    (hne : conditions ≠ []) (h : ∀ c ∈ conditions, Reads q columns c.1 ∧ q ∉ c.2) {fuel : ℕ}
    (hfuel : conditions.length ≤ fuel) :
    readWhere q columns fuel (whereText q (conditions.map fun c => (c.1.1, c.2))) =
      some (conditions.map fun c => (c.1.2, c.2)) := by
  induction conditions generalizing fuel with
  | nil => exact absurd rfl hne
  | cons c conditions ih =>
    obtain ⟨fuel, rfl⟩ : ∃ f, fuel = f + 1 := ⟨fuel - 1, by simp at hfuel; omega⟩
    obtain ⟨hreads, hpattern⟩ := h c List.mem_cons_self
    cases conditions with
    | nil =>
      have hread : readCondition q columns (SqlText.conditionText q c.1.1 c.2 ++ []) =
          some ((c.1.2, c.2), []) := hreads.conditionText hpattern (by simp)
      rw [List.append_nil] at hread
      simp only [whereText, List.map_cons, List.map_nil, List.intercalate_singleton]
      exact readWhere_last hread
    | cons d conditions =>
      have hread : readCondition q columns (SqlText.conditionText q c.1.1 c.2 ++
            (" OR ".toList ++ whereText q ((d :: conditions).map fun c => (c.1.1, c.2)))) =
          some ((c.1.2, c.2),
            " OR ".toList ++ whereText q ((d :: conditions).map fun c => (c.1.1, c.2))) :=
        hreads.conditionText hpattern (by simpa using hq.symm)
      have htail : readWhere q columns fuel
          (whereText q ((d :: conditions).map fun c => (c.1.1, c.2))) = _ :=
        ih (by simp) (fun c hc => h c (List.mem_cons_of_mem _ hc)) (by simpa using hfuel)
      have htext : whereText q ((c :: d :: conditions).map fun c => (c.1.1, c.2)) =
          SqlText.conditionText q c.1.1 c.2 ++
            (" OR ".toList ++ whereText q ((d :: conditions).map fun c => (c.1.1, c.2))) := by
        simp [whereText]
      rw [htext, readWhere_or hread, htail]
      rfl

/-- Where conditions are read, the text starts with one of them. -/
theorem readCondition_of_readWhere {fuel : ℕ} {cs : List Char} {conditions : List (κ × List Char)}
    (h : readWhere q columns fuel cs = some conditions) :
    ∃ condition rest, readCondition q columns cs = some (condition, rest) ∧
      condition ∈ conditions := by
  cases fuel with
  | zero => simp [readWhere] at h
  | succ fuel =>
    cases hread : readCondition q columns cs with
    | none => simp [readWhere, hread] at h
    | some p =>
      refine ⟨p.1, p.2, rfl, ?_⟩
      simp only [readWhere, hread] at h
      by_cases hrest : p.2 = []
      · rw [if_pos hrest] at h
        cases h
        exact List.mem_singleton_self _
      · rw [if_neg hrest, Option.bind_eq_some_iff] at h
        obtain ⟨rest, -, hmap⟩ := h
        obtain ⟨tail, -, rfl⟩ := Option.map_eq_some_iff.1 hmap
        exact List.mem_cons_self

end SqlText
