import Mathlib.Data.List.Basic
import Mathlib.Data.List.TakeWhile
import Mathlib.Data.List.Infix
import Mathlib.Tactic.Common

/-!
# Regular expressions that backtrack

A matcher tries the ways to match in an order of preference: a repetition would
rather go on than stop, an alternative would rather take its left side.  The first
way that works, at the first place where one does, is the match.

* `rests` — what each way to match at the start of a text leaves of it, the
  preferred one first.
* `exec` — the text of the match.
* `exec_eq_self_iff` — when the match is the whole text.
* `Single` — expressions that match one character; `mem_star_iff`, `head_star` say
  what repeating them matches, and what it prefers.
-/

/-- Regular expressions; a class of characters is a predicate. -/
inductive Regex (α : Type)
  | cls (p : α → Bool)
  | seq (r r' : Regex α)
  | alt (r r' : Regex α)
  | star (r : Regex α)
  /-- The start of the text, `^`. -/
  | bos
  /-- The end of the text, `$`. -/
  | eos

namespace Regex

variable {α : Type}

/-- `r+`. -/
def plus (r : Regex α) : Regex α := seq r (star r)

/-- At most `n` rounds of something that has to get on; more rounds first. -/
def rounds (step : List α → List (List α)) : ℕ → List α → List (List α)
  | 0, s => [s]
  | n + 1, s => ((step s).filter fun t => t.length < s.length).flatMap (rounds step n) ++ [s]

/-- What is left of `s`, the end of the text `whole`, after each way to match. -/
def rests (whole : List α) : Regex α → List α → List (List α)
  | cls _, [] => []
  | cls p, a :: s => if p a then [s] else []
  | seq r r', s => (rests whole r s).flatMap (rests whole r')
  | alt r r', s => rests whole r s ++ rests whole r' s
  | star r, s => rounds (rests whole r) s.length s
  | bos, s => if s.length = whole.length then [s] else []
  | eos, s => if s = [] then [s] else []

/-- The text of the match, if there is one. -/
def exec (r : Regex α) (s : List α) : Option (List α) :=
  s.tails.findSome? fun u =>
    (rests s r u).head?.map fun t => u.take (u.length - t.length)

/-! ## Ways to match -/

variable {whole s t : List α} {p q : α → Bool} {r r' : Regex α}

theorem mem_cls_iff : t ∈ rests whole (cls p) s ↔ ∃ a, s = a :: t ∧ p a = true := by
  cases s with
  | nil => simp [rests]
  | cons a s =>
    by_cases ha : p a = true
    · rw [rests, if_pos ha, List.mem_singleton]
      constructor
      · rintro rfl
        exact ⟨a, rfl, ha⟩
      · rintro ⟨b, hb, -⟩
        cases hb
        rfl
    · rw [rests, if_neg ha]
      refine iff_of_false List.not_mem_nil ?_
      rintro ⟨b, hb, hpb⟩
      cases hb
      exact ha hpb

theorem mem_seq_iff :
    t ∈ rests whole (seq r r') s ↔ ∃ u ∈ rests whole r s, t ∈ rests whole r' u :=
  List.mem_flatMap

theorem mem_alt_iff :
    t ∈ rests whole (alt r r') s ↔ t ∈ rests whole r s ∨ t ∈ rests whole r' s :=
  List.mem_append

theorem mem_eos_iff : t ∈ rests whole eos s ↔ s = [] ∧ t = [] := by
  by_cases hs : s = []
  · simp [rests, hs]
  · simp [rests, hs]

theorem mem_bos_iff : t ∈ rests whole bos s ↔ s.length = whole.length ∧ t = s := by
  by_cases hs : s.length = whole.length
  · simp [rests, hs]
  · simp [rests, hs]

/-- Rounds leave an end of the text when each of them does. -/
theorem suffix_of_mem_rounds {step : List α → List (List α)}
    (hstep : ∀ s t, t ∈ step s → t <:+ s) {n : ℕ} (h : t ∈ rounds step n s) : t <:+ s := by
  induction n generalizing s with
  | zero =>
    rw [List.mem_singleton.1 h]
  | succ n ih =>
    rw [rounds, List.mem_append, List.mem_flatMap, List.mem_singleton] at h
    rcases h with ⟨u, hu, ht⟩ | rfl
    · exact (ih ht).trans (hstep s u (List.mem_filter.1 hu).1)
    · exact List.suffix_rfl

/-- What is left is an end of the text. -/
theorem suffix_of_mem (h : t ∈ rests whole r s) : t <:+ s := by
  induction r generalizing s t with
  | cls p =>
    obtain ⟨a, rfl, -⟩ := mem_cls_iff.1 h
    exact List.suffix_cons a t
  | seq r r' ih ih' =>
    obtain ⟨u, hu, ht⟩ := mem_seq_iff.1 h
    exact (ih' ht).trans (ih hu)
  | alt r r' ih ih' =>
    rcases mem_alt_iff.1 h with h | h
    · exact ih h
    · exact ih' h
  | star r ih => exact suffix_of_mem_rounds (fun s t => ih) h
  | bos => rw [(mem_bos_iff.1 h).2]
  | eos =>
    obtain ⟨rfl, rfl⟩ := mem_eos_iff.1 h
    exact List.suffix_rfl

/-! ## The preferred way -/

theorem head_seq {u : List α} (h : (rests whole r s).head? = some u)
    (h' : (rests whole r' u).head? = some t) : (rests whole (seq r r') s).head? = some t := by
  obtain ⟨us, hus⟩ := List.head?_eq_some_iff.1 h
  obtain ⟨ts, hts⟩ := List.head?_eq_some_iff.1 h'
  rw [rests, hus, List.flatMap_cons, hts]
  rfl

theorem head_alt_left (h : (rests whole r s).head? = some t) :
    (rests whole (alt r r') s).head? = some t := by
  obtain ⟨ts, hts⟩ := List.head?_eq_some_iff.1 h
  rw [rests, hts]
  rfl

theorem head_alt_right (h : rests whole r s = []) (h' : (rests whole r' s).head? = some t) :
    (rests whole (alt r r') s).head? = some t := by
  rw [rests, h]
  exact h'

theorem head_cls {a : α} (h : p a = true) : (rests whole (cls p) (a :: s)).head? = some s := by
  rw [rests, if_pos h]
  rfl

/-- **The match is the whole text** exactly when the preferred way to match at its
start leaves nothing. -/
theorem exec_eq_self_iff : r.exec s = some s ↔ (rests s r s).head? = some [] := by
  have htails : ∃ us, s.tails = s :: us ∧ ∀ u ∈ us, u.length < s.length := by
    cases s with
    | nil => exact ⟨[], rfl, by simp⟩
    | cons a s =>
      refine ⟨s.tails, rfl, ?_⟩
      intro u hu
      exact Nat.lt_succ_of_le ((List.mem_tails _ _).1 hu).length_le
  obtain ⟨us, htails, hshort⟩ := htails
  rw [exec, htails, List.findSome?_cons]
  cases hhead : (rests s r s).head? with
  | some t =>
    have hle := (suffix_of_mem (List.mem_of_head? hhead)).length_le
    simp only [Option.map_some, Option.some.injEq]
    rw [List.take_eq_self_iff, ← List.length_eq_zero_iff]
    omega
  | none =>
    simp only [Option.map_none]
    refine iff_of_false ?_ (by simp)
    intro h
    obtain ⟨u, hu, hsome⟩ := List.exists_of_findSome?_eq_some h
    obtain ⟨t, -, htake⟩ := Option.map_eq_some_iff.1 hsome
    have hlength := congrArg List.length htake
    rw [List.length_take] at hlength
    have := hshort u hu
    omega

/-! ## Repeating a character class -/

/-- The expression matches one character, of the class `p`. -/
def Single (whole : List α) (r : Regex α) (p : α → Bool) : Prop :=
  ∀ s t, t ∈ rests whole r s ↔ ∃ a, s = a :: t ∧ p a = true

theorem single_cls : Single whole (cls p) p := fun _ _ => mem_cls_iff

theorem single_alt (h : Single whole r p) (h' : Single whole r' q) :
    Single whole (alt r r') fun a => p a || q a := by
  intro s t
  rw [mem_alt_iff, h s t, h' s t]
  simp only [Bool.or_eq_true]
  constructor
  · rintro (⟨a, hs, ha⟩ | ⟨a, hs, ha⟩)
    · exact ⟨a, hs, Or.inl ha⟩
    · exact ⟨a, hs, Or.inr ha⟩
  · rintro ⟨a, hs, ha | ha⟩
    · exact Or.inl ⟨a, hs, ha⟩
    · exact Or.inr ⟨a, hs, ha⟩

/-- A way to match one character leaves the rest, if it is of the class. -/
theorem head_single {a : α} (h : Single whole r p) (ha : p a = true) :
    (rests whole r (a :: s)).head? = some s := by
  have hmem : s ∈ rests whole r (a :: s) := (h _ _).2 ⟨a, rfl, ha⟩
  cases hrests : rests whole r (a :: s) with
  | nil =>
    rw [hrests] at hmem
    cases hmem
  | cons u us =>
    obtain ⟨b, hb, -⟩ := (h (a :: s) u).1 (by rw [hrests]; exact List.mem_cons_self)
    cases hb
    rfl

/-- Repeating takes any number of characters of the class. -/
theorem mem_star_iff (h : Single whole r p) :
    t ∈ rests whole (star r) s ↔ ∃ w, s = w ++ t ∧ ∀ a ∈ w, p a = true := by
  have hrounds : ∀ n s, s.length ≤ n → (t ∈ rounds (rests whole r) n s ↔
      ∃ w, s = w ++ t ∧ ∀ a ∈ w, p a = true) := by
    intro n
    induction n with
    | zero =>
      intro s hs
      have hnil : s = [] := List.length_eq_zero_iff.1 (by omega)
      subst hnil
      rw [rounds, List.mem_singleton]
      constructor
      · rintro rfl
        exact ⟨[], rfl, by simp⟩
      · rintro ⟨w, hw, -⟩
        exact (List.append_eq_nil_iff.1 hw.symm).2
    | succ n ih =>
      intro s hs
      rw [rounds, List.mem_append, List.mem_flatMap, List.mem_singleton]
      constructor
      · rintro (⟨u, hu, ht⟩ | rfl)
        · obtain ⟨a, rfl, ha⟩ := (h s u).1 (List.mem_filter.1 hu).1
          obtain ⟨w, rfl, hw⟩ := (ih u (by rw [List.length_cons] at hs; omega)).1 ht
          exact ⟨a :: w, rfl, List.forall_mem_cons.2 ⟨ha, hw⟩⟩
        · exact ⟨[], rfl, by simp⟩
      · rintro ⟨w, rfl, hw⟩
        cases w with
        | nil => exact Or.inr rfl
        | cons a w =>
          rw [List.forall_mem_cons] at hw
          rw [List.cons_append, List.length_cons] at hs
          refine Or.inl ⟨w ++ t, List.mem_filter.2 ⟨(h _ _).2 ⟨a, rfl, hw.1⟩, ?_⟩, ?_⟩
          · simp
          · exact (ih _ (by omega)).2 ⟨w, rfl, hw.2⟩
  exact hrounds s.length s (le_refl _)

/-- Repeating would rather take all the characters of the class. -/
theorem head_star (h : Single whole r p) :
    (rests whole (star r) s).head? = some (s.dropWhile p) := by
  have hrounds : ∀ n s, s.length ≤ n →
      (rounds (rests whole r) n s).head? = some (s.dropWhile p) := by
    intro n
    induction n with
    | zero =>
      intro s hs
      have hnil : s = [] := List.length_eq_zero_iff.1 (by omega)
      subst hnil
      rfl
    | succ n ih =>
      intro s hs
      cases s with
      | nil =>
        have hnone : rests whole r [] = [] := by
          refine List.eq_nil_iff_forall_not_mem.2 fun u hu => ?_
          obtain ⟨a, ha, -⟩ := (h _ _).1 hu
          cases ha
        rw [rounds, hnone]
        rfl
      | cons a s =>
        rw [List.length_cons] at hs
        by_cases ha : p a = true
        · obtain ⟨us, hus⟩ := List.head?_eq_some_iff.1 (@head_single _ whole s p r a h ha)
          obtain ⟨ts, hts⟩ := List.head?_eq_some_iff.1 (ih s (by omega))
          rw [rounds, hus, List.filter_cons_of_pos (by simp), List.flatMap_cons, hts]
          rw [List.dropWhile_cons_of_pos ha]
          rfl
        · have hnone : rests whole r (a :: s) = [] := by
            refine List.eq_nil_iff_forall_not_mem.2 fun u hu => ?_
            obtain ⟨b, hb, hpb⟩ := (h _ _).1 hu
            cases hb
            exact ha hpb
          rw [rounds, hnone, List.dropWhile_cons_of_neg ha]
          rfl
  exact hrounds s.length s (le_refl _)

/-- One character of the class and then any number. -/
theorem mem_plus_iff (h : Single whole r p) :
    t ∈ rests whole (plus r) s ↔ ∃ w, s = w ++ t ∧ w ≠ [] ∧ ∀ a ∈ w, p a = true := by
  rw [plus, mem_seq_iff]
  constructor
  · rintro ⟨u, hu, ht⟩
    obtain ⟨a, rfl, ha⟩ := (h s u).1 hu
    obtain ⟨w, rfl, hw⟩ := (mem_star_iff h).1 ht
    exact ⟨a :: w, rfl, List.cons_ne_nil a w, List.forall_mem_cons.2 ⟨ha, hw⟩⟩
  · rintro ⟨w, rfl, hne, hw⟩
    cases w with
    | nil => exact absurd rfl hne
    | cons a w =>
      rw [List.forall_mem_cons] at hw
      exact ⟨w ++ t, (h _ _).2 ⟨a, rfl, hw.1⟩, (mem_star_iff h).2 ⟨w, rfl, hw.2⟩⟩

/-- All of them, for preference. -/
theorem head_plus {w : List α} (h : Single whole r p) (hne : w ≠ []) (hw : ∀ a ∈ w, p a = true)
    (ht : t.dropWhile p = t) : (rests whole (plus r) (w ++ t)).head? = some t := by
  cases w with
  | nil => exact absurd rfl hne
  | cons a w =>
    rw [List.forall_mem_cons] at hw
    have hrest : (w ++ t).dropWhile p = t := by rw [List.dropWhile_append_of_pos hw.2, ht]
    refine head_seq (head_single h hw.1) ?_
    rw [head_star h]
    exact congrArg some hrest

end Regex
