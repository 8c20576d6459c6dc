import Mathlib.Data.List.SplitBy
import Mathlib.Data.List.Nodup

/-!
# Runs of consecutive elements

A list cut into its maximal runs of elements that carry the same mark, read one
element at a time.

* `runs_snoc_same`, `runs_snoc_new` — what one more element does to the runs.
* `lastRun` — the last run of a key; `getD_lastRun` says that it holds every
  element of its key when no other run has this key.
* `Replaced` — a property of the runs that come after an earlier run of their
  key.
-/

namespace Grouping

variable {α μ κ : Type} [DecidableEq μ] [DecidableEq κ]

/-! ## Maximal runs -/

/-- The maximal runs of consecutive elements with the same mark. -/
def runs (mark : α → μ) (l : List α) : List (List α) := l.splitBy fun a b => mark a == mark b

variable {mark : α → μ} {l g : List α} {gs : List (List α)} {a : α}

theorem flatten_runs (mark : α → μ) (l : List α) : (runs mark l).flatten = l :=
  List.flatten_splitBy _ l

theorem ne_nil_of_mem_runs (h : g ∈ runs mark l) : g ≠ [] := List.ne_nil_of_mem_splitBy h

/-- All elements of a run carry one mark. -/
theorem mark_eq_of_mem_runs (h : g ∈ runs mark l) : ∀ a ∈ g, ∀ b ∈ g, mark a = mark b := by
  have hchain : List.IsChain (fun a b => mark a = mark b) g := by
    refine (List.isChain_of_mem_splitBy h).imp ?_
    intro a b hab
    exact eq_of_beq hab
  have : IsTrans α fun a b => mark a = mark b := ⟨fun _ _ _ => Eq.trans⟩
  have : Std.Symm fun a b => mark a = mark b := ⟨fun _ _ => Eq.symm⟩
  have hpair : g.Pairwise fun a b => mark a = mark b := List.isChain_iff_pairwise.1 hchain
  have hself : ∀ a ∈ g, (fun a b => mark a = mark b) a a := fun _ _ => rfl
  intro a ha b hb
  exact List.Pairwise.forall_of_forall hself hpair ha hb

/-- The last element of a list is the last one of its last run. -/
theorem getLast?_of_runs (h : runs mark l = gs ++ [g]) : l.getLast? = g.getLast? := by
  have hg : g ≠ [] := ne_nil_of_mem_runs (by rw [h]; exact List.mem_append_right _ (by simp))
  rw [← flatten_runs mark l, h, List.flatten_append, List.flatten_singleton,
    List.getLast?_append_of_ne_nil _ hg]

/-- An element with another mark than the last one starts a run. -/
theorem runs_snoc_new (h : ∀ b ∈ l.getLast?, mark b ≠ mark a) :
    runs mark (l ++ [a]) = runs mark l ++ [[a]] := by
  rw [runs, List.splitBy_append_cons]
  · rfl
  · intro b hb
    exact beq_eq_false_iff_ne.2 (h b hb)

/-- An element with the mark of the last one joins its run. -/
theorem runs_snoc_same (hruns : runs mark l = gs ++ [g]) (h : ∀ b ∈ l.getLast?, mark b = mark a) :
    runs mark (l ++ [a]) = gs ++ [g ++ [a]] := by
  have hlast := getLast?_of_runs hruns
  obtain ⟨hl, hnil, hchain, hgap⟩ := List.splitBy_eq_iff.1 hruns
  have hg : g ≠ [] := fun hg => hnil (by simp [hg])
  refine List.splitBy_eq_iff.2 ⟨?_, ?_, ?_, ?_⟩
  · rw [hl]
    simp
  · intro hmem
    rcases List.mem_append.1 hmem with hmem | hmem
    · exact hnil (List.mem_append_left _ hmem)
    · simp at hmem
  · intro m hm
    rcases List.mem_append.1 hm with hm | hm
    · exact hchain m (List.mem_append_left _ hm)
    · rw [List.mem_singleton.1 hm, List.isChain_append]
      refine ⟨hchain g (List.mem_append_right _ (by simp)), by simp, ?_⟩
      intro b hb c hc
      rw [← hlast] at hb
      cases hc
      exact beq_iff_eq.2 (h b hb)
  · -- the boundary before the last run is where it was
    rw [List.isChain_append] at hgap ⊢
    refine ⟨hgap.1, by simp, ?_⟩
    intro b hb c hc
    cases hc
    obtain ⟨hb', hg', hne⟩ := hgap.2.2 b hb g (by simp)
    refine ⟨hb', by simp, ?_⟩
    rwa [List.head_append_of_ne_nil hg']

/-- One more element starts a run or joins the last one. -/
theorem runs_snoc_cases (mark : α → μ) (l : List α) (a : α) :
    ((∀ b ∈ l.getLast?, mark b ≠ mark a) ∧ runs mark (l ++ [a]) = runs mark l ++ [[a]]) ∨
      ∃ gs g, runs mark l = gs ++ [g] ∧ runs mark (l ++ [a]) = gs ++ [g ++ [a]] := by
  by_cases hnew : ∀ b ∈ l.getLast?, mark b ≠ mark a
  · exact Or.inl ⟨hnew, runs_snoc_new hnew⟩
  · refine Or.inr ?_
    have hsame : ∀ b ∈ l.getLast?, mark b = mark a := by
      intro b hb
      by_contra hne
      refine hnew fun b' hb' => ?_
      rwa [Option.mem_unique hb' hb]
    rcases List.eq_nil_or_concat (runs mark l) with hnil | ⟨gs, g, hruns⟩
    · refine absurd ?_ hnew
      have hempty : l = [] := by rw [← flatten_runs mark l, hnil, List.flatten_nil]
      rw [hempty]
      simp
    · rw [List.concat_eq_append] at hruns
      exact ⟨gs, g, hruns, runs_snoc_same hruns hsame⟩

/-! ## The last run of a key -/

/-- The key of a run is the key of its first element. -/
def HasKey (key : α → κ) (k : κ) (run : List α) : Bool := run.head?.any fun a => key a == k

/-- The last of the runs with key `k`. -/
def lastRun (key : α → κ) (k : κ) (rs : List (List α)) : Option (List α) :=
  rs.reverse.find? (HasKey key k)

variable {key : α → κ} {k : κ}

theorem hasKey_cons {l : List α} : HasKey key k (a :: l) = true ↔ key a = k := by
  simp [HasKey]

theorem lastRun_snoc :
    lastRun key k (gs ++ [g]) = if HasKey key k g then some g else lastRun key k gs := by
  rw [lastRun, List.reverse_append, List.reverse_singleton, List.singleton_append, List.find?_cons]
  cases HasKey key k g <;> rfl

theorem isSome_lastRun_iff : (lastRun key k gs).isSome ↔ ∃ r ∈ gs, HasKey key k r = true := by
  rw [lastRun, List.find?_isSome]
  simp only [List.mem_reverse]

/-- A list has a run of a key when it has an element of this key. -/
theorem isSome_lastRun_runs_iff (hkey : ∀ a b, mark a = mark b → key a = key b) :
    (lastRun key k (runs mark l)).isSome ↔ ∃ a ∈ l, key a = k := by
  rw [isSome_lastRun_iff]
  constructor
  · rintro ⟨g, hg, hk⟩
    cases g with
    | nil => simp [HasKey] at hk
    | cons a g =>
      refine ⟨a, ?_, hasKey_cons.1 hk⟩
      rw [← flatten_runs mark l]
      exact List.mem_flatten.2 ⟨_, hg, List.mem_cons_self⟩
  · rintro ⟨a, ha, hk⟩
    rw [← flatten_runs mark l] at ha
    obtain ⟨g, hg, ha⟩ := List.mem_flatten.1 ha
    refine ⟨g, hg, ?_⟩
    cases g with
    | nil => simp at ha
    | cons b g =>
      rw [hasKey_cons, ← hk]
      exact hkey _ _ (mark_eq_of_mem_runs hg _ List.mem_cons_self _ ha)

/-- Every key has at most one run. -/
def SingleRuns (key : α → κ) (rs : List (List α)) : Prop :=
  rs.Pairwise fun r r' => ∀ k, HasKey key k r = true → HasKey key k r' = false

/-- **A key with one run has all its elements in it.** -/
theorem getD_lastRun (hsingle : SingleRuns key gs)
    (hone : ∀ g ∈ gs, ∀ a ∈ g, ∀ b ∈ g, key a = key b) :
    (lastRun key k gs).getD [] = gs.flatten.filter fun a => key a = k := by
  induction gs using List.reverseRecOn with
  | nil => rfl
  | append_singleton gs g ih =>
    have hgs := ih (List.pairwise_append.1 hsingle).1
      (fun g' hg' => hone g' (List.mem_append_left _ hg'))
    have hg : ∀ a ∈ g, ∀ b ∈ g, key a = key b :=
      hone g (List.mem_append_right _ List.mem_cons_self)
    rw [List.flatten_append, List.flatten_singleton, List.filter_append, lastRun_snoc, ← hgs]
    by_cases hk : HasKey key k g = true
    · -- the last run is the one of the key, and no earlier run has it
      have hnone : lastRun key k gs = none := by
        rw [← Option.not_isSome_iff_eq_none, isSome_lastRun_iff]
        rintro ⟨r, hr, hrk⟩
        have := (List.pairwise_append.1 hsingle).2.2 r hr g List.mem_cons_self k hrk
        rw [hk] at this
        cases this
      have hall : ∀ a ∈ g, decide (key a = k) = true := by
        intro a ha
        cases g with
        | nil => simp at ha
        | cons b g =>
          rw [decide_eq_true_eq, ← hasKey_cons.1 hk]
          exact hg a ha b List.mem_cons_self
      rw [if_pos hk, hnone, Option.getD_some, Option.getD_none, List.nil_append,
        List.filter_eq_self.2 hall]
    · have hno : ∀ a ∈ g, ¬ decide (key a = k) = true := by
        intro a ha hak
        cases g with
        | nil => simp at ha
        | cons b g =>
          refine hk (hasKey_cons.2 ?_)
          rw [hg b List.mem_cons_self a ha, of_decide_eq_true hak]
      rw [if_neg hk, List.filter_eq_nil_iff.2 hno, List.append_nil]

/-- **Sorted elements have one run a key.**  `f` sorts the list, a key lies at
one place of the order, and a place has one mark. -/
theorem singleRuns_of_sorted {f : α → ℤ} (hsorted : l.Pairwise fun a b => f a ≤ f b)
    (hkey : ∀ a ∈ l, ∀ b ∈ l, key a = key b → f a = f b)
    (hmark : ∀ a ∈ l, ∀ b ∈ l, f a = f b → mark a = mark b) :
    SingleRuns key (runs mark l) := by
  induction l using List.reverseRecOn with
  | nil => exact List.Pairwise.nil
  | append_singleton l x ih =>
    have hl : ∀ a ∈ l, a ∈ l ++ [x] := fun a ha => List.mem_append_left _ ha
    have hx : x ∈ l ++ [x] := List.mem_append_right _ List.mem_cons_self
    obtain ⟨hsorted, -, hlast⟩ := List.pairwise_append.1 hsorted
    have ih := ih hsorted (fun a ha b hb => hkey a (hl a ha) b (hl b hb))
      (fun a ha b hb => hmark a (hl a ha) b (hl b hb))
    rcases runs_snoc_cases mark l x with ⟨hnew, hruns⟩ | ⟨gs, g, hruns, hjoin⟩
    · rw [hruns, SingleRuns, List.pairwise_append]
      refine ⟨ih, List.pairwise_singleton _ _, ?_⟩
      intro r hr r' hr' k hk
      rw [List.mem_singleton.1 hr', Bool.eq_false_iff, Ne, hasKey_cons]
      intro hxk
      cases r with
      | nil => simp [HasKey] at hk
      | cons a r =>
        -- the key of `x` occurs before: everything since then lies at its place
        have ha : a ∈ l := by
          rw [← flatten_runs mark l]
          exact List.mem_flatten.2 ⟨_, hr, List.mem_cons_self⟩
        have hplace : f a = f x := hkey a (hl a ha) x hx ((hasKey_cons.1 hk).trans hxk.symm)
        rcases List.eq_nil_or_concat l with rfl | ⟨l', c, rfl⟩
        · exact absurd ha List.not_mem_nil
        rw [List.concat_eq_append] at *
        have hc : c ∈ l' ++ [c] := List.mem_append_right _ List.mem_cons_self
        have hac : f a ≤ f c := by
          rcases List.mem_append.1 ha with ha | ha
          · exact (List.pairwise_append.1 hsorted).2.2 a ha c List.mem_cons_self
          · exact Int.le_of_eq (congrArg f (List.mem_singleton.1 ha))
        have hcx : f c ≤ f x := hlast c hc x List.mem_cons_self
        exact hnew c (by simp) (hmark c (hl c hc) x hx (by omega))
    · rw [hruns, SingleRuns, List.pairwise_append] at ih
      rw [hjoin, SingleRuns, List.pairwise_append]
      refine ⟨ih.1, List.pairwise_singleton _ _, ?_⟩
      intro r hr r' hr' k hk
      have hg : g ≠ [] :=
        ne_nil_of_mem_runs (by rw [hruns]; exact List.mem_append_right _ (by simp))
      have hfalse := ih.2.2 r hr g List.mem_cons_self k hk
      rw [List.mem_singleton.1 hr']
      cases g with
      | nil => exact absurd rfl hg
      | cons b g => exact hfalse

/-! ## Runs that replace an earlier one -/

/-- Every run that has the key of an earlier one satisfies `P`. -/
def Replaced (key : α → κ) (P : List α → Prop) (rs : List (List α)) : Prop :=
  ∀ gs g rest, rs = gs ++ g :: rest →
    (∃ k, HasKey key k g = true ∧ ∃ r ∈ gs, HasKey key k r = true) → P g

variable {P : List α → Prop}

theorem replaced_nil : Replaced key P [] := by
  intro gs g rest h
  simp at h

theorem replaced_snoc_iff : Replaced key P (gs ++ [g]) ↔
    Replaced key P gs ∧
      ((∃ k, HasKey key k g = true ∧ ∃ r ∈ gs, HasKey key k r = true) → P g) := by
  constructor
  · intro h
    refine ⟨?_, h gs g [] rfl⟩
    intro hs r rest hrs
    exact h hs r (rest ++ [g]) (by rw [hrs]; simp)
  · rintro ⟨hgs, hg⟩ hs r rest hrs hk
    rcases List.eq_nil_or_concat rest with rfl | ⟨rest', x, rfl⟩
    · obtain ⟨rfl, rfl⟩ := List.append_inj' hrs rfl |>.imp id (fun h => List.cons.inj h |>.1)
      exact hg hk
    · rw [List.concat_eq_append, ← List.cons_append, ← List.append_assoc] at hrs
      obtain ⟨rfl, -⟩ := List.append_inj' hrs rfl
      exact hgs hs r rest' rfl hk

/-- Where no key has two runs, none is replaced. -/
theorem SingleRuns.replaced (h : SingleRuns key gs) : Replaced key P gs := by
  rintro hs g rest rfl ⟨k, hk, r, hr, hrk⟩
  have := (List.pairwise_append.1 h).2.2 r hr g List.mem_cons_self k hrk
  rw [hk] at this
  cases this

end Grouping
