import Mathlib.Data.List.Induction
import Mathlib.Tactic.Common

/-!
# Runs of a labelled transition system

A system is a relation `R s a s'`: in state `s` the labelled step `a` may lead
to `s'`.  A run is a sequence of such steps; what holds "in every state of every
run" is an invariant, proved once by looking at a single step.

* `Run` — the runs from a given state, with the labels they took.
* `Run.invariant` — the induction rule: what holds at the start and survives
  every step holds wherever a run ends.
* `Guarded`, `Run.unguard` — the runs all of whose steps meet a condition on
  the state they start in and the label they take.
* `Run.guard_congr` — one condition may take the place of another where an
  invariant makes them agree.
* `Throughout` — what holds in every state a run leads through.
* `exec`, `run_exec_iff` — for a step function instead of a relation, runs can
  be computed.
* `throughout_iff_guarded` — what holds all the way holds exactly in the runs
  whose steps meet a condition, when each step needs it and it suffices for each.
* `forall_prefix_iff`, `forall_append_cons_iff` — the same for a property of the labels
  alone, and its step at the front.
-/

namespace Runs

variable {σ α : Type}

/-- `Run R s as s'`: from `s`, taking the steps labelled `as` one after the
other, `R` can reach `s'`. -/
inductive Run (R : σ → α → σ → Prop) (s : σ) : List α → σ → Prop
  | nil : Run R s [] s
  | snoc {as : List α} {t u : σ} {a : α} : Run R s as t → R t a u → Run R s (as ++ [a]) u

variable {R R' : σ → α → σ → Prop} {s t u : σ} {as : List α}

/-- **The induction rule.** -/
theorem Run.invariant {I : σ → Prop} (h : Run R s as t) (h0 : I s)
    (hstep : ∀ s a s', I s → R s a s' → I s') : I t := by
  induction h with
  | nil => exact h0
  | snoc _ hr ih => exact hstep _ _ _ ih hr

/-- The induction rule for a property of the labels taken so far and the state
they led to. -/
theorem Run.history {I : List α → σ → Prop} (h : Run R s as t) (h0 : I [] s)
    (hstep : ∀ as t a u, Run R s as t → I as t → R t a u → I (as ++ [a]) u) : I as t := by
  induction h with
  | nil => exact h0
  | snoc hrun hr ih => exact hstep _ _ _ _ hrun ih hr

theorem Run.mono (h : Run R s as t) (hR : ∀ s a s', R s a s' → R' s a s') : Run R' s as t := by
  induction h with
  | nil => exact .nil
  | snoc _ hr ih => exact ih.snoc (hR _ _ _ hr)

/-- One run after another. -/
theorem Run.append {bs : List α} (h : Run R s as t) (h' : Run R t bs u) : Run R s (as ++ bs) u := by
  induction h' with
  | nil => rwa [List.append_nil]
  | snoc _ hr ih =>
    rw [← List.append_assoc]
    exact ih.snoc hr

theorem run_nil_iff : Run R s [] t ↔ t = s := by
  constructor
  · intro h
    generalize hl : ([] : List α) = l at h
    cases h with
    | nil => rfl
    | snoc _ _ => simp at hl
  · rintro rfl
    exact .nil

theorem run_snoc_iff {a : α} : Run R s (as ++ [a]) u ↔ ∃ t, Run R s as t ∧ R t a u := by
  constructor
  · intro h
    generalize hl : as ++ [a] = l at h
    cases h with
    | nil => simp at hl
    | snoc hrun hr =>
      obtain ⟨rfl, hlast⟩ := List.append_inj' hl rfl
      cases hlast
      exact ⟨_, hrun, hr⟩
  · rintro ⟨t, hrun, hr⟩
    exact hrun.snoc hr

theorem run_append_iff {bs : List α} :
    Run R s (as ++ bs) u ↔ ∃ t, Run R s as t ∧ Run R t bs u := by
  constructor
  · intro h
    induction bs using List.reverseRecOn generalizing u with
    | nil =>
      rw [List.append_nil] at h
      exact ⟨u, h, .nil⟩
    | append_singleton bs b ih =>
      rw [← List.append_assoc] at h
      obtain ⟨v, hv, hlast⟩ := run_snoc_iff.1 h
      obtain ⟨t, ht, hrest⟩ := ih hv
      exact ⟨t, ht, hrest.snoc hlast⟩
  · rintro ⟨t, h, h'⟩
    exact h.append h'

/-! ## Conditions on the steps -/

/-- The steps of `R` that meet the condition `G` on the state they start in and
the label they take. -/
def Guarded (G : σ → α → Prop) (R : σ → α → σ → Prop) (s : σ) (a : α) (s' : σ) : Prop :=
  G s a ∧ R s a s'

theorem Run.unguard {G : σ → α → Prop} (h : Run (Guarded G R) s as t) : Run R s as t :=
  h.mono fun _ _ _ h => h.2

/-- Conditions that agree wherever an invariant of the admitted steps holds admit the
same runs. -/
theorem Run.guard_congr {I : σ → Prop} {G G' : σ → α → Prop} (h : Run (Guarded G R) s as t)
    (h0 : I s) (hstep : ∀ s a s', I s → Guarded G R s a s' → I s')
    (hG : ∀ s a s', I s → Guarded G R s a s' → G' s a) : Run (Guarded G' R) s as t := by
  induction h with
  | nil => exact .nil
  | snoc hrun hr ih =>
    have hinv := hrun.invariant h0 hstep
    exact ih.snoc ⟨hG _ _ _ hinv hr, hr.2⟩

/-! ## What holds all the way -/

/-- `P` holds in every state the steps `as` lead through, the first and the last
included. -/
def Throughout (R : σ → α → σ → Prop) (s : σ) (as : List α) (P : σ → Prop) : Prop :=
  ∀ pre t, pre <+: as → Run R s pre t → P t

theorem throughout_snoc_iff {P : σ → Prop} {a : α} :
    Throughout R s (as ++ [a]) P ↔
      Throughout R s as P ∧ ∀ t, Run R s (as ++ [a]) t → P t := by
  constructor
  · intro h
    exact ⟨fun pre t hp => h pre t (hp.trans (List.prefix_append as [a])),
      fun t => h _ t List.prefix_rfl⟩
  · rintro ⟨hall, hlast⟩ pre t hp hrun
    rcases List.prefix_concat_iff.1 hp with rfl | hp
    · exact hlast t hrun
    · exact hall pre t hp hrun

/-- **What holds of every start of a sequence**, when one more label keeps it exactly if
a condition is met. -/
theorem forall_prefix_iff {P : List α → Prop} {G : List α → α → Prop} (h0 : P [])
    (hstep : ∀ pre a, P pre → (P (pre ++ [a]) ↔ G pre a)) (as : List α) :
    (∀ pre, pre <+: as → P pre) ↔ ∀ pre a, pre ++ [a] <+: as → G pre a := by
  constructor
  · intro h pre a hpre
    have hshort := (List.prefix_append pre [a]).trans hpre
    exact (hstep pre a (h pre hshort)).1 (h _ hpre)
  · intro h pre hpre
    induction pre using List.reverseRecOn with
    | nil => exact h0
    | append_singleton pre a ih =>
      have hshort := (List.prefix_append pre [a]).trans hpre
      exact (hstep pre a (ih hshort)).2 (h pre a hpre)

/-- What holds of every label and those before it, for a sequence with one more label in
front. -/
theorem forall_append_cons_iff {P : List α → α → Prop} {b : α} {l : List α} :
    (∀ before a after, b :: l = before ++ a :: after → P before a) ↔
      P [] b ∧ ∀ before a after, l = before ++ a :: after → P (b :: before) a := by
  constructor
  · intro h
    exact ⟨h [] b l rfl, fun before a after hl => h (b :: before) a after (by rw [hl]; rfl)⟩
  · rintro ⟨hb, hl⟩ before a after heq
    cases before with
    | nil =>
      obtain ⟨rfl, -⟩ := List.cons.inj heq
      exact hb
    | cons c before =>
      obtain ⟨rfl, hrest⟩ := List.cons.inj heq
      exact hl before a after hrest

/-! ## Step functions -/

/-- The relation of a step function. -/
def StepOf (f : σ → α → Option σ) (s : σ) (a : α) (s' : σ) : Prop := f s a = some s'

/-- Take the steps labelled `as` one after the other; `none` as soon as one of
them is not enabled. -/
def exec (f : σ → α → Option σ) (s : σ) : List α → Option σ
  | [] => some s
  | a :: as => (f s a).bind fun s' => exec f s' as

variable {f : σ → α → Option σ}

theorem exec_append (s : σ) (as bs : List α) :
    exec f s (as ++ bs) = (exec f s as).bind fun t => exec f t bs := by
  induction as generalizing s with
  | nil => rfl
  | cons a as ih =>
    rw [List.cons_append, exec, exec]
    cases f s a with
    | none => rfl
    | some s' => exact ih s'

/-- **Runs of a step function are computed by `exec`.** -/
theorem run_exec_iff : Run (StepOf f) s as t ↔ exec f s as = some t := by
  induction as using List.reverseRecOn generalizing t with
  | nil => rw [run_nil_iff, exec, Option.some.injEq, eq_comm]
  | append_singleton as a ih =>
    rw [run_snoc_iff, exec_append]
    constructor
    · rintro ⟨v, hv, hr⟩
      rw [ih.1 hv, Option.bind_some, exec, show f v a = some t from hr]
      rfl
    · intro h
      cases hv : exec f s as with
      | none => rw [hv] at h; simp at h
      | some v =>
        rw [hv, Option.bind_some, exec] at h
        refine ⟨v, ih.2 hv, ?_⟩
        cases ha : f v a with
        | none => rw [ha] at h; simp at h
        | some w =>
          rw [ha] at h
          exact ha.trans h

/-- A run of a step function can end in one state only. -/
theorem run_unique (h : Run (StepOf f) s as t) (h' : Run (StepOf f) s as u) : t = u :=
  Option.some.inj ((run_exec_iff.1 h).symm.trans (run_exec_iff.1 h'))

/-- The condition holds wherever a run that meets it takes a step. -/
theorem Run.guard_of_prefix {G : σ → α → Prop} {a : α} (h : Run (Guarded G (StepOf f)) s as t)
    {pre : List α} (hpre : pre ++ [a] <+: as) (hrun : Run (StepOf f) s pre u) : G u a := by
  induction h with
  | nil =>
    have := List.prefix_nil.1 hpre
    simp at this
  | snoc hguarded hstep ih =>
    rcases List.prefix_concat_iff.1 hpre with heq | hshort
    · obtain ⟨rfl, hlast⟩ := List.append_inj' heq rfl
      cases hlast
      rw [run_unique hrun hguarded.unguard]
      exact hstep.1
    · exact ih hshort

/-- **Exactly the guarded runs.**  `I` implies `P` and is kept by the steps that
meet `G`; a step from `I` that ends in `P` meets `G`. -/
theorem throughout_iff_guarded {G : σ → α → Prop} {I P : σ → Prop} (h : Run (StepOf f) s as t)
    (h0 : I s) (hP : ∀ s, I s → P s) (hneed : ∀ s a s', I s → f s a = some s' → P s' → G s a)
    (hkeep : ∀ s a s', I s → f s a = some s' → G s a → I s') :
    Throughout (StepOf f) s as P ↔ Run (Guarded G (StepOf f)) s as t := by
  have hinv : ∀ {as u}, Run (Guarded G (StepOf f)) s as u → I u :=
    fun hrun => hrun.invariant h0 fun s a s' hs hstep => hkeep s a s' hs hstep.2 hstep.1
  induction h with
  | nil =>
    refine iff_of_true ?_ .nil
    intro pre u hpre hrun
    rw [List.prefix_nil.1 hpre, run_nil_iff] at hrun
    rw [hrun]
    exact hP s h0
  | @snoc as v u a hrun hstep ih =>
    rw [throughout_snoc_iff]
    constructor
    · rintro ⟨hall, hlast⟩
      have hguarded := ih.1 hall
      refine hguarded.snoc ⟨?_, hstep⟩
      exact hneed v a u (hinv hguarded) hstep (hlast u (hrun.snoc hstep))
    · intro hguarded
      obtain ⟨v', hguarded', hguard, hstep'⟩ := run_snoc_iff.1 hguarded
      have hsame : v' = v := run_unique hguarded'.unguard hrun
      subst hsame
      refine ⟨ih.2 hguarded', ?_⟩
      intro u' hu'
      rw [run_unique hu' (hrun.snoc hstep)]
      exact hP u (hinv hguarded)

end Runs
