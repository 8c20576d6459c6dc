import JobMon.Router.LiveProcess

/-!
# Who writes to a live connection

The reader answers messages and the forwarder sends the latest values, both on the same
connection, which takes one write at a time.

* `LiveState.OneWriter` — no two writes have begun and not ended.
* `Contended` — both goroutines have something to write.
* `Apart` — an answer becomes ready only while there is no sample to write, and a sample is
  handed over only while there is no answer to write.
* `one_writer_iff` — there is one writer at a time, in whatever order the goroutines begin to
  write, exactly when all steps are apart.
* `two_writers` — a run in which both write.
-/

namespace JobMon

open Runs

variable {D : Type}

/-- It has something to write. -/
def Reader.holds : Reader D → Bool
  | answering _ => true
  | writing _ => true
  | _ => false

/-- It has something to write. -/
def Forwarder.holds : Forwarder D → Bool
  | forwarding _ => true
  | writing _ => true
  | _ => false

/-- A goroutine calls `WriteJSON`. -/
def LiveStep.begins : LiveStep D → Bool
  | beginAnswer => true
  | beginForward => true
  | _ => false

namespace LiveState

/-- No two writes have begun and not ended. -/
def OneWriter (s : LiveState D) : Prop :=
  ¬ ((∃ data, s.reader = .writing data) ∧ ∃ data, s.forwarder = .writing data)

/-- Both goroutines have something to write. -/
def Contended (s : LiveState D) : Prop := s.reader.holds = true ∧ s.forwarder.holds = true

/-- The goroutine that gets something to write is the only one. -/
def Apart (s : LiveState D) : LiveStep D → Prop
  | .answered (some _) => s.forwarder.holds = false
  | .handOver => s.reader.holds = false
  | _ => True

variable {s t : LiveState D} {a : LiveStep D} {steps : List (LiveStep D)}

theorem oneWriter_of_not_contended (h : ¬ s.Contended) : s.OneWriter := by
  rintro ⟨⟨data, hreader⟩, data', hforwarder⟩
  exact h ⟨by rw [hreader]; rfl, by rw [hforwarder]; rfl⟩

/-- A goroutine that begins to write had something to write before. -/
theorem holds_begin (hstep : s.step a = some t) (ha : a.begins = true) :
    t.reader.holds = s.reader.holds ∧ t.forwarder.holds = s.forwarder.holds := by
  cases a with
  | beginAnswer =>
    simp only [step] at hstep
    split at hstep
    · rename_i data hreader
      cases hstep
      exact ⟨by rw [hreader]; rfl, rfl⟩
    · cases hstep
  | beginForward =>
    simp only [step] at hstep
    split at hstep
    · rename_i data hforwarder
      cases hstep
      exact ⟨rfl, by rw [hforwarder]; rfl⟩
    · cases hstep
  | _ => cases ha

theorem contended_run_begins (hrun : Run (StepOf step) s steps t)
    (hbegins : ∀ a ∈ steps, a.begins = true) : t.Contended ↔ s.Contended := by
  induction hrun with
  | nil => rfl
  | snoc hrun hstep ih =>
    have hall := List.forall_mem_append.1 hbegins
    obtain ⟨hreader, hforwarder⟩ := holds_begin hstep (hall.2 _ List.mem_cons_self)
    rw [← ih hall.1, Contended, Contended, hreader, hforwarder]

/-- **Where both have something to write**, they can come to write both. -/
theorem exists_two_writers (h : s.Contended) :
    ∃ begins t, (∀ a ∈ begins, a.begins = true) ∧ Run (StepOf step) s begins t ∧
      ¬ t.OneWriter := by
  obtain ⟨hreader, hforwarder⟩ := h
  -- first the reader begins, if it has not, then the forwarder
  have hread : ∃ begins t data, (∀ a ∈ begins, a.begins = true) ∧
      Run (StepOf step) s begins t ∧ t.reader = .writing data ∧ t.forwarder = s.forwarder := by
    cases hr : s.reader with
    | answering data =>
      have hstep : s.step .beginAnswer = some { s with reader := .writing data } := by
        simp only [step, hr]
      exact ⟨[.beginAnswer], _, data, by simp [LiveStep.begins], .snoc .nil hstep, rfl, rfl⟩
    | writing data => exact ⟨[], s, data, by simp, .nil, hr, rfl⟩
    | _ => simp [hr, Reader.holds] at hreader
  obtain ⟨begins, u, data, hbegins, hrun, hwriting, hsame⟩ := hread
  cases hf : s.forwarder with
  | forwarding data' =>
    have hstep : StepOf step u .beginForward { u with forwarder := .writing data' } := by
      simp only [StepOf, step, hsame, hf]
    refine ⟨begins ++ [.beginForward], _, ?_, hrun.snoc hstep, ?_⟩
    · intro a ha
      rcases List.mem_append.1 ha with ha | ha
      · exact hbegins a ha
      · rw [List.mem_singleton.1 ha]
        rfl
    · exact fun hone => hone ⟨⟨data, hwriting⟩, data', rfl⟩
  | writing data' =>
    refine ⟨begins, u, hbegins, hrun, fun hone => hone ⟨⟨data, hwriting⟩, data', ?_⟩⟩
    rw [hsame, hf]
  | _ => simp [hf, Forwarder.holds] at hforwarder

/-- **One step**: only a query that ends and a sample that is handed over give a goroutine
something to write. -/
theorem not_contended_step (h : ¬ s.Contended) (hstep : s.step a = some t) (hapart : s.Apart a) :
    ¬ t.Contended := by
  rintro ⟨hreader, hforwarder⟩
  cases a with
  | answered result =>
    simp only [step] at hstep
    split at hstep
    · cases hstep
      exact Bool.eq_false_iff.1 hapart hforwarder
    · cases hstep
      cases hreader
    · cases hstep
  | handOver =>
    simp only [step] at hstep
    split at hstep
    · cases hstep
      exact Bool.eq_false_iff.1 hapart hreader
    · cases hstep
  | _ =>
    simp only [step] at hstep
    split at hstep <;> cases hstep <;>
      first
        | exact h ⟨hreader, hforwarder⟩
        | simp_all [Contended, Reader.holds, Forwarder.holds]

theorem apart_of_step (h : ¬ t.Contended) (hstep : s.step a = some t) : s.Apart a := by
  cases a with
  | answered result =>
    cases result with
    | none => trivial
    | some data =>
      refine Bool.eq_false_iff.2 fun hforwarder => h ?_
      simp only [step] at hstep
      split at hstep
      · cases hstep
        exact ⟨rfl, hforwarder⟩
      · rename_i hnone
        cases hnone
      · cases hstep
  | handOver =>
    refine Bool.eq_false_iff.2 fun hreader => h ?_
    simp only [step] at hstep
    split at hstep
    · cases hstep
      exact ⟨hreader, rfl⟩
    · cases hstep
  | _ => trivial

/-- **One writer at a time.**  In a run there is one writer in every state, and in whatever
order the goroutines that have something to write begin to write from there, if and only if a
query for a message ends with data only while the forwarder has nothing to write, and a sample
is handed over only while the reader has nothing to write. -/
theorem one_writer_iff (steps : List (LiveStep D)) (t : LiveState D)
    (hrun : Run (StepOf step) {} steps t) :
    Throughout (StepOf step) {} steps
        (fun u => ∀ begins v, (∀ a ∈ begins, a.begins = true) → Run (StepOf step) u begins v →
          v.OneWriter) ↔
      Run (Guarded Apart (StepOf step)) {} steps t := by
  have hstart : ¬ ({} : LiveState D).Contended := by rintro ⟨h, -⟩; cases h
  rw [← throughout_iff_guarded hrun hstart (fun _ h => h)
    (fun _ _ _ _ hstep ht => apart_of_step ht hstep)
    fun _ _ _ h hstep hapart => not_contended_step h hstep hapart]
  refine forall₂_congr fun pre u => forall₂_congr fun _ _ => ?_
  constructor
  · intro hall hcontended
    obtain ⟨begins, v, hbegins, hrun, htwo⟩ := exists_two_writers hcontended
    exact htwo (hall begins v hbegins hrun)
  · intro hnot begins v hbegins hrun
    refine oneWriter_of_not_contended fun hcontended => hnot ?_
    exact (contended_run_begins hrun hbegins).1 hcontended

/-- The client asks for old values, and the answer is ready while the latest values are being
sent. -/
def askWhileSending : List (LiveStep ℕ) :=
  [.message (.loadMetrics 0 60), .tick, .takeTick, .sampled (some 5), .readMessage, .handOver,
    .beginForward, .answered (some 7), .beginAnswer]

/-- Where that leads. -/
def bothWriting : LiveState ℕ where
  reader := .writing 7
  forwarder := .writing 5

/-- **Two writes at once.** -/
theorem two_writers :
    Run (StepOf step) {} askWhileSending bothWriting ∧ ¬ bothWriting.OneWriter :=
  ⟨run_exec_iff.2 rfl, fun hone => hone ⟨⟨7, rfl⟩, 5, rfl⟩⟩

/-- A question and a tick, one after the other. -/
def askThenTick : List (LiveStep ℕ) :=
  [.message (.loadMetrics 0 60), .readMessage, .answered (some 7), .beginAnswer, .endAnswer,
    .tick, .takeTick, .sampled (some 5), .handOver, .beginForward, .endForward]

theorem one_writer_iff_askThenTick :
    Throughout (StepOf step) {} askThenTick
        (fun u => ∀ begins v, (∀ a ∈ begins, a.begins = true) → Run (StepOf step) u begins v →
          v.OneWriter) ↔
      Run (Guarded Apart (StepOf step)) {} askThenTick {} :=
  one_writer_iff askThenTick {} (run_exec_iff.2 rfl)

end LiveState

end JobMon
