import JobMon.Influx.Tasks
import JobMon.Lib.Runs

/-!
# Updates of the aggregation tasks side by side

Every `InfluxDB.Init` starts an `updateAggregationTasks` in its own goroutine.  A
run looks for a task with `FindTasks` and, when there is none, adds it with
`CreateTask`; the calls of different runs come in any order.

* `TaskSystem` — the tasks of the server and the runs of a process.
* `exec_alone` — a run that is alone does what `updateAggregationTasks` does.
* `uniqueTasks_iff` — names stay unique exactly as long as nobody else creates a
  task between the two calls of a run.
-/

namespace JobMon

open Keyed Runs

/-! ## The runs -/

/-- A call of the task API: the run that makes it, and the name it is about. -/
inductive TaskCall
  | findTasks (run : ℕ) (name : String)
  | createTask (run : ℕ) (name : String)
  deriving DecidableEq

/-- A goroutine that runs `updateAggregationTasks`. -/
structure UpdateRun where
  /-- The rounds of the loop that are still to come. -/
  rounds : List AggregationTask
  /-- The task of the current round, after `FindTasks` has not found it. -/
  missing : Option AggregationTask := none

/-- The tasks of the server, the runs of the process, and the calls that were
made, the last one first. -/
structure TaskSystem where
  tasks : List AggregationTask
  runs : List UpdateRun := []
  calls : List TaskCall := []

/-- What can happen next. -/
inductive TaskEvent
  /-- `InfluxDB.Init` starts a run over the metrics of its configuration. -/
  | init (db : InfluxDB) (org : String) (order : Schedule MetricConfig)
  | findTasks (run : ℕ)
  | createTask (run : ℕ)

namespace TaskSystem

/-- The rounds of a run. -/
def rounds (db : InfluxDB) (org : String) (order : Schedule MetricConfig) : List AggregationTask :=
  (order.order (db.metrics.rows.map Prod.snd)).flatMap (db.tasksFor org)

/-- One call, or the start of a run. -/
def step (s : TaskSystem) : TaskEvent → Option TaskSystem
  | .init db org order => some { s with runs := s.runs ++ [{ rounds := rounds db org order }] }
  | .findTasks i =>
    match s.runs[i]? with
    | some ⟨new :: rounds, none⟩ =>
      let found := s.tasks.filter fun t => t.name = new.name
      -- several tasks of the name are logged as an error and left alone
      let missing :=
        if found.length > 1 then none else if found.length > 0 then none else some new
      some { s with
        runs := s.runs.set i ⟨rounds, missing⟩, calls := .findTasks i new.name :: s.calls }
    | _ => none
  | .createTask i =>
    match s.runs[i]? with
    | some ⟨rounds, some new⟩ =>
      some { tasks := s.tasks ++ [new], runs := s.runs.set i ⟨rounds, none⟩
             calls := .createTask i new.name :: s.calls }
    | _ => none

/-- The names of the tasks. -/
def names (s : TaskSystem) : List String := s.tasks.map AggregationTask.name

/-- No two tasks have the same name. -/
def UniqueTasks (s : TaskSystem) : Prop := s.names.Nodup

instance (s : TaskSystem) : Decidable s.UniqueTasks := inferInstanceAs (Decidable s.names.Nodup)

/-- Among the calls since the last time the run has looked for the name, there is a
`CreateTask` for it. -/
def createdSince (run : ℕ) (name : String) : List TaskCall → Bool
  | [] => false
  | .findTasks run' name' :: calls =>
    if run' = run ∧ name' = name then false else createdSince run name calls
  | .createTask _ name' :: calls => name' = name || createdSince run name calls

/-- A `CreateTask` is the first one for its name since its run has looked for it. -/
def FirstCreate (s : TaskSystem) : TaskEvent → Prop
  | .createTask i => ∀ rounds new, s.runs[i]? = some ⟨rounds, some new⟩ →
      createdSince i new.name s.calls = false
  | _ => True

/-- What is missing for a run is missing on the server, unless somebody has created
it since. -/
def Looked (s : TaskSystem) : Prop :=
  ∀ i rounds new, s.runs[i]? = some ⟨rounds, some new⟩ →
    (new.name ∈ s.names ↔ createdSince i new.name s.calls = true)

variable {s s' : TaskSystem}

/-! ## One step -/

/-- What a `FindTasks` does. -/
theorem step_findTasks {i : ℕ} (h : s.step (.findTasks i) = some s') :
    ∃ new rounds missing, s.runs[i]? = some ⟨new :: rounds, none⟩ ∧
      (∀ t, missing = some t → t = new ∧ new.name ∉ s.names) ∧
      s' = { s with runs := s.runs.set i ⟨rounds, missing⟩
                    calls := .findTasks i new.name :: s.calls } := by
  simp only [step] at h
  split at h
  next new rounds hi =>
    refine ⟨new, rounds, _, hi, ?_, (Option.some.inj h).symm⟩
    intro t ht
    split at ht
    · cases ht
    split at ht
    · cases ht
    next hnone =>
      cases ht
      refine ⟨rfl, fun hmem => hnone ?_⟩
      obtain ⟨t, ht, hname⟩ := List.mem_map.1 hmem
      exact List.length_pos_of_mem (List.mem_filter.2 ⟨ht, by simpa using hname⟩)
  next => cases h

/-- What a `CreateTask` does. -/
theorem step_createTask {i : ℕ} (h : s.step (.createTask i) = some s') :
    ∃ new rounds, s.runs[i]? = some ⟨rounds, some new⟩ ∧
      s' = { tasks := s.tasks ++ [new], runs := s.runs.set i ⟨rounds, none⟩
             calls := .createTask i new.name :: s.calls } := by
  simp only [step] at h
  split at h
  next rounds new hi => exact ⟨new, rounds, hi, (Option.some.inj h).symm⟩
  next => cases h

/-- **Step.**  Every step keeps the connection between calls and tasks. -/
theorem Looked.step {e : TaskEvent} (h : s.Looked) (hstep : s.step e = some s') : s'.Looked := by
  cases e with
  | init db org order =>
    cases hstep
    intro i rounds new hi
    rw [List.getElem?_append] at hi
    split at hi
    · exact h i rounds new hi
    · -- the new run has not looked yet
      rw [List.getElem?_singleton] at hi
      split at hi
      · cases hi
      · cases hi
  | findTasks i =>
    obtain ⟨new, rounds, missing, hi, hmissing, rfl⟩ := step_findTasks hstep
    intro k rounds' new' hk
    rw [List.getElem?_set] at hk
    by_cases hik : i = k
    · subst hik
      rw [if_pos rfl] at hk
      split at hk
      · simp only [Option.some.injEq, UpdateRun.mk.injEq] at hk
        obtain ⟨rfl, hno⟩ := hmissing new' hk.2
        have hsince : createdSince i new'.name (.findTasks i new'.name :: s.calls) = false := by
          rw [createdSince, if_pos ⟨rfl, rfl⟩]
        show new'.name ∈ s.names ↔ _
        rw [hsince]
        exact iff_of_false hno Bool.false_ne_true
      · cases hk
    · rw [if_neg hik] at hk
      have hsince : createdSince k new'.name (.findTasks i new.name :: s.calls) =
          createdSince k new'.name s.calls := by
        rw [createdSince, if_neg (fun hsame => hik hsame.1)]
      show new'.name ∈ s.names ↔ _
      rw [hsince]
      exact h k rounds' new' hk
  | createTask i =>
    obtain ⟨new, rounds, hi, rfl⟩ := step_createTask hstep
    intro k rounds' new' hk
    rw [List.getElem?_set] at hk
    have hnames : names { tasks := s.tasks ++ [new], runs := s.runs.set i ⟨rounds, none⟩
                          calls := .createTask i new.name :: s.calls } = s.names ++ [new.name] := by
      simp [names]
    by_cases hik : i = k
    · subst hik
      rw [if_pos rfl] at hk
      split at hk
      · cases hk
      · cases hk
    · rw [if_neg hik] at hk
      rw [hnames, List.mem_append, List.mem_singleton, h k rounds' new' hk, createdSince,
        Bool.or_eq_true, decide_eq_true_eq, or_comm, eq_comm]

/-- A step that is the first to create its task keeps the names unique, and no
other one does. -/
theorem uniqueTasks_step_iff {e : TaskEvent} (hlooked : s.Looked) (h : s.UniqueTasks)
    (hstep : s.step e = some s') : s'.UniqueTasks ↔ s.FirstCreate e := by
  cases e with
  | init db org order =>
    cases hstep
    exact iff_of_true h trivial
  | findTasks i =>
    obtain ⟨new, rounds, missing, -, -, rfl⟩ := step_findTasks hstep
    exact iff_of_true h trivial
  | createTask i =>
    obtain ⟨new, rounds, hi, rfl⟩ := step_createTask hstep
    have hnodup : UniqueTasks { tasks := s.tasks ++ [new], runs := s.runs.set i ⟨rounds, none⟩
                                calls := .createTask i new.name :: s.calls } ↔
        new.name ∉ s.names := by
      rw [UniqueTasks, names, List.map_append, List.map_singleton, List.nodup_append]
      constructor
      · rintro ⟨-, -, hne⟩ hmem
        exact hne _ hmem _ List.mem_cons_self rfl
      · intro hno
        refine ⟨h, List.nodup_singleton _, ?_⟩
        rintro a ha b hb rfl
        exact hno (by rwa [List.mem_singleton.1 hb] at ha)
    rw [hnodup, hlooked i rounds new hi, Bool.not_eq_true]
    constructor
    · intro hno rounds' new' hi'
      cases hi.symm.trans hi'
      exact hno
    · intro hfirst
      exact hfirst rounds new hi

/-! ## A run that is alone -/

/-- The calls of one round and what they leave behind. -/
theorem exec_round {i : ℕ} {new : AggregationTask} {rounds : List AggregationTask}
    (hi : s.runs[i]? = some ⟨new :: rounds, none⟩) :
    ∃ events s', (∀ e ∈ events, e = .findTasks i ∨ e = .createTask i) ∧
      exec step s events = some s' ∧ s'.runs[i]? = some ⟨rounds, none⟩ ∧
      s'.tasks = InfluxDB.updateAggregationTask {} s.tasks new := by
  have hlt : i < s.runs.length := (List.getElem?_eq_some_iff.1 hi).1
  by_cases hfound : (s.tasks.filter fun t => t.name = new.name).length > 0
  · refine ⟨[.findTasks i], { s with
      runs := s.runs.set i ⟨rounds, none⟩
      calls := .findTasks i new.name :: s.calls }, ?_, ?_, ?_, ?_⟩
    · intro e he
      exact Or.inl (List.mem_singleton.1 he)
    · simp only [exec, step, hi, if_pos hfound, ite_self, Option.bind_some]
    · exact List.getElem?_set_self hlt
    · simp only [InfluxDB.updateAggregationTask, if_pos hfound, ite_self]
  · have hseveral : ¬(s.tasks.filter fun t => t.name = new.name).length > 1 := by omega
    refine ⟨[.findTasks i, .createTask i], {
      tasks := s.tasks ++ [new]
      runs := (s.runs.set i ⟨rounds, some new⟩).set i ⟨rounds, none⟩
      calls := .createTask i new.name :: .findTasks i new.name :: s.calls }, ?_, ?_, ?_, ?_⟩
    · intro e he
      simpa using he
    · simp only [exec, step, hi, if_neg hfound, if_neg hseveral, Option.bind_some,
        List.getElem?_set_self hlt]
    · exact List.getElem?_set_self (by rwa [List.length_set])
    · simp only [InfluxDB.updateAggregationTask, if_neg hfound, if_neg hseveral]
      rfl

theorem exec_rounds {i : ℕ} {rounds : List AggregationTask}
    (hi : s.runs[i]? = some ⟨rounds, none⟩) :
    ∃ events s', (∀ e ∈ events, e = .findTasks i ∨ e = .createTask i) ∧
      exec step s events = some s' ∧ s'.runs[i]? = some ⟨[], none⟩ ∧
      s'.tasks = rounds.foldl (InfluxDB.updateAggregationTask {}) s.tasks := by
  induction rounds generalizing s with
  | nil => exact ⟨[], s, by simp, rfl, hi, rfl⟩
  | cons new rounds ih =>
    obtain ⟨events, s₁, hevents, hexec, hi₁, htasks⟩ := exec_round hi
    obtain ⟨events', s₂, hevents', hexec', hi₂, htasks'⟩ := ih hi₁
    refine ⟨events ++ events', s₂, ?_, ?_, hi₂, ?_⟩
    · intro e he
      exact (List.mem_append.1 he).elim (hevents e) (hevents' e)
    · rw [exec_append, hexec]
      exact hexec'
    · rw [htasks', htasks, List.foldl_cons]

/-- **A run that nobody interrupts is `updateAggregationTasks`.** -/
theorem exec_alone (s : TaskSystem) (db : InfluxDB) (org : String)
    (order : Schedule MetricConfig) :
    ∃ events s', (∀ e ∈ events,
        e = .findTasks s.runs.length ∨ e = .createTask s.runs.length) ∧
      exec step s (.init db org order :: events) = some s' ∧
      s'.runs[s.runs.length]? = some ⟨[], none⟩ ∧
      s'.tasks = db.updateAggregationTasks org { order } s.tasks := by
  have hstart : (s.runs ++ [({ rounds := rounds db org order } : UpdateRun)])[s.runs.length]? =
      some ⟨rounds db org order, none⟩ := List.getElem?_concat_length
  exact exec_rounds hstart

/-! ## All runs -/

/-- **Names stay unique exactly as long as every `CreateTask` is the first one for
its name since its run has looked for it.** -/
theorem uniqueTasks_iff (tasks : List AggregationTask) (h : (tasks.map AggregationTask.name).Nodup)
    (events : List TaskEvent) (t : TaskSystem)
    (hrun : Run (StepOf step) { tasks } events t) :
    Throughout (StepOf step) { tasks } events UniqueTasks ↔
      Run (Guarded FirstCreate (StepOf step)) { tasks } events t := by
  refine @throughout_iff_guarded _ _ _ _ _ _ FirstCreate (fun s => s.Looked ∧ s.UniqueTasks)
    UniqueTasks hrun ⟨?_, h⟩ (fun s hs => hs.2) ?_ ?_
  · intro i rounds new hi
    simp at hi
  · rintro s e s' ⟨hlooked, hunique⟩ hstep hunique'
    exact (uniqueTasks_step_iff hlooked hunique hstep).1 hunique'
  · rintro s e s' ⟨hlooked, hunique⟩ hstep hfirst
    exact ⟨hlooked.step hstep, (uniqueTasks_step_iff hlooked hunique hstep).2 hfirst⟩

/-! ## Two configuration updates -/

/-- A database with one metric, which can be summed up. -/
def summedDB : InfluxDB where
  bucketName := "metrics"
  metrics := ⟨[("a", { guid := "a", measurement := "cpu_load", availableAggFns := ["sum"] })],
    by decide⟩

/-- Two runs over this database, one call after the other. -/
def sideBySide : List TaskEvent :=
  [.init summedDB "org" Schedule.inOrder, .init summedDB "org" Schedule.inOrder, .findTasks 0,
    .findTasks 1, .createTask 0, .createTask 1]

/-- The state after them. -/
def afterSideBySide : TaskSystem where
  tasks := (rounds summedDB "org" Schedule.inOrder) ++ rounds summedDB "org" Schedule.inOrder
  runs := [⟨[], none⟩, ⟨[], none⟩]
  calls := [.createTask 1 "metrics_cpu_load_sum", .createTask 0 "metrics_cpu_load_sum",
    .findTasks 1 "metrics_cpu_load_sum", .findTasks 0 "metrics_cpu_load_sum"]

theorem run_sideBySide :
    Run (StepOf step) { tasks := [] } sideBySide afterSideBySide := run_exec_iff.2 rfl

theorem uniqueTasks_iff_sideBySide :
    Throughout (StepOf step) { tasks := [] } sideBySide UniqueTasks ↔
      Run (Guarded FirstCreate (StepOf step)) { tasks := [] } sideBySide afterSideBySide :=
  uniqueTasks_iff [] List.nodup_nil sideBySide afterSideBySide run_sideBySide

/-- Both runs look before either has created the task: the server holds it twice. -/
theorem sideBySide_not_unique :
    (([] : List AggregationTask).map AggregationTask.name).Nodup ∧
      Run (StepOf step) { tasks := [] } sideBySide afterSideBySide ∧
      afterSideBySide.names = ["metrics_cpu_load_sum", "metrics_cpu_load_sum"] ∧
      ¬afterSideBySide.UniqueTasks :=
  ⟨List.nodup_nil, run_sideBySide, by decide, by decide⟩

end TaskSystem

end JobMon
