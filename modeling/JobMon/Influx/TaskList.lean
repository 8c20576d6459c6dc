import JobMon.Influx.TaskRuns

/-!
# The list of aggregation tasks

A process keeps the tasks it has created in `db.tasks`; `RunAggregation` runs the
tasks of this list.  The list is empty when the process starts, whatever earlier
processes have left on the server, and it survives updates of the configuration.

* `TaskLists.update` — `updateAggregationTasks` with the list.
* `UpdatedFrom.append` — the list holds what has been created since the start of
  the process, and nothing else.
* `RunsManually` — what `RunAggregation` can run: its goroutines read the loop
  variable, and not a copy of it.
* `covers_iff` — when the list covers a configuration, and when all of it is run.
-/

namespace JobMon

open Keyed

/-- The tasks of the server, and those of `db.tasks`. -/
structure TaskLists where
  influx : List AggregationTask
  tasks : List AggregationTask := []
  deriving DecidableEq

namespace TaskLists

/-! ## The update -/

/-- `createTask`: the new task is appended to `db.tasks`. -/
def createTask (s : TaskLists) (new : AggregationTask) : TaskLists :=
  { influx := s.influx ++ [new], tasks := s.tasks ++ [new] }

/-- One round of `updateAggregationTasks`. -/
def updateTask (api : TasksAPI) (s : TaskLists) (new : AggregationTask) : TaskLists :=
  if api.findTasksFails new.name then s
  else if (s.influx.filter fun t => t.name = new.name).length > 1 then s
  else if (s.influx.filter fun t => t.name = new.name).length > 0 then s
  else if api.createTaskFails new.name then s
  else s.createTask new

/-- `updateAggregationTasks`. -/
def update (db : InfluxDB) (org : String) (api : TasksAPI) (s : TaskLists) : TaskLists :=
  (TaskSystem.rounds db org api.order).foldl (updateTask api) s

/-- `RunAggregation`: `RunsManually tasks ran` when the goroutines, in the order in
which they were started, run the tasks `ran`.  All of them get the address of the
loop variable: each one runs the task that is in it at the time, that of its own
iteration or of a later one. -/
inductive RunsManually : List AggregationTask → List AggregationTask → Prop
  | nil : RunsManually [] []
  | cons {t t' : AggregationTask} {tasks ran : List AggregationTask} (h : t' ∈ t :: tasks)
      (hrest : RunsManually tasks ran) : RunsManually (t :: tasks) (t' :: ran)

/-! ## What is claimed of it -/

/-- The names of the tasks a configuration asks for. -/
def configuredNames (db : InfluxDB) : List String :=
  db.metrics.rows.flatMap fun p => p.2.availableAggFns.map (db.aggTaskName p.2)

/-- `db.tasks` holds the task of the server for every name of the configuration. -/
def Covers (db : InfluxDB) (s : TaskLists) : Prop :=
  ∀ name ∈ configuredNames db, ∃ t ∈ s.tasks, t.name = name ∧ t ∈ s.influx

/-- `RunAggregation` runs a task for every name of the configuration, in whatever
order its goroutines go on. -/
def RunsAll (db : InfluxDB) (s : TaskLists) : Prop :=
  ∀ ran, RunsManually s.tasks ran → ∀ name ∈ configuredNames db, ∃ t ∈ ran, t.name = name

/-- A further update changes nothing. -/
def Settled (db : InfluxDB) (org : String) (s : TaskLists) : Prop :=
  ∀ api, TasksAPI.Sound api → update db org api s = s

/-! ## A process -/

/-- A process that has found `left` on the server has come to this state, by
updates none of whose calls failed. -/
inductive UpdatedFrom (left : List AggregationTask) : TaskLists → Prop
  | start : UpdatedFrom left { influx := left }
  | update {s : TaskLists} (db : InfluxDB) (org : String) (api : TasksAPI) (hapi : api.Sound)
      (h : UpdatedFrom left s) : UpdatedFrom left (s.update db org api)

variable {left : List AggregationTask} {db : InfluxDB} {org : String} {api : TasksAPI}
  {s : TaskLists}

/-- A name is taken on the server. -/
def Named (tasks : List AggregationTask) (name : String) : Prop := ∃ t ∈ tasks, t.name = name

theorem updateTask_of_sound (hapi : api.Sound) (new : AggregationTask) :
    (Named s.influx new.name ∧ updateTask api s new = s) ∨
      (¬Named s.influx new.name ∧ updateTask api s new = s.createTask new) := by
  unfold updateTask
  rw [if_neg (by simp [hapi.findTasks])]
  by_cases hfound : (s.influx.filter fun t => t.name = new.name).length > 0
  · obtain ⟨t, ht⟩ := List.exists_mem_of_length_pos hfound
    obtain ⟨hmem, hname⟩ := List.mem_filter.1 ht
    rw [if_pos hfound, ite_self]
    exact Or.inl ⟨⟨t, hmem, by simpa using hname⟩, rfl⟩
  · rw [if_neg (by omega), if_neg hfound, if_neg (by simp [hapi.createTask])]
    refine Or.inr ⟨?_, rfl⟩
    rintro ⟨t, hmem, hname⟩
    exact hfound (List.length_pos_of_mem (List.mem_filter.2 ⟨hmem, by simpa using hname⟩))

/-- The server holds what was left on it and the tasks of the list, which are about
other names. -/
structure Created (left : List AggregationTask) (s : TaskLists) : Prop where
  influx : s.influx = left ++ s.tasks
  fresh : ∀ t ∈ s.tasks, ¬Named left t.name
  nodup : (s.tasks.map AggregationTask.name).Nodup

/-- **Step.** -/
theorem Created.updateTask (h : Created left s) (hapi : api.Sound) (new : AggregationTask) :
    Created left (TaskLists.updateTask api s new) := by
  rcases updateTask_of_sound (s := s) hapi new with ⟨-, heq⟩ | ⟨hno, heq⟩
  · rw [heq]
    exact h
  · rw [heq]
    rw [h.influx] at hno
    refine ⟨?_, ?_, ?_⟩
    · rw [createTask, h.influx, List.append_assoc]
    · intro t ht
      rcases List.mem_append.1 ht with ht | ht
      · exact h.fresh t ht
      · rw [List.mem_singleton.1 ht]
        rintro ⟨t', ht', hname⟩
        exact hno ⟨t', List.mem_append_left _ ht', hname⟩
    · rw [createTask, List.map_append, List.map_singleton, List.nodup_append]
      refine ⟨h.nodup, List.nodup_singleton _, ?_⟩
      rintro a ha b hb rfl
      rw [List.mem_singleton.1 hb] at ha
      obtain ⟨t', ht', hname⟩ := List.mem_map.1 ha
      exact hno ⟨t', List.mem_append_right _ ht', hname⟩

theorem Created.foldl (h : Created left s) (hapi : api.Sound) (news : List AggregationTask) :
    Created left (news.foldl (TaskLists.updateTask api) s) := by
  induction news generalizing s with
  | nil => exact h
  | cons new news ih => exact ih (h.updateTask hapi new)

/-- **Run.** -/
theorem UpdatedFrom.created (h : UpdatedFrom left s) : Created left s := by
  induction h with
  | start => exact ⟨by simp, by simp, List.nodup_nil⟩
  | update db org api hapi h ih => exact ih.foldl hapi _

/-! ## After an update -/

/-- The list makes no difference to the server. -/
theorem influx_update (db : InfluxDB) (org : String) (api : TasksAPI) (s : TaskLists) :
    (s.update db org api).influx = db.updateAggregationTasks org api s.influx := by
  have hround : ∀ s new, (updateTask api s new).influx =
      InfluxDB.updateAggregationTask api s.influx new := by
    intro s new
    unfold updateTask InfluxDB.updateAggregationTask
    split_ifs <;> rfl
  have hfold : ∀ (news : List AggregationTask) (s : TaskLists),
      (news.foldl (updateTask api) s).influx =
        news.foldl (InfluxDB.updateAggregationTask api) s.influx := by
    intro news
    induction news with
    | nil => exact fun _ => rfl
    | cons new news ih =>
      intro s
      rw [List.foldl_cons, List.foldl_cons, ih, hround]
  exact hfold _ s

/-- An update goes through the names of the configuration. -/
theorem mem_configuredNames_iff {name : String} :
    name ∈ configuredNames db ↔ ∃ new ∈ TaskSystem.rounds db org api.order, new.name = name := by
  rw [configuredNames, TaskSystem.rounds, List.mem_flatMap]
  constructor
  · rintro ⟨p, hp, hname⟩
    obtain ⟨f, hf, rfl⟩ := List.mem_map.1 hname
    refine ⟨db.createAggregationTask org p.2 f, List.mem_flatMap.2 ⟨p.2, ?_, ?_⟩, rfl⟩
    · exact (api.order.perm _).mem_iff.2 (List.mem_map_of_mem hp)
    · exact InfluxDB.mem_tasksFor_iff.2 ⟨f, hf, rfl⟩
  · rintro ⟨new, hnew, rfl⟩
    obtain ⟨m, hm, htask⟩ := List.mem_flatMap.1 hnew
    obtain ⟨p, hp, rfl⟩ := List.mem_map.1 ((api.order.perm _).mem_iff.1 hm)
    obtain ⟨f, hf, rfl⟩ := InfluxDB.mem_tasksFor_iff.1 htask
    exact ⟨p, hp, List.mem_map.2 ⟨f, hf, rfl⟩⟩

/-- Where every name is taken, an update does nothing. -/
theorem foldl_of_named (hapi : api.Sound) {news : List AggregationTask}
    (h : ∀ new ∈ news, Named s.influx new.name) : news.foldl (updateTask api) s = s := by
  induction news with
  | nil => rfl
  | cons new news ih =>
    have hround : updateTask api s new = s := by
      rcases updateTask_of_sound hapi new with ⟨-, heq⟩ | ⟨hno, -⟩
      · exact heq
      · exact absurd (h new List.mem_cons_self) hno
    rw [List.foldl_cons, hround]
    exact ih fun new' h' => h new' (List.mem_cons_of_mem _ h')

theorem named_updateTask (hapi : api.Sound) (new : AggregationTask) {name : String}
    (h : Named s.influx name ∨ new.name = name) : Named (updateTask api s new).influx name := by
  rcases updateTask_of_sound hapi new with ⟨hnamed, heq⟩ | ⟨-, heq⟩
  · rw [heq]
    exact h.elim id fun hname => hname ▸ hnamed
  · rw [heq]
    rcases h with ⟨t, ht, hname⟩ | hname
    · exact ⟨t, List.mem_append_left _ ht, hname⟩
    · exact ⟨new, List.mem_append_right _ List.mem_cons_self, hname⟩

/-- After the rounds every name is taken that was taken or had a round. -/
theorem named_foldl (hapi : api.Sound) {news : List AggregationTask} {name : String}
    (h : Named s.influx name ∨ ∃ new ∈ news, new.name = name) :
    Named (news.foldl (updateTask api) s).influx name := by
  induction news generalizing s with
  | nil => exact h.elim id fun ⟨new, hnew, _⟩ => absurd hnew List.not_mem_nil
  | cons new news ih =>
    refine ih ?_
    rcases h with h | ⟨new', hnew', hname⟩
    · exact Or.inl (named_updateTask hapi new (Or.inl h))
    · rcases List.mem_cons.1 hnew' with rfl | hnew'
      · exact Or.inl (named_updateTask hapi new' (Or.inr hname))
      · exact Or.inr ⟨new', hnew', hname⟩

theorem named_update (hapi : api.Sound) {name : String} (h : name ∈ configuredNames db) :
    Named (s.update db org api).influx name :=
  named_foldl hapi (Or.inr (mem_configuredNames_iff.1 h))

/-- **A further update changes nothing.** -/
theorem settled_update (hapi : api.Sound) : Settled db org (s.update db org api) := by
  intro api' hapi'
  refine foldl_of_named hapi' ?_
  intro new hnew
  exact named_update hapi (mem_configuredNames_iff.2 ⟨new, hnew, rfl⟩)

/-- **The list covers the configuration exactly when none of its names had been on
the server before the process.** -/
theorem covers_update_iff (h : UpdatedFrom left s) (hapi : api.Sound) :
    Covers db (s.update db org api) ↔ ∀ name ∈ configuredNames db, ¬Named left name := by
  have hcreated : Created left (s.update db org api) := h.created.foldl hapi _
  constructor
  · intro hcovers name hname
    obtain ⟨t, ht, rfl, -⟩ := hcovers name hname
    exact hcreated.fresh t ht
  · intro hfree name hname
    obtain ⟨t, ht, htname⟩ : Named (s.update db org api).influx name := named_update hapi hname
    refine ⟨t, ?_, htname, ht⟩
    rw [hcreated.influx] at ht
    rcases List.mem_append.1 ht with ht | ht
    · exact absurd ⟨t, ht, htname⟩ (hfree name hname)
    · exact ht

/-! ## What is run -/

/-- All goroutines may read the last task. -/
theorem runsManually_replicate (tasks : List AggregationTask) (t : AggregationTask) :
    RunsManually (tasks ++ [t]) (List.replicate (tasks.length + 1) t) := by
  induction tasks with
  | nil => exact .cons List.mem_cons_self .nil
  | cons t' tasks ih => exact .cons (by simp) ih

/-- The goroutine of the last task runs it. -/
theorem RunsManually.last {tasks ran : List AggregationTask} {t : AggregationTask}
    (h : RunsManually tasks ran) (hlast : tasks.getLast? = some t) : t ∈ ran := by
  induction h with
  | nil => cases hlast
  | @cons t₁ t' tasks ran hread hrest ih =>
    cases tasks with
    | nil =>
      cases hrest
      cases hlast
      rw [List.mem_singleton.1 hread]
      exact List.mem_cons_self
    | cons t₂ tasks =>
      rw [List.getLast?_cons_cons] at hlast
      exact List.mem_cons_of_mem _ (ih hlast)

/-- **Only the last task is sure to be run.** -/
theorem runsAll_iff : RunsAll db s ↔
    ∀ name ∈ configuredNames db, ∃ t ∈ s.tasks.getLast?, t.name = name := by
  constructor
  · intro h name hname
    rcases List.eq_nil_or_concat s.tasks with hnil | ⟨tasks, t, htasks⟩
    · obtain ⟨t, ht, -⟩ := h [] (by rw [hnil]; exact .nil) name hname
      exact absurd ht List.not_mem_nil
    · rw [List.concat_eq_append] at htasks
      obtain ⟨t', ht', hname'⟩ := h _ (htasks ▸ runsManually_replicate tasks t) name hname
      rw [List.eq_of_mem_replicate ht'] at hname'
      exact ⟨t, by rw [htasks, List.getLast?_concat]; rfl, hname'⟩
  · intro h ran hran name hname
    obtain ⟨t, ht, htname⟩ := h name hname
    exact ⟨t, hran.last ht, htname⟩

/-- The configuration asks for one name at most, which `db.tasks` either does not
hold yet or holds last. -/
structure AsksForLast (db : InfluxDB) (s : TaskLists) : Prop where
  one : ∀ name ∈ configuredNames db, ∀ name' ∈ configuredNames db, name = name'
  last : ∀ name ∈ configuredNames db, Named s.tasks name →
    ∃ t ∈ s.tasks.getLast?, t.name = name

/-- Rounds for one name that is free create one task. -/
theorem foldl_of_free (hapi : api.Sound) {new : AggregationTask} {news : List AggregationTask}
    (hone : ∀ new' ∈ news, new'.name = new.name) (hfree : ¬Named s.influx new.name) :
    (new :: news).foldl (updateTask api) s = s.createTask new := by
  have hround : updateTask api s new = s.createTask new := by
    rcases updateTask_of_sound hapi new with ⟨hnamed, -⟩ | ⟨-, heq⟩
    · exact absurd hnamed hfree
    · exact heq
  rw [List.foldl_cons, hround]
  refine foldl_of_named hapi ?_
  intro new' hnew'
  exact ⟨new, List.mem_append_right _ List.mem_cons_self, (hone new' hnew').symm⟩

/-- An update for one name that is taken does nothing. -/
theorem update_of_named (hapi : api.Sound) {name : String}
    (hone : ∀ name' ∈ configuredNames db, name' = name) (hnamed : Named s.influx name) :
    s.update db org api = s := by
  refine foldl_of_named hapi ?_
  intro new hnew
  rw [hone new.name (mem_configuredNames_iff.2 ⟨new, hnew, rfl⟩)]
  exact hnamed

/-- An update for one name that is free creates its task. -/
theorem update_of_free (hapi : api.Sound) {name : String} (hname : name ∈ configuredNames db)
    (hone : ∀ name' ∈ configuredNames db, name' = name) (hfree : ¬Named s.influx name) :
    ∃ new, new.name = name ∧ s.update db org api = s.createTask new := by
  have hrounds : ∀ new ∈ TaskSystem.rounds db org api.order, new.name = name := fun new hnew =>
    hone _ (mem_configuredNames_iff.2 ⟨new, hnew, rfl⟩)
  obtain ⟨new, hnew, -⟩ := (@mem_configuredNames_iff db org api _).1 hname
  rw [update]
  cases heq : TaskSystem.rounds db org api.order with
  | nil =>
    rw [heq] at hnew
    exact absurd hnew List.not_mem_nil
  | cons first rest =>
    rw [heq] at hrounds
    have hfirst := hrounds first List.mem_cons_self
    refine ⟨first, hfirst, foldl_of_free hapi ?_ (by rwa [hfirst])⟩
    intro new' hnew'
    rw [hrounds new' (List.mem_cons_of_mem _ hnew'), hfirst]

/-- What is on the server was there before the process, or is in its list. -/
theorem UpdatedFrom.named_iff (h : UpdatedFrom left s) (name : String) :
    Named s.influx name ↔ Named left name ∨ Named s.tasks name := by
  rw [h.created.influx]
  constructor
  · rintro ⟨t, ht, htname⟩
    exact (List.mem_append.1 ht).imp (fun ht => ⟨t, ht, htname⟩) (fun ht => ⟨t, ht, htname⟩)
  · rintro (⟨t, ht, htname⟩ | ⟨t, ht, htname⟩)
    · exact ⟨t, List.mem_append_left _ ht, htname⟩
    · exact ⟨t, List.mem_append_right _ ht, htname⟩

theorem runsAll_update_iff (h : UpdatedFrom left s) (hapi : api.Sound)
    (hfree : ∀ name ∈ configuredNames db, ¬Named left name) :
    RunsAll db (s.update db org api) ↔ AsksForLast db s := by
  rw [runsAll_iff]
  constructor
  · intro hlast
    have hone : ∀ name ∈ configuredNames db, ∀ name' ∈ configuredNames db, name = name' := by
      intro name hname name' hname'
      obtain ⟨t, ht, rfl⟩ := hlast name hname
      obtain ⟨t', ht', rfl⟩ := hlast name' hname'
      rw [Option.mem_unique ht ht']
    refine ⟨hone, ?_⟩
    intro name hname hnamed
    rw [update_of_named hapi (fun name' hname' => hone name' hname' name hname)
      ((h.named_iff name).2 (Or.inr hnamed))] at hlast
    exact hlast name hname
  · intro hasks name hname
    have hone : ∀ name' ∈ configuredNames db, name' = name :=
      fun name' hname' => hasks.one name' hname' name hname
    by_cases hnamed : Named s.tasks name
    · rw [update_of_named hapi hone ((h.named_iff name).2 (Or.inr hnamed))]
      exact hasks.last name hname hnamed
    · have hno : ¬Named s.influx name := by
        rw [h.named_iff, not_or]
        exact ⟨hfree name hname, hnamed⟩
      obtain ⟨new, hnew, hupdate⟩ := update_of_free hapi hname hone hno
      refine ⟨new, ?_, hnew⟩
      rw [hupdate, createTask, List.getLast?_concat]
      rfl

/-- **When the aggregations of a configuration are covered**, by the list and by
`RunAggregation`. -/
theorem covers_iff (left : List AggregationTask) (s : TaskLists) (h : UpdatedFrom left s)
    (db : InfluxDB) (org : String) (api : TasksAPI) (hapi : api.Sound) :
    ((Covers db (s.update db org api) ∧ Settled db org (s.update db org api)) ↔
      ∀ name ∈ configuredNames db, ¬Named left name) ∧
    ((Covers db (s.update db org api) ∧ RunsAll db (s.update db org api) ∧
        Settled db org (s.update db org api)) ↔
      (∀ name ∈ configuredNames db, ¬Named left name) ∧ AsksForLast db s) := by
  have hcovers : Covers db (s.update db org api) ↔ ∀ name ∈ configuredNames db, ¬Named left name :=
    covers_update_iff h hapi
  have hsettled : Settled db org (s.update db org api) := settled_update hapi
  refine ⟨?_, ?_⟩
  · rw [hcovers]
    exact ⟨fun h' => h'.1, fun h' => ⟨h', hsettled⟩⟩
  · rw [hcovers]
    constructor
    · rintro ⟨hfree, hruns, -⟩
      exact ⟨hfree, (runsAll_update_iff h hapi hfree).1 hruns⟩
    · rintro ⟨hfree, hasks⟩
      exact ⟨hfree, (runsAll_update_iff h hapi hfree).2 hasks, hsettled⟩

/-! ## A second process -/

/-- The task of the database with one metric. -/
def summedTask : AggregationTask :=
  TaskSystem.summedDB.createAggregationTask "org" (TaskSystem.summedDB.metric "a") "sum"

/-- A database with one metric, which can be summed up or averaged. -/
def twoFunctionsDB : InfluxDB where
  bucketName := "metrics"
  metrics := ⟨[("a", { guid := "a", measurement := "cpu_load"
                       availableAggFns := ["sum", "mean"] })], by decide⟩

theorem sound_default : TasksAPI.Sound {} := ⟨fun _ => rfl, fun _ => rfl⟩

theorem covers_iff_secondProcess :
    ((Covers TaskSystem.summedDB (update TaskSystem.summedDB "org" {} { influx := [summedTask] }) ∧
        Settled TaskSystem.summedDB "org"
          (update TaskSystem.summedDB "org" {} { influx := [summedTask] })) ↔
      ∀ name ∈ configuredNames TaskSystem.summedDB, ¬Named [summedTask] name) ∧
    ((Covers TaskSystem.summedDB (update TaskSystem.summedDB "org" {} { influx := [summedTask] }) ∧
        RunsAll TaskSystem.summedDB
          (update TaskSystem.summedDB "org" {} { influx := [summedTask] }) ∧
        Settled TaskSystem.summedDB "org"
          (update TaskSystem.summedDB "org" {} { influx := [summedTask] })) ↔
      (∀ name ∈ configuredNames TaskSystem.summedDB, ¬Named [summedTask] name) ∧
        AsksForLast TaskSystem.summedDB { influx := [summedTask] }) :=
  covers_iff [summedTask] { influx := [summedTask] } .start TaskSystem.summedDB "org" {}
    sound_default

/-- The process is restarted: the task that the first one has created is found and
not taken into the list, so that no aggregation is run any more.  And when a
first process creates two tasks, its goroutines may run the last one only. -/
theorem restart_not_covered :
    (update TaskSystem.summedDB "org" {} { influx := [] }).influx = [summedTask] ∧
    update TaskSystem.summedDB "org" {} { influx := [summedTask] } = { influx := [summedTask] } ∧
    configuredNames TaskSystem.summedDB = ["metrics_cpu_load_sum"] ∧
    ¬Covers TaskSystem.summedDB
      (update TaskSystem.summedDB "org" {} { influx := [summedTask] }) ∧
    ¬RunsAll TaskSystem.summedDB
      (update TaskSystem.summedDB "org" {} { influx := [summedTask] }) ∧
    ¬RunsAll twoFunctionsDB (update twoFunctionsDB "org" {} { influx := [] }) := by
  have hsame : update TaskSystem.summedDB "org" {} { influx := [summedTask] } =
      { influx := [summedTask] } := by decide
  have hnames : configuredNames TaskSystem.summedDB = ["metrics_cpu_load_sum"] := by decide
  refine ⟨by decide, hsame, hnames, ?_, ?_, ?_⟩
  · intro h
    rw [hsame] at h
    obtain ⟨t, ht, -⟩ := h "metrics_cpu_load_sum" (by rw [hnames]; exact List.mem_cons_self)
    exact absurd ht List.not_mem_nil
  · intro h
    rw [hsame] at h
    obtain ⟨t, ht, -⟩ := h [] .nil "metrics_cpu_load_sum" (by rw [hnames]; exact List.mem_cons_self)
    exact absurd ht List.not_mem_nil
  · rw [runsAll_iff]
    intro h
    obtain ⟨t, ht, hname⟩ := h "metrics_cpu_load_sum" (by decide)
    have hlast : (update twoFunctionsDB "org" {} { influx := [] }).tasks.getLast? = some
        (twoFunctionsDB.createAggregationTask "org" (twoFunctionsDB.metric "a") "mean") := by decide
    cases hlast.symm.trans ht
    revert hname
    decide

end TaskLists

end JobMon
