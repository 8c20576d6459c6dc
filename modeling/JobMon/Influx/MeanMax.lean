import JobMon.Influx.Grouping
import JobMon.Influx.JobData

/-!
# Mean and maximum

The answer to `MetadataMeasurementsQuery` is the union of two streams of at most
one row each.  `getMetadataData` takes the first row of the answer for the mean
and the second one for the maximum.

* `byName` — what the rows say by the names of their fields; `byName_perm` says
  that their order does not matter to it.
* `metadataTask_of_one_row`, `metadataTask_of_two_rows` — what a goroutine makes of an answer.
* `getMetadataData_iff` — when the two agree.
-/

namespace JobMon

open Keyed Grouping

/-! ## The answer -/

/-- A row of the mean or of the maximum stream. -/
structure MetadataRow (field : String) (row : QueryResult) : Prop where
  result : column row "result" = .string "_result"
  table : ∃ i, column row "table" = .int i
  field : column row "_field" = .string field
  value : ∃ v, column row "_value" = .float v

/-- An answer to `MetadataMeasurementsQuery`: at most one row of each stream, in
any order, and in any tables. -/
structure MetadataAnswer (answer : QueryTableResult) : Prop where
  regular : answer.Regular
  complete : answer.err = none
  rows : ∀ row ∈ answer.rows, MetadataRow "mean" row ∨ MetadataRow "max" row
  once : (answer.rows.map fun row => column row "_field").Nodup

/-- The number in a row. -/
def rowValue (row : QueryResult) : Float64 :=
  match column row "_value" with
  | .float v => v
  | _ => {}

/-- The number in the row with the given field, zero when there is none. -/
def fieldValue (field : String) (rows : List QueryResult) : Float64 :=
  match rows.find? fun row => column row "_field" = .string field with
  | some row => rowValue row
  | none => {}

/-- The mean and the maximum by their names. -/
def byName (m : MetricConfig) (rows : List QueryResult) : JobMetadataData :=
  { config := m, mean := fieldValue "mean" rows, max := fieldValue "max" rows }

theorem fieldValue_nil (field : String) : fieldValue field [] = {} := rfl

theorem fieldValue_of_field {field : String} {row : QueryResult} {rows : List QueryResult}
    (h : column row "_field" = .string field) : fieldValue field (row :: rows) = rowValue row := by
  rw [fieldValue, List.find?_cons_of_pos (by simpa using h)]

theorem fieldValue_of_other {field : String} {row : QueryResult} {rows : List QueryResult}
    (h : column row "_field" ≠ .string field) :
    fieldValue field (row :: rows) = fieldValue field rows := by
  rw [fieldValue, List.find?_cons_of_neg (by simpa using h), fieldValue]

/-- With one row a field, the order of the rows does not matter. -/
theorem fieldValue_perm {field : String} {rows rows' : List QueryResult}
    (hone : (rows.map fun row => column row "_field").Nodup) (h : rows.Perm rows') :
    fieldValue field rows = fieldValue field rows' := by
  have hone' := (h.map _).nodup_iff.1 hone
  let table : Table Value QueryResult (fun row => column row "_field") := ⟨rows, hone⟩
  let table' : Table Value QueryResult (fun row => column row "_field") := ⟨rows', hone'⟩
  have hget : table.get? (.string field) = table'.get? (.string field) := by
    refine Option.ext fun row => ?_
    rw [Table.get?_eq_some_iff, Table.get?_eq_some_iff, h.mem_iff]
  have hfind : rows.find? (fun row => column row "_field" = .string field) =
      rows'.find? fun row => column row "_field" = .string field := hget
  rw [fieldValue, fieldValue, hfind]

theorem byName_perm {m : MetricConfig} {rows rows' : List QueryResult}
    (hone : (rows.map fun row => column row "_field").Nodup) (h : rows.Perm rows') :
    byName m rows = byName m rows' := by
  rw [byName, byName, fieldValue_perm hone h, fieldValue_perm hone h]

/-! ## What is made of it -/

/-- The rows are where the code looks for them: no second schema, the mean first
and the maximum after it in the same table, or values for which it makes no
difference. -/
def PlacedByName (answer : QueryTableResult) : Prop :=
  match answer.records with
  | [] => True
  | [r] => column r.values "_field" = .string "mean" ∨ rowValue r.values = {}
  | r :: r' :: _ =>
    r'.tableChanged = false ∧
      if column r.values "table" = column r'.values "table" then
        column r.values "_field" = .string "mean" ∨ rowValue r.values = rowValue r'.values
      else
        rowValue r.values = {} ∧
          (column r.values "_field" = .string "max" ∨ rowValue r'.values = {})

theorem MetadataRow.typedRow {field : String} {row : QueryResult} (h : MetadataRow field row) :
    TypedRow "result" row := ⟨h.table, "_result", h.result⟩

theorem MetadataAnswer.typed {answer : QueryTableResult} (h : MetadataAnswer answer) :
    ∀ row ∈ answer.rows, TypedRow "result" row := by
  intro row hrow
  rcases h.rows row hrow with hmean | hmax
  · exact hmean.typedRow
  · exact hmax.typedRow

theorem metadataValue_zero (row : QueryResult) (rows : List QueryResult) :
    InfluxDB.metadataValue (row :: rows) 0 = rowValue row := rfl

theorem metadataValue_one (row row' : QueryResult) (rows : List QueryResult) :
    InfluxDB.metadataValue (row :: row' :: rows) 1 = rowValue row' := rfl

/-- The rows that are left under the key `_result`. -/
theorem lookup_result {answer : QueryTableResult} (h : MetadataAnswer answer)
    (hne : answer.records ≠ []) (hone : ¬answer.SecondSchema)
    (hsav : Savable "result" answer.rows) :
    ∃ map, parseQueryResult answer "result" = .ok map ∧
      map.lookup "_result" = lastTable "result" "_result" (tableRuns "result" answer.rows) := by
  obtain ⟨map, hmap, hlookup⟩ := parseQueryResult_of_parsable h.regular hne hone
    (fun row hrow => not_refusedFirst_of_typed (h.typed row (List.mem_of_mem_head? hrow)))
    ⟨h.typed, hsav⟩
  exact ⟨map, hmap, hlookup "_result"⟩

/-- The runs of two rows. -/
theorem tableRuns_pair {separationKey : String} (a b : QueryResult) :
    tableRuns separationKey [a, b] =
      if rowMark separationKey a = rowMark separationKey b then [[a, b]] else [[a], [b]] := by
  rw [show [a, b] = [a] ++ [b] from rfl]
  by_cases h : rowMark separationKey a = rowMark separationKey b
  · rw [if_pos h]
    refine @runs_snoc_same _ _ _ (rowMark separationKey) [a] [a] [] b rfl ?_
    rintro c ⟨⟩
    exact h
  · rw [if_neg h]
    refine @runs_snoc_new _ _ _ (rowMark separationKey) [a] b ?_
    rintro c ⟨⟩
    exact h

/-- The last table is the one of its key. -/
theorem lastTable_snoc {separationKey key : String} {row : QueryResult} {rows : List QueryResult}
    (tables : List (List QueryResult)) (h : column row separationKey = .string key) :
    lastTable separationKey key (tables ++ [row :: rows]) = some (row :: rows) := by
  have hkey : HasKey (fun row => column row separationKey) (.string key) (row :: rows) = true :=
    hasKey_cons.2 h
  rw [lastTable, lastRun_snoc, if_pos hkey]

/-- The last table of two rows with one key. -/
theorem lastTable_pair {a b : QueryResult} (ha : column a "result" = .string "_result")
    (hb : column b "result" = .string "_result") :
    lastTable "result" "_result" (tableRuns "result" [a, b]) =
      some (if column a "table" = column b "table" then [a, b] else [b]) := by
  rw [tableRuns_pair, rowMark, rowMark, ha, hb]
  by_cases htable : column a "table" = column b "table"
  · rw [if_pos (by rw [htable]), if_pos htable]
    exact lastTable_snoc [] ha
  · have hne :
        ¬(column a "table", Value.string "_result") = (column b "table", .string "_result") :=
      fun h => htable (congrArg Prod.fst h)
    rw [if_neg hne, if_neg htable]
    exact lastTable_snoc [[a]] hb

/-- Two rows are saved without a replacement. -/
theorem savable_pair (separationKey : String) (a b : QueryResult) :
    Savable separationKey [a, b] := by
  rw [Savable, tableRuns_pair]
  by_cases h : rowMark separationKey a = rowMark separationKey b
  · rw [if_pos h]
    exact replaced_nil
  · rw [if_neg h]
    have hone : Replaced (fun row => column row separationKey) NamesMeasurement ([] ++ [[a]]) := by
      refine replaced_snoc_iff.2 ⟨replaced_nil, ?_⟩
      rintro ⟨k, -, r, hr, -⟩
      exact absurd hr List.not_mem_nil
    exact hone

/-- An answer has at most two records. -/
theorem MetadataAnswer.records_cases {answer : QueryTableResult} (h : MetadataAnswer answer) :
    answer.records = [] ∨ (∃ r, answer.records = [r]) ∨ ∃ r r', answer.records = [r, r'] ∧
      (column r.values "_field" = .string "mean" ∧ column r'.values "_field" = .string "max" ∨
        column r.values "_field" = .string "max" ∧ column r'.values "_field" = .string "mean") := by
  have hfield : ∀ row ∈ answer.rows,
      column row "_field" = .string "mean" ∨ column row "_field" = .string "max" := by
    intro row hrow
    exact (h.rows row hrow).imp MetadataRow.field MetadataRow.field
  have hone := h.once
  unfold QueryTableResult.rows at hfield hone
  cases hrecs : answer.records with
  | nil => exact Or.inl rfl
  | cons r records =>
    cases records with
    | nil => exact Or.inr (Or.inl ⟨r, rfl⟩)
    | cons r' records =>
      refine Or.inr (Or.inr ⟨r, r', ?_⟩)
      rw [hrecs] at hfield hone
      have hr := hfield r.values (by simp)
      have hr' := hfield r'.values (by simp)
      simp only [List.map_cons, List.nodup_cons, List.mem_cons, not_or] at hone
      obtain ⟨⟨hne, -⟩, -, -⟩ := id hone
      cases records with
      | nil =>
        refine ⟨rfl, ?_⟩
        rcases hr with hr | hr <;> rcases hr' with hr' | hr' <;> simp_all
      | cons r'' records =>
        -- a third row would repeat one of the two fields
        have hr'' := hfield r''.values (by simp)
        rcases hr with hr | hr <;> rcases hr' with hr' | hr' <;> rcases hr'' with hr'' | hr'' <;>
          simp_all

section Task

variable {env : Environment} {db : InfluxDB} {j : JobMetadata} {m : MetricConfig}
  {answer : QueryTableResult}

theorem metadataTask_of_lookup {map : Map String (List QueryResult)}
    (hquery : env.api.query (queryText (some (db.metadataQuery m j))) = .ok answer)
    (hmap : parseQueryResult answer "result" = .ok map) :
    InfluxDB.metadataTask env db j m = .ok
      (match map.lookup "_result" with
      | some res => { config := m, mean := InfluxDB.metadataValue res 0
                      max := InfluxDB.metadataValue res 1 }
      | none => { config := m }) := by
  unfold InfluxDB.metadataTask
  rw [hquery]
  simp only [bind, Except.bind, hmap]
  cases map.lookup "_result" <;> rfl

theorem metadataTask_of_no_row
    (hquery : env.api.query (queryText (some (db.metadataQuery m j))) = .ok answer)
    (hrecs : answer.records = []) :
    InfluxDB.metadataTask env db j m = .ok (byName m answer.rows) ↔ PlacedByName answer := by
  have hrows : answer.rows = [] := by rw [QueryTableResult.rows, hrecs]; rfl
  have hmap : parseQueryResult answer "result" = .ok (Table.empty.upsert ("", [])) := by
    rw [parseQueryResult, hrecs]
    rfl
  rw [metadataTask_of_lookup hquery hmap, PlacedByName, hrecs, hrows]
  exact ⟨fun _ => trivial, fun _ => rfl⟩

/-- One row is taken for the mean. -/
theorem metadataTask_of_one_row {r : FluxRecord}
    (hquery : env.api.query (queryText (some (db.metadataQuery m j))) = .ok answer)
    (h : MetadataAnswer answer) (hrecs : answer.records = [r]) :
    InfluxDB.metadataTask env db j m = .ok (byName m answer.rows) ↔ PlacedByName answer := by
  have hrows : answer.rows = [r.values] := by rw [QueryTableResult.rows, hrecs]; rfl
  have hone : ¬answer.SecondSchema := by simp [QueryTableResult.SecondSchema, hrecs]
  obtain ⟨map, hmap, hlookup⟩ := lookup_result h (by simp [hrecs]) hone
    (by rw [hrows]; exact replaced_nil)
  have hrow := h.rows r.values (by rw [hrows]; exact List.mem_cons_self)
  have hresult : column r.values "result" = .string "_result" :=
    hrow.elim MetadataRow.result MetadataRow.result
  have hlast : lastTable "result" "_result" (tableRuns "result" [r.values]) = some [r.values] :=
    lastTable_snoc [] hresult
  rw [hrows, hlast] at hlookup
  rw [metadataTask_of_lookup hquery hmap, hlookup, PlacedByName, hrecs, hrows]
  simp only [metadataValue_zero, Except.ok.injEq, byName, JobMetadataData.mk.injEq, true_and,
    and_true]
  have hnone : InfluxDB.metadataValue [r.values] 1 = {} := rfl
  rcases hrow with hmean | hmax
  · have hother : column r.values "_field" ≠ .string "max" := by simp [hmean.field]
    rw [fieldValue_of_field hmean.field, fieldValue_of_other hother, fieldValue_nil, hnone]
    simp [hmean.field]
  · have hother : column r.values "_field" ≠ .string "mean" := by simp [hmax.field]
    rw [fieldValue_of_field hmax.field, fieldValue_of_other hother, fieldValue_nil, hnone]
    simp only [hother, false_or]
    exact ⟨fun hv => hv.1, fun hv => ⟨hv, hv.symm⟩⟩

/-- With a second schema the metric is left out. -/
theorem metadataTask_of_second_schema {r r' : FluxRecord}
    (hquery : env.api.query (queryText (some (db.metadataQuery m j))) = .ok answer)
    (h : MetadataAnswer answer) (hrecs : answer.records = [r, r'])
    (hchanged : r'.tableChanged = true) :
    InfluxDB.metadataTask env db j m = .ok (byName m answer.rows) ↔ PlacedByName answer := by
  have hrows : answer.rows = [r.values, r'.values] := by rw [QueryTableResult.rows, hrecs]; rfl
  rw [PlacedByName, hrecs, hrows]
  have hsecond : answer.SecondSchema := ⟨r', by simp [hrecs], hchanged⟩
  have hfirst : answer.firstRows = [r.values] := by
    rw [QueryTableResult.firstRows, hrecs, firstSchema,
      List.takeWhile_cons_of_neg (by simp [hchanged])]
    rfl
  have htyped := h.typed r.values (by rw [hrows]; exact List.mem_cons_self)
  obtain ⟨msg, hmsg⟩ := parseQueryResult_of_secondSchema h.regular hsecond
    (fun row hrow => not_refusedFirst_of_typed (h.typed row (List.mem_of_mem_head? hrow)))
    (by
      rw [hfirst]
      exact ⟨fun row hrow => by rwa [List.mem_singleton.1 hrow], replaced_nil⟩)
  have htask : InfluxDB.metadataTask env db j m = .error (.error msg) := by
    unfold InfluxDB.metadataTask
    rw [hquery]
    simp only [bind, Except.bind, hmsg]
  rw [htask]
  simp [hchanged]

/-- Two rows of one schema. -/
theorem metadataTask_of_two_rows {r r' : FluxRecord}
    (hquery : env.api.query (queryText (some (db.metadataQuery m j))) = .ok answer)
    (h : MetadataAnswer answer) (hrecs : answer.records = [r, r'])
    (hfields :
      column r.values "_field" = .string "mean" ∧ column r'.values "_field" = .string "max" ∨
        column r.values "_field" = .string "max" ∧ column r'.values "_field" = .string "mean")
    (hchanged : ¬r'.tableChanged = true) :
    InfluxDB.metadataTask env db j m = .ok (byName m answer.rows) ↔ PlacedByName answer := by
  have hrows : answer.rows = [r.values, r'.values] := by rw [QueryTableResult.rows, hrecs]; rfl
  have hne : answer.records ≠ [] := by simp [hrecs]
  rw [PlacedByName, hrecs, hrows]
  have hone : ¬answer.SecondSchema := by
    simp [QueryTableResult.SecondSchema, hrecs, hchanged]
  obtain ⟨map, hmap, hlookup⟩ := lookup_result h hne hone
    (by rw [hrows]; exact savable_pair _ _ _)
  have hresult : ∀ row ∈ answer.rows, column row "result" = .string "_result" := fun row hrow =>
    (h.rows row hrow).elim MetadataRow.result MetadataRow.result
  rw [hrows, lastTable_pair (hresult _ (by simp [hrows])) (hresult _ (by simp [hrows]))] at hlookup
  rw [metadataTask_of_lookup hquery hmap, hlookup]
  have hsame : r'.tableChanged = false := by simpa using hchanged
  simp only [hsame, true_and, Except.ok.injEq, byName, JobMetadataData.mk.injEq, and_true]
  by_cases htable : column r.values "table" = column r'.values "table"
  · -- one table: the first row is taken for the mean, the second for the maximum
    rw [if_pos htable, if_pos htable, metadataValue_zero, metadataValue_one]
    rcases hfields with ⟨hr, hr'⟩ | ⟨hr, hr'⟩
    · rw [fieldValue_of_field hr, fieldValue_of_other (by simp [hr]), fieldValue_of_field hr']
      simp [hr]
    · rw [fieldValue_of_other (by simp [hr]), fieldValue_of_field hr', fieldValue_of_field hr]
      simp only [hr, Value.string.injEq, show ("max" : String) ≠ "mean" by decide, false_or]
      exact ⟨fun hv => hv.1, fun hv => ⟨hv, hv.symm⟩⟩
  · -- two tables: the second one overwrites the first
    have hnone : InfluxDB.metadataValue [r'.values] 1 = {} := rfl
    rw [if_neg htable, if_neg htable, metadataValue_zero, hnone]
    rcases hfields with ⟨hr, hr'⟩ | ⟨hr, hr'⟩
    · rw [fieldValue_of_field hr, fieldValue_of_other (by simp [hr]), fieldValue_of_field hr']
      simp only [hr, Value.string.injEq, show ("mean" : String) ≠ "max" by decide, false_or]
      constructor
      · rintro ⟨hv, hv'⟩
        exact ⟨(hv.symm.trans hv'.symm), hv'.symm⟩
      · rintro ⟨hv, hv'⟩
        exact ⟨hv'.trans hv.symm, hv'.symm⟩
    · rw [fieldValue_of_other (by simp [hr]), fieldValue_of_field hr', fieldValue_of_field hr]
      simp only [hr, true_or, and_true, true_and]
      exact eq_comm

/-- **What a goroutine makes of an answer is what the names say exactly when the
rows are placed by name.** -/
theorem metadataTask_iff
    (hquery : env.api.query (queryText (some (db.metadataQuery m j))) = .ok answer)
    (h : MetadataAnswer answer) :
    InfluxDB.metadataTask env db j m = .ok (byName m answer.rows) ↔ PlacedByName answer := by
  rcases h.records_cases with hrecs | ⟨r, hrecs⟩ | ⟨r, r', hrecs, hfields⟩
  · exact metadataTask_of_no_row hquery hrecs
  · exact metadataTask_of_one_row hquery h hrecs
  · by_cases hchanged : r'.tableChanged = true
    · exact metadataTask_of_second_schema hquery h hrecs hchanged
    · exact metadataTask_of_two_rows hquery h hrecs hfields hchanged

end Task

/-- **When mean and maximum are told apart by name**, for all metrics of a job. -/
theorem getMetadataData_iff (env : Environment) (db : InfluxDB) (j : JobMetadata)
    (answer : MetricConfig → QueryTableResult)
    (hquery : ∀ m ∈ db.jobMetrics j,
      env.api.query (queryText (some (db.metadataQuery m j))) = .ok (answer m))
    (h : ∀ m ∈ db.jobMetrics j, MetadataAnswer (answer m)) :
    (∃ data, InfluxDB.getMetadataData env db j = .ok data ∧
      data.Perm ((db.jobMetrics j).map fun m => byName m (answer m).rows)) ↔
      ∀ m ∈ db.jobMetrics j, PlacedByName (answer m) := by
  have hconfig : ∀ m d, InfluxDB.metadataTask env db j m = .ok d → d.config = m := by
    intro m d hd
    unfold InfluxDB.metadataTask at hd
    obtain ⟨tempRes, -, hd⟩ := bind_eq_ok_iff.1 hd
    obtain ⟨result, -, hd⟩ := bind_eq_ok_iff.1 hd
    cases hlookup : result.lookup "_result" <;>
    · simp only [hlookup] at hd
      cases hd
      rfl
  have hname : ∀ m, (byName m (answer m).rows).config = m := fun m => rfl
  unfold InfluxDB.getMetadataData
  rw [InfluxDB.perm_collect_iff hconfig hname]
  constructor
  · intro hall m hm
    exact (metadataTask_iff (hquery m hm) (h m hm)).1 (hall m hm)
  · intro hall m hm
    exact (metadataTask_iff (hquery m hm) (h m hm)).2 (hall m hm)

/-! ## The maximum first -/

/-- A row of the answer, in the table with index `0`. -/
def metadataRow (field : String) (value : Float64) : QueryResult where
  rows := [("result", .string "_result"), ("table", .int 0), ("_field", .string field),
    ("_value", .float value)]
  nodup := by simp

/-- The union yields the row of the maximum first. -/
def maxFirst : QueryTableResult where
  records := [{ values := metadataRow "max" ⟨2⟩, tableChanged := true },
    { values := metadataRow "mean" ⟨1⟩ }]

/-- A database with one metric and one partition. -/
def metadataDB : InfluxDB where
  bucketName := "metrics"
  metrics := ⟨[("g", { guid := "g", measurement := "load" })], by decide⟩
  partitionConfig := ⟨[("p", { metrics := ["g"] })], List.nodup_singleton "p"⟩

/-- A job on this partition. -/
def metadataJob : JobMetadata :=
  { id := 1, partition := "p", nodeList := "n1", startTime := 100, stopTime := 200 }

theorem maxFirst_answer : MetadataAnswer maxFirst := by
  constructor
  · refine ⟨?_, ?_⟩
    · rintro r ⟨⟩
      rfl
    · intro r hr
      simp only [maxFirst, List.mem_cons, List.not_mem_nil, or_false] at hr
      rcases hr with rfl | rfl <;> rfl
  · rfl
  · intro row hrow
    simp only [QueryTableResult.rows, maxFirst, List.map_cons, List.map_nil, List.mem_cons,
      List.not_mem_nil, or_false] at hrow
    rcases hrow with rfl | rfl
    · exact Or.inr ⟨rfl, ⟨0, rfl⟩, rfl, ⟨2⟩, rfl⟩
    · exact Or.inl ⟨rfl, ⟨0, rfl⟩, rfl, ⟨1⟩, rfl⟩
  · decide

/-- An environment in which every query has this answer. -/
def maxFirstEnvironment : Environment :=
  { api := { query := fun _ => .ok maxFirst, queryRaw := fun _ => .ok "" }, now := 200 }

theorem getMetadataData_iff_maxFirst :
    (∃ data, InfluxDB.getMetadataData maxFirstEnvironment metadataDB metadataJob = .ok data ∧
      data.Perm ((metadataDB.jobMetrics metadataJob).map fun m => byName m maxFirst.rows)) ↔
      ∀ m ∈ metadataDB.jobMetrics metadataJob, PlacedByName maxFirst :=
  getMetadataData_iff maxFirstEnvironment metadataDB metadataJob (fun _ => maxFirst)
    (fun _ _ => rfl) (fun _ _ => maxFirst_answer)

/-- The mean and the maximum of the job are swapped. -/
theorem maxFirst_swapped :
    MetadataAnswer maxFirst ∧
      InfluxDB.getMetadataData maxFirstEnvironment metadataDB metadataJob =
        .ok [{ config := metadataDB.metric "g", mean := ⟨2⟩, max := ⟨1⟩ }] ∧
      ¬∃ data, InfluxDB.getMetadataData maxFirstEnvironment metadataDB metadataJob = .ok data ∧
        data.Perm ((metadataDB.jobMetrics metadataJob).map fun m => byName m maxFirst.rows) := by
  have hdata : InfluxDB.getMetadataData maxFirstEnvironment metadataDB metadataJob =
      .ok [{ config := metadataDB.metric "g", mean := ⟨2⟩, max := ⟨1⟩ }] := by decide +kernel
  have hnames : (metadataDB.jobMetrics metadataJob).map (fun m => byName m maxFirst.rows) =
      [{ config := metadataDB.metric "g", mean := ⟨1⟩, max := ⟨2⟩ }] := by decide +kernel
  refine ⟨maxFirst_answer, hdata, ?_⟩
  rintro ⟨data, hd, hperm⟩
  rw [hdata, Except.ok.injEq] at hd
  rw [← hd, hnames] at hperm
  have hsame := List.singleton_perm_singleton.1 hperm
  simp at hsame

end JobMon
