import JobMon.Influx.Result
import JobMon.Lib.Grouping

/-!
# What the parser makes of a stream

`parseQueryResult` cuts a stream into the runs of rows that have the same table
index and separation key, and keeps the last run of every key.

* `Reading` — the state of the loop after some rows, in terms of their runs;
  `storeRow_reading` and `foldlM_reading` are its step and run lemmas.
* `parseQueryResult_brokenAt_iff` — the error on which reading stopped is not
  looked at: only what the rows read so far contain makes the parser fail.
* `groupedExactly_iff` — when a complete stream comes back as the last runs of
  its keys.
-/

namespace JobMon

open Keyed Grouping

/-! ## Rows and their runs -/

/-- The table index and the separation key of a row. -/
def rowMark (separationKey : String) (row : QueryResult) : Value × Value :=
  (column row "table", column row separationKey)

/-- The maximal runs of rows with the same table index and separation key. -/
def tableRuns (separationKey : String) (rows : List QueryResult) : List (List QueryResult) :=
  runs (rowMark separationKey) rows

/-- The last run of the rows with separation key `key`. -/
def lastTable (separationKey key : String) (tables : List (List QueryResult)) :
    Option (List QueryResult) :=
  lastRun (fun row => column row separationKey) (.string key) tables

/-- A row has an integer table index and a string separation key. -/
structure TypedRow (separationKey : String) (row : QueryResult) : Prop where
  table : ∃ i, column row "table" = .int i
  key : ∃ k, column row separationKey = .string k

/-- The first row of a table names its measurement. -/
def NamesMeasurement (table : List QueryResult) : Prop :=
  ∃ row ∈ table.head?, ∃ s, column row "_measurement" = .string s

/-- Every table that replaces an earlier one and is followed by a further table
names its measurement in its first row. -/
def Savable (separationKey : String) (rows : List QueryResult) : Prop :=
  Replaced (fun row => column row separationKey) NamesMeasurement
    (tableRuns separationKey rows).dropLast

/-- The loop gets through the rows without a panic. -/
structure Parsable (separationKey : String) (rows : List QueryResult) : Prop where
  typed : ∀ row ∈ rows, TypedRow separationKey row
  savable : Savable separationKey rows

/-- A call ends with an error value, and without a result. -/
def ReturnsError {α : Type} (x : Result α) : Prop := ∃ msg, x = .error (.error msg)

theorem Value.asInt_eq_ok_iff {v : Value} {n : ℤ} : v.asInt = .ok n ↔ v = .int n := by
  cases v <;> simp [asInt]

theorem Value.asString_of_not {v : Value} (h : ¬∃ s, v = .string s) :
    v.asString = .error .panic := by
  cases v <;> simp_all [asString]

theorem Value.asInt_of_not {v : Value} (h : ¬∃ n, v = .int n) : v.asInt = .error .panic := by
  cases v <;> simp_all [asInt]

/-- A column that holds something is there. -/
theorem lookup_of_column {row : QueryResult} {name : String} {v : Value}
    (h : column row name = v) (hv : v ≠ .nil) : row.lookup name = some v := by
  unfold column at h
  cases hl : row.lookup name with
  | none => exact absurd (h.symm.trans (by rw [hl]; rfl)) hv
  | some w =>
    rw [hl, Option.getD_some] at h
    rw [h]

theorem column_of_lookup {row : QueryResult} {name : String} {v : Value}
    (h : row.lookup name = some v) : column row name = v := by
  rw [column, h, Option.getD_some]

theorem column_of_lookup_none {row : QueryResult} {name : String} (h : row.lookup name = none) :
    column row name = .nil := by
  rw [column, h, Option.getD_none]

/-! ## One row -/

variable {separationKey : String}

/-- The loop has read `rows`: the runs but the last one are in the result, and
the last one is the current table. -/
structure Reading (separationKey : String) (rows : List QueryResult)
    (tables : List (List QueryResult)) (st : ParseState) : Prop where
  runs : tableRuns separationKey rows = tables ++ [st.tableRows]
  mark : ∀ row ∈ st.tableRows, rowMark separationKey row = (.int st.tableIndex, .string st.key)
  result : ∀ k, st.result.lookup k = lastTable separationKey k tables
  numResultTableChanges : st.numResultTableChanges = 1

section Step

variable {rows : List QueryResult} {tables : List (List QueryResult)} {st : ParseState}
  {row : QueryResult}

theorem Reading.tableRows_ne_nil (h : Reading separationKey rows tables st) :
    st.tableRows ≠ [] := by
  refine @ne_nil_of_mem_runs _ _ _ (rowMark separationKey) rows _ ?_
  have := h.runs
  rw [tableRuns] at this
  rw [this]
  exact List.mem_append_right _ List.mem_cons_self

/-- The current table is filed under the current key. -/
theorem Reading.hasKey_iff (h : Reading separationKey rows tables st) (v : Value) :
    HasKey (fun row => column row separationKey) v st.tableRows = true ↔ v = .string st.key := by
  have hmark := h.mark
  have hne := h.tableRows_ne_nil
  cases hrows : st.tableRows with
  | nil => exact absurd hrows hne
  | cons r rs =>
    have hr : column r separationKey = .string st.key :=
      congrArg Prod.snd (hmark r (by rw [hrows]; exact List.mem_cons_self))
    rw [hasKey_cons, hr]
    exact eq_comm

theorem Reading.mark_getLast (h : Reading separationKey rows tables st) :
    ∀ b ∈ rows.getLast?, rowMark separationKey b = (.int st.tableIndex, .string st.key) := by
  intro b hb
  have hlast := getLast?_of_runs h.runs
  rw [hlast] at hb
  exact h.mark b (List.mem_of_mem_getLast? hb)

/-- What replacing a list needs. -/
theorem saveTable_of_names (h : (st.result.lookup st.key).isSome → NamesMeasurement st.tableRows) :
    saveTable st = .ok (st.result.upsert (st.key, st.tableRows)) := by
  unfold saveTable
  by_cases hk : (st.result.lookup st.key).isSome
  · obtain ⟨row, hrow, s, hs⟩ := h hk
    obtain ⟨rest, hrest⟩ := List.head?_eq_some_iff.1 hrow
    rw [if_pos hk, hrest]
    simp only [hs, Value.asString]
    rfl
  · rw [if_neg hk]
    rfl

theorem saveTable_of_not_names (hk : (st.result.lookup st.key).isSome)
    (h : ¬NamesMeasurement st.tableRows) : saveTable st = .error .panic := by
  unfold saveTable
  rw [if_pos hk]
  cases hrows : st.tableRows with
  | nil => rfl
  | cons row rest =>
    have hno : ¬∃ s, column row "_measurement" = .string s := by
      intro hs
      exact h ⟨row, by rw [hrows]; rfl, hs⟩
    simp only [Value.asString_of_not hno]
    rfl

/-- A row that fails a type assertion. -/
theorem storeRow_of_not_typed (h : ¬TypedRow separationKey row) :
    storeRow separationKey st row = .error .panic := by
  unfold storeRow
  by_cases hi : ∃ i, column row "table" = .int i
  · obtain ⟨i, hi⟩ := hi
    have hk : ¬∃ k, column row separationKey = .string k := fun hk => h ⟨⟨i, hi⟩, hk⟩
    rw [Value.asInt_eq_ok_iff.2 hi, Value.asString_of_not hk]
    rfl
  · rw [Value.asInt_of_not hi]
    rfl

/-- A row of another table starts a new run. -/
theorem tableRuns_snoc_new {i : ℤ} {k : String} (h : Reading separationKey rows tables st)
    (hmark : rowMark separationKey row = (.int i, .string k))
    (hnew : i ≠ st.tableIndex ∨ k ≠ st.key) :
    tableRuns separationKey (rows ++ [row]) = (tables ++ [st.tableRows]) ++ [[row]] := by
  rw [← h.runs]
  refine runs_snoc_new ?_
  intro b hb heq
  rw [h.mark_getLast b hb, hmark, Prod.mk.injEq, Value.int.injEq, Value.string.injEq] at heq
  rcases hnew with hne | hne
  · exact hne heq.1.symm
  · exact hne heq.2.symm

/-- Then the rows read so far stay savable when the current table is. -/
theorem savable_snoc_new_iff {i : ℤ} {k : String} (h : Reading separationKey rows tables st)
    (hsav : Savable separationKey rows)
    (hmark : rowMark separationKey row = (.int i, .string k))
    (hnew : i ≠ st.tableIndex ∨ k ≠ st.key) :
    Savable separationKey (rows ++ [row]) ↔
      ((st.result.lookup st.key).isSome → NamesMeasurement st.tableRows) := by
  have hsav' : Replaced (fun row => column row separationKey) NamesMeasurement tables := by
    rw [Savable, h.runs, List.dropLast_concat] at hsav
    exact hsav
  rw [Savable, tableRuns_snoc_new h hmark hnew, List.dropLast_concat, replaced_snoc_iff, h.result,
    lastTable, isSome_lastRun_iff]
  constructor
  · rintro ⟨-, hP⟩ ⟨r, hr, hkr⟩
    exact hP ⟨_, (h.hasKey_iff _).2 rfl, r, hr, hkr⟩
  · intro hP
    refine ⟨hsav', ?_⟩
    rintro ⟨v, hv, r, hr, hkr⟩
    rw [(h.hasKey_iff v).1 hv] at hkr
    exact hP ⟨r, hr, hkr⟩

/-- A row of another table: the current one is saved first, which goes wrong exactly
when the rows are not savable. -/
theorem storeRow_new {i : ℤ} {k : String} (h : Reading separationKey rows tables st)
    (hsav : Savable separationKey rows) (hi : column row "table" = .int i)
    (hk : column row separationKey = .string k) (hnew : i ≠ st.tableIndex ∨ k ≠ st.key) :
    (Savable separationKey (rows ++ [row]) →
      ∃ tables' st', storeRow separationKey st row = .ok st' ∧
        Reading separationKey (rows ++ [row]) tables' st') ∧
    (¬Savable separationKey (rows ++ [row]) → storeRow separationKey st row = .error .panic) := by
  have hmark : rowMark separationKey row = (.int i, .string k) := by rw [rowMark, hi, hk]
  have hruns := tableRuns_snoc_new h hmark hnew
  have hiff := savable_snoc_new_iff h hsav hmark hnew
  unfold storeRow
  rw [Value.asInt_eq_ok_iff.2 hi, Value.asString_eq_ok_iff.2 hk]
  constructor
  · intro hs
    refine ⟨tables ++ [st.tableRows], { st with
      result := st.result.upsert (st.key, st.tableRows),
      tableRows := [row], tableIndex := i, key := k }, ?_, hruns, ?_, ?_,
      h.numResultTableChanges⟩
    · simp only [bind, Except.bind, pure, Except.pure, if_pos hnew,
        saveTable_of_names (hiff.1 hs)]
    · intro r hr
      rw [List.mem_singleton.1 hr, hmark]
    · intro k'
      rw [Map.lookup_upsert, lastTable, lastRun_snoc]
      by_cases hkk : k' = st.key
      · rw [if_pos hkk, if_pos ((h.hasKey_iff _).2 (by rw [hkk]))]
      · have hno :
            ¬HasKey (fun row => column row separationKey) (.string k') st.tableRows = true := by
          rw [h.hasKey_iff, Value.string.injEq]
          exact hkk
        rw [if_neg hkk, if_neg hno]
        exact h.result k'
  · intro hs
    rw [hiff, Classical.not_imp] at hs
    simp only [bind, Except.bind, if_pos hnew, saveTable_of_not_names hs.1 hs.2]

/-- A row of the current table joins it. -/
theorem storeRow_same (h : Reading separationKey rows tables st)
    (hsav : Savable separationKey rows) (hi : column row "table" = .int st.tableIndex)
    (hk : column row separationKey = .string st.key) :
    (∃ st', storeRow separationKey st row = .ok st' ∧
      Reading separationKey (rows ++ [row]) tables st') ∧
    Savable separationKey (rows ++ [row]) := by
  have hmark : rowMark separationKey row = (.int st.tableIndex, .string st.key) := by
    rw [rowMark, hi, hk]
  have hruns : tableRuns separationKey (rows ++ [row]) = tables ++ [st.tableRows ++ [row]] := by
    refine runs_snoc_same h.runs ?_
    intro b hb
    rw [h.mark_getLast b hb, hmark]
  constructor
  · refine ⟨{ st with tableRows := st.tableRows ++ [row] }, ?_, hruns, ?_, h.result,
      h.numResultTableChanges⟩
    · unfold storeRow
      rw [Value.asInt_eq_ok_iff.2 hi, Value.asString_eq_ok_iff.2 hk]
      have hold : ¬(st.tableIndex ≠ st.tableIndex ∨ st.key ≠ st.key) := by simp
      simp only [bind, Except.bind, pure, Except.pure, if_neg hold]
    · intro r hr
      rcases List.mem_append.1 hr with hr | hr
      · exact h.mark r hr
      · rw [List.mem_singleton.1 hr, hmark]
  · rw [Savable, hruns, List.dropLast_concat]
    rwa [Savable, h.runs, List.dropLast_concat] at hsav

/-- **Step.**  A row of the current table joins it; another row saves the table
and starts its own, which goes wrong exactly when the rows are not savable. -/
theorem storeRow_reading (h : Reading separationKey rows tables st)
    (hsav : Savable separationKey rows) (hrow : TypedRow separationKey row) :
    (Savable separationKey (rows ++ [row]) →
      ∃ tables' st', storeRow separationKey st row = .ok st' ∧
        Reading separationKey (rows ++ [row]) tables' st') ∧
    (¬Savable separationKey (rows ++ [row]) → storeRow separationKey st row = .error .panic) := by
  obtain ⟨⟨i, hi⟩, k, hk⟩ := hrow
  by_cases hnew : i ≠ st.tableIndex ∨ k ≠ st.key
  · exact storeRow_new h hsav hi hk hnew
  · rw [not_or, not_not, not_not] at hnew
    obtain ⟨rfl, rfl⟩ := hnew
    obtain ⟨hok, hsavable⟩ := storeRow_same h hsav hi hk
    exact ⟨fun _ => ⟨tables, hok⟩, fun hnot => absurd hsavable hnot⟩

end Step

/-! ## The whole loop -/

/-- Rows that make the loop panic are not saved by further ones. -/
theorem Savable.of_append {rows more : List QueryResult}
    (h : Savable separationKey (rows ++ more)) : Savable separationKey rows := by
  induction more using List.reverseRecOn with
  | nil => rwa [List.append_nil] at h
  | append_singleton more row ih =>
    refine ih ?_
    rw [← List.append_assoc] at h
    generalize rows ++ more = seen at h ⊢
    rcases runs_snoc_cases (rowMark separationKey) seen row with ⟨-, hruns⟩ | ⟨gs, g, hruns, hjoin⟩
    · rw [Savable, tableRuns, hruns, List.dropLast_concat] at h
      rcases List.eq_nil_or_concat (tableRuns separationKey seen) with hnil | ⟨gs, g, hgs⟩
      · rw [Savable, hnil]
        exact replaced_nil
      · rw [List.concat_eq_append] at hgs
        rw [← tableRuns, hgs, replaced_snoc_iff] at h
        rw [Savable, hgs, List.dropLast_concat]
        exact h.1
    · rw [Savable, tableRuns, hjoin, List.dropLast_concat] at h
      rw [Savable, tableRuns, hruns, List.dropLast_concat]
      exact h

theorem Parsable.of_append {rows more : List QueryResult}
    (h : Parsable separationKey (rows ++ more)) : Parsable separationKey rows :=
  ⟨fun row hrow => h.typed row (List.mem_append_left _ hrow), h.savable.of_append⟩

/-- **Run.**  Records of the current schema are read through, or end in a
panic, as their rows are parsable or not. -/
theorem foldlM_reading {records : List FluxRecord}
    (hrecs : ∀ r ∈ records, r.err = none ∧ r.tableChanged = false)
    {rows : List QueryResult} {tables : List (List QueryResult)} {st : ParseState}
    (h : Reading separationKey rows tables st) (hrows : Parsable separationKey rows) :
    (Parsable separationKey (rows ++ records.map FluxRecord.values) →
      ∃ tables' st', records.foldlM (parseRow separationKey) st = .ok st' ∧
        Reading separationKey (rows ++ records.map FluxRecord.values) tables' st') ∧
    (¬Parsable separationKey (rows ++ records.map FluxRecord.values) →
      records.foldlM (parseRow separationKey) st = .error .panic) := by
  induction records generalizing rows tables st with
  | nil =>
    rw [List.map_nil, List.append_nil]
    exact ⟨fun _ => ⟨tables, st, rfl, h⟩, fun hno => absurd hrows hno⟩
  | cons r records ih =>
    obtain ⟨herr, hsame⟩ := hrecs r List.mem_cons_self
    have hrest : ∀ r ∈ records, r.err = none ∧ r.tableChanged = false :=
      fun r' hr' => hrecs r' (List.mem_cons_of_mem _ hr')
    have hround : parseRow separationKey st r = storeRow separationKey st r.values := by
      unfold parseRow openTable
      rw [herr, hsame]
      rfl
    rw [List.foldlM_cons, hround, List.map_cons, List.append_cons]
    by_cases htyped : TypedRow separationKey r.values
    · obtain ⟨hgo, hstop⟩ := storeRow_reading h hrows.savable htyped
      by_cases hsav : Savable separationKey (rows ++ [r.values])
      · obtain ⟨tables', st', hst', h'⟩ := hgo hsav
        have hparsable : Parsable separationKey (rows ++ [r.values]) := by
          refine ⟨fun row hrow => ?_, hsav⟩
          rcases List.mem_append.1 hrow with hrow | hrow
          · exact hrows.typed row hrow
          · rw [List.mem_singleton.1 hrow]
            exact htyped
        rw [hst']
        exact ih hrest h' hparsable
      · rw [hstop hsav]
        exact ⟨fun hp => absurd hp.of_append.savable hsav, fun _ => rfl⟩
    · rw [storeRow_of_not_typed htyped]
      refine ⟨fun hp => absurd ?_ htyped, fun _ => rfl⟩
      exact hp.typed r.values (List.mem_append_left _ (by simp))

/-- The records of the first schema of a stream. -/
def firstSchema : List FluxRecord → List FluxRecord
  | [] => []
  | r :: records => r :: records.takeWhile fun r => !r.tableChanged

/-- The first row lacks the separation key, or the table column. -/
def RefusedFirst (separationKey : String) (row : QueryResult) : Prop :=
  row.lookup separationKey = none ∨
    (∃ k, column row separationKey = .string k) ∧ row.lookup "table" = none

theorem not_refusedFirst_of_typed {row : QueryResult}
    (h : TypedRow separationKey row) : ¬RefusedFirst separationKey row := by
  obtain ⟨⟨i, hi⟩, k, hk⟩ := h
  rintro (hnone | ⟨-, hnone⟩)
  · simp [column_of_lookup_none hnone] at hk
  · simp [column_of_lookup_none hnone] at hi

section First

variable {r : FluxRecord}

theorem parseRow_of_refusedFirst (herr : r.err = none) (hc : r.tableChanged = true)
    (h : RefusedFirst separationKey r.values) : ReturnsError (parseRow separationKey {} r) := by
  unfold parseRow openTable startTable
  rw [herr, hc]
  rcases h with hkey | ⟨⟨k, hk⟩, htab⟩
  · simp only [hkey]
    exact ⟨_, rfl⟩
  · simp only [lookup_of_column hk (by simp), htab, Value.asString]
    exact ⟨_, rfl⟩

/-- A first row with both columns, one of which holds something else. -/
theorem parseRow_of_not_typed (herr : r.err = none) (hc : r.tableChanged = true)
    (href : ¬RefusedFirst separationKey r.values) (h : ¬TypedRow separationKey r.values) :
    parseRow separationKey {} r = .error .panic := by
  rw [RefusedFirst, not_or, not_and] at href
  obtain ⟨val, hval⟩ := Option.ne_none_iff_exists'.1 href.1
  unfold parseRow openTable startTable
  rw [herr, hc]
  by_cases hk : ∃ k, column r.values separationKey = .string k
  · obtain ⟨tab, htab⟩ := Option.ne_none_iff_exists'.1 (href.2 hk)
    have hi : ¬∃ i, tab = .int i := by
      rintro ⟨i, rfl⟩
      exact h ⟨⟨i, column_of_lookup htab⟩, hk⟩
    obtain ⟨k, hk⟩ := hk
    simp only [lookup_of_column hk (by simp), htab, Value.asString, Value.asInt_of_not hi]
    rfl
  · have hk' : ¬∃ k, val = .string k := by
      rintro ⟨k, rfl⟩
      exact hk ⟨k, column_of_lookup hval⟩
    simp only [hval, Value.asString_of_not hk']
    rfl

/-- The first row opens the first table. -/
theorem parseRow_first (herr : r.err = none) (hc : r.tableChanged = true)
    (h : TypedRow separationKey r.values) :
    ∃ st, parseRow separationKey {} r = .ok st ∧ Reading separationKey [r.values] [] st := by
  obtain ⟨⟨i, hi⟩, k, hk⟩ := h
  refine ⟨{ tableRows := [r.values], key := k, tableIndex := i, numResultTableChanges := 1 }, ?_,
    ⟨rfl, ?_, fun _ => rfl, rfl⟩⟩
  · unfold parseRow openTable startTable storeRow
    simp only [herr, hc, lookup_of_column hi (by simp), lookup_of_column hk (by simp), hi, hk,
      Value.asString, Value.asInt]
    simp [bind, Except.bind, pure, Except.pure]
  · intro row hrow
    rw [List.mem_singleton.1 hrow, rowMark, hi, hk]

/-- A second schema is refused. -/
theorem parseRow_secondSchema {rows : List QueryResult} {tables : List (List QueryResult)}
    {st : ParseState} (herr : r.err = none) (hc : r.tableChanged = true)
    (h : Reading separationKey rows tables st) : ReturnsError (parseRow separationKey st r) := by
  unfold parseRow openTable startTable
  rw [herr, hc, h.numResultTableChanges]
  exact ⟨_, rfl⟩

end First

/-- What the client promises of a stream: its first record opens a table, and
there is no error as long as there are records. -/
structure QueryTableResult.Regular (q : QueryTableResult) : Prop where
  opens : q.OpensTable
  err : ∀ r ∈ q.records, r.err = none

/-- The rows of a stream. -/
def QueryTableResult.rows (q : QueryTableResult) : List QueryResult :=
  q.records.map FluxRecord.values

/-- The rows of the first schema of a stream. -/
def QueryTableResult.firstRows (q : QueryTableResult) : List QueryResult :=
  (firstSchema q.records).map FluxRecord.values

/-- A schema starts after the first record. -/
def QueryTableResult.SecondSchema (q : QueryTableResult) : Prop :=
  ∃ r ∈ q.records.tail, r.tableChanged = true

theorem takeWhile_of_not_secondSchema {records : List FluxRecord}
    (h : ¬∃ r ∈ records, r.tableChanged = true) :
    records.takeWhile (fun r => !r.tableChanged) = records := by
  rw [List.takeWhile_eq_self_iff]
  intro r hr
  by_contra hc
  exact h ⟨r, hr, by simpa using hc⟩

section Outcome

variable {q : QueryTableResult}

theorem QueryTableResult.firstRows_eq_rows (h : ¬q.SecondSchema) : q.firstRows = q.rows := by
  unfold firstRows rows
  cases hrecs : q.records with
  | nil => rfl
  | cons r records =>
    rw [SecondSchema, hrecs, List.tail_cons] at h
    rw [firstSchema, takeWhile_of_not_secondSchema h]

theorem parseQueryResult_of_refusedFirst (hq : q.Regular)
    (h : ∃ row ∈ q.rows.head?, RefusedFirst separationKey row) :
    ReturnsError (parseQueryResult q separationKey) := by
  obtain ⟨row, hrow, href⟩ := h
  cases hrecs : q.records with
  | nil => simp [QueryTableResult.rows, hrecs] at hrow
  | cons r records =>
    have hr : r.values = row := by simpa [QueryTableResult.rows, hrecs] using hrow
    obtain ⟨msg, hmsg⟩ := parseRow_of_refusedFirst
      (hq.err r (by rw [hrecs]; exact List.mem_cons_self))
      (hq.opens r (by rw [hrecs]; rfl)) (hr ▸ href)
    refine ⟨msg, ?_⟩
    rw [parseQueryResult, hrecs, List.foldlM_cons, hmsg]
    rfl

/-- The loop over the first schema of a stream. -/
theorem foldlM_firstSchema (hq : q.Regular) (hne : q.records ≠ [])
    (href : ∀ row ∈ q.rows.head?, ¬RefusedFirst separationKey row) :
    (Parsable separationKey q.firstRows →
      ∃ tables st, (firstSchema q.records).foldlM (parseRow separationKey) {} = .ok st ∧
        Reading separationKey q.firstRows tables st) ∧
    (¬Parsable separationKey q.firstRows →
      (firstSchema q.records).foldlM (parseRow separationKey) {} = .error .panic) := by
  have herr := hq.err
  have hopens : ∀ r ∈ q.records.head?, r.tableChanged = true := hq.opens
  unfold QueryTableResult.rows at href
  unfold QueryTableResult.firstRows
  cases hrecs : q.records with
  | nil => exact absurd hrecs hne
  | cons r records =>
    rw [hrecs] at herr href hopens
    rw [firstSchema, List.map_cons, List.foldlM_cons]
    have hr : r.err = none := herr r List.mem_cons_self
    have hc : r.tableChanged = true := hopens r rfl
    have hrest : ∀ r' ∈ records.takeWhile (fun r => !r.tableChanged),
        r'.err = none ∧ r'.tableChanged = false := by
      intro r' hr'
      refine ⟨herr r' (List.mem_cons_of_mem _ ((List.takeWhile_sublist _).subset hr')), ?_⟩
      simpa using List.mem_takeWhile_imp hr'
    by_cases htyped : TypedRow separationKey r.values
    · obtain ⟨st, hst, hreading⟩ := parseRow_first hr hc htyped
      have hone : Parsable separationKey [r.values] :=
        ⟨fun row hrow => by rwa [List.mem_singleton.1 hrow], replaced_nil⟩
      rw [hst]
      exact foldlM_reading hrest hreading hone
    · rw [parseRow_of_not_typed hr hc (href r.values rfl) htyped]
      exact ⟨fun hp => absurd (hp.typed _ List.mem_cons_self) htyped, fun _ => rfl⟩

/-- The records of a stream: those of its first schema, and the rest. -/
theorem records_eq (records : List FluxRecord) :
    records = firstSchema records ++ records.tail.dropWhile fun r => !r.tableChanged := by
  cases records with
  | nil => rfl
  | cons r records =>
    rw [firstSchema, List.tail_cons, List.cons_append, List.takeWhile_append_dropWhile]

theorem parseQueryResult_of_not_parsable (hq : q.Regular) (hne : q.records ≠ [])
    (href : ∀ row ∈ q.rows.head?, ¬RefusedFirst separationKey row)
    (h : ¬Parsable separationKey q.firstRows) :
    parseQueryResult q separationKey = .error .panic := by
  rw [parseQueryResult, records_eq q.records, List.foldlM_append,
    (foldlM_firstSchema hq hne href).2 h]
  rfl

theorem parseQueryResult_of_secondSchema (hq : q.Regular) (hsecond : q.SecondSchema)
    (href : ∀ row ∈ q.rows.head?, ¬RefusedFirst separationKey row)
    (h : Parsable separationKey q.firstRows) :
    ReturnsError (parseQueryResult q separationKey) := by
  have hne : q.records ≠ [] := by
    intro hnil
    obtain ⟨r, hr, -⟩ := hsecond
    simp [hnil] at hr
  obtain ⟨tables, st, hst, hreading⟩ := (foldlM_firstSchema hq hne href).1 h
  obtain ⟨r, hr, hc⟩ := hsecond
  have hdrop : q.records.tail.dropWhile (fun r => !r.tableChanged) ≠ [] := by
    rw [Ne, List.dropWhile_eq_nil_iff]
    intro hall
    simpa [hc] using hall r hr
  obtain ⟨r₂, more, hmore⟩ := List.exists_cons_of_ne_nil hdrop
  have hr₂ : r₂ ∈ q.records := by
    rw [records_eq q.records, hmore]
    exact List.mem_append_right _ List.mem_cons_self
  have hc₂ : r₂.tableChanged = true := by
    have := List.head_dropWhile_not (fun r : FluxRecord => !r.tableChanged) hdrop
    simpa [hmore] using this
  obtain ⟨msg, hmsg⟩ := parseRow_secondSchema (hq.err r₂ hr₂) hc₂ hreading
  refine ⟨msg, ?_⟩
  rw [parseQueryResult, records_eq q.records, List.foldlM_append, hst, hmore]
  simp only [bind, Except.bind, List.foldlM_cons, hmsg]

/-- A stream of one schema comes back as the last tables of its keys. -/
theorem parseQueryResult_of_parsable (hq : q.Regular) (hne : q.records ≠ [])
    (hone : ¬q.SecondSchema) (href : ∀ row ∈ q.rows.head?, ¬RefusedFirst separationKey row)
    (h : Parsable separationKey q.rows) :
    ∃ m, parseQueryResult q separationKey = .ok m ∧
      ∀ key, m.lookup key = lastTable separationKey key (tableRuns separationKey q.rows) := by
  rw [← QueryTableResult.firstRows_eq_rows hone] at h ⊢
  obtain ⟨tables, st, hst, hreading⟩ := (foldlM_firstSchema hq hne href).1 h
  have hdrop : q.records.tail.dropWhile (fun r => !r.tableChanged) = [] := by
    rw [List.dropWhile_eq_nil_iff]
    intro r hr
    by_contra hc
    exact hone ⟨r, hr, by simpa using hc⟩
  refine ⟨st.result.upsert (st.key, st.tableRows), ?_, ?_⟩
  · rw [parseQueryResult, records_eq q.records, hdrop, List.append_nil, hst]
    rfl
  · intro key
    rw [hreading.runs, Map.lookup_upsert, lastTable, lastRun_snoc]
    by_cases hk : key = st.key
    · rw [if_pos hk, if_pos ((hreading.hasKey_iff _).2 (by rw [hk]))]
    · have hno :
          ¬HasKey (fun row => column row separationKey) (.string key) st.tableRows = true := by
        rw [hreading.hasKey_iff, Value.string.injEq]
        exact hk
      rw [if_neg hk, if_neg hno]
      exact hreading.result key

/-- The rows of a stream make the parser refuse it: the first row lacks a
column, or there is a second schema and no panic before it. -/
def RefusedStream (separationKey : String) (q : QueryTableResult) : Prop :=
  (∃ row ∈ q.rows.head?, RefusedFirst separationKey row) ∨
    q.SecondSchema ∧ Parsable separationKey q.firstRows

/-- **When a stream is refused.** -/
theorem returnsError_iff (hq : q.Regular) :
    ReturnsError (parseQueryResult q separationKey) ↔ RefusedStream separationKey q := by
  constructor
  · rintro ⟨msg, hmsg⟩
    by_cases hne : q.records = []
    · rw [parseQueryResult, hne] at hmsg
      cases hmsg
    by_cases href : ∃ row ∈ q.rows.head?, RefusedFirst separationKey row
    · exact Or.inl href
    have href' : ∀ row ∈ q.rows.head?, ¬RefusedFirst separationKey row :=
      fun row hrow h => href ⟨row, hrow, h⟩
    by_cases hp : Parsable separationKey q.firstRows
    · by_cases hsecond : q.SecondSchema
      · exact Or.inr ⟨hsecond, hp⟩
      · rw [QueryTableResult.firstRows_eq_rows hsecond] at hp
        obtain ⟨m, hm, -⟩ := parseQueryResult_of_parsable hq hne hsecond href' hp
        rw [hm] at hmsg
        cases hmsg
    · rw [parseQueryResult_of_not_parsable hq hne href' hp] at hmsg
      cases hmsg
  · rintro (href | ⟨hsecond, hp⟩)
    · exact parseQueryResult_of_refusedFirst hq href
    · refine parseQueryResult_of_secondSchema hq hsecond ?_ hp
      -- a row without a column is not a typed one
      intro row hrow
      refine not_refusedFirst_of_typed (hp.typed row ?_)
      unfold QueryTableResult.rows at hrow
      unfold QueryTableResult.firstRows
      cases hrecs : q.records with
      | nil => simp [hrecs] at hrow
      | cons r records =>
        have hr : r.values = row := by simpa [hrecs] using hrow
        rw [firstSchema, List.map_cons, hr]
        exact List.mem_cons_self

end Outcome

/-! ## A stream that breaks off -/

/-- Reading the stream fails after `n` records. -/
def QueryTableResult.brokenAt (q : QueryTableResult) (n : ℕ) (e : String) : QueryTableResult :=
  { records := q.records.take n, err := some e }

theorem QueryTableResult.Regular.brokenAt {q : QueryTableResult} (hq : q.Regular) (n : ℕ)
    (e : String) : (q.brokenAt n e).Regular := by
  constructor
  · intro r hr
    cases n with
    | zero => simp [QueryTableResult.brokenAt] at hr
    | succ n =>
      refine hq.opens r ?_
      rwa [QueryTableResult.brokenAt, List.head?_take, if_neg (by omega)] at hr
  · intro r hr
    exact hq.err r (List.mem_of_mem_take hr)

/-- The parser does not look at the error on which reading stopped. -/
theorem parseQueryResult_brokenAt (q : QueryTableResult) (n : ℕ) (e : String)
    (separationKey : String) : parseQueryResult (q.brokenAt n e) separationKey =
      parseQueryResult { records := q.records.take n } separationKey := rfl

/-- **A broken stream is refused only for the rows that were read.** -/
theorem parseQueryResult_brokenAt_iff (separationKey : String) (q : QueryTableResult) (n : ℕ)
    (e : String) (hq : q.Regular) :
    ReturnsError (parseQueryResult (q.brokenAt n e) separationKey) ↔
      RefusedStream separationKey (q.brokenAt n e) :=
  returnsError_iff (hq.brokenAt n e)

/-- A row of a measurement of one host. -/
def hostRow (table : ℤ) (hostname : String) (value : ℤ) : QueryResult where
  rows := [("table", .int table), ("hostname", .string hostname),
    ("_measurement", .string "cpu_load"), ("_value", .int value)]
  nodup := by simp

/-- Two tables of one row each. -/
def twoHosts : QueryTableResult where
  records := [{ values := hostRow 0 "n1" 1, tableChanged := true }, { values := hostRow 1 "n2" 2 }]

theorem twoHosts_regular : twoHosts.Regular := by
  constructor
  · intro r hr
    simp only [twoHosts, List.head?_cons, Option.mem_some_iff] at hr
    rw [← hr]
  · intro r hr
    simp only [twoHosts, List.mem_cons, List.not_mem_nil, or_false] at hr
    rcases hr with rfl | rfl <;> rfl

theorem parseQueryResult_brokenAt_iff_twoHosts :
    ReturnsError (parseQueryResult (twoHosts.brokenAt 1 "EOF") "hostname") ↔
      RefusedStream "hostname" (twoHosts.brokenAt 1 "EOF") :=
  parseQueryResult_brokenAt_iff "hostname" twoHosts 1 "EOF" twoHosts_regular

/-- The connection is lost after the first host: its table passes for the whole
answer. -/
theorem brokenStream_taken_for_complete :
    twoHosts.Regular ∧ (twoHosts.brokenAt 1 "EOF").err = some "EOF" ∧
      ¬ReturnsError (parseQueryResult (twoHosts.brokenAt 1 "EOF") "hostname") ∧
      ∃ m, parseQueryResult (twoHosts.brokenAt 1 "EOF") "hostname" = .ok m ∧
        m.rows = [("n1", [hostRow 0 "n1" 1])] := by
  have hm : ∃ m, parseQueryResult (twoHosts.brokenAt 1 "EOF") "hostname" = .ok m ∧
      m.rows = [("n1", [hostRow 0 "n1" 1])] := ⟨_, rfl, rfl⟩
  refine ⟨twoHosts_regular, rfl, ?_, hm⟩
  rintro ⟨msg, hmsg⟩
  obtain ⟨m, hm, -⟩ := hm
  rw [hm] at hmsg
  cases hmsg

/-! ## A complete stream -/

/-- The result of a stream with the given rows holds, for exactly the separation
keys that occur, the last run of the key, which are all its rows when every key
has one run. -/
structure GroupsOf (separationKey : String) (rows : List QueryResult)
    (m : Map String (List QueryResult)) : Prop where
  domain : ∀ key, (m.lookup key).isSome ↔ ∃ row ∈ rows, column row separationKey = .string key
  table : ∀ key, m.lookup key = lastTable separationKey key (tableRuns separationKey rows)
  single : SingleRuns (fun row => column row separationKey) (tableRuns separationKey rows) →
    ∀ key, (m.lookup key).getD [] = rows.filter fun row => column row separationKey = .string key

/-- The parser groups the stream exactly, or refuses it for a second schema or a
column that the first row lacks. -/
structure GroupedExactly (separationKey : String) (q : QueryTableResult) : Prop where
  groups : ¬q.SecondSchema → (∀ row ∈ q.rows, TypedRow separationKey row) →
    ∃ m, parseQueryResult q separationKey = .ok m ∧ GroupsOf separationKey q.rows m
  secondSchema : q.SecondSchema → (∀ row ∈ q.rows, TypedRow separationKey row) →
    ReturnsError (parseQueryResult q separationKey)
  missingColumn :
    (∃ row ∈ q.rows.head?, row.lookup separationKey = none ∨ row.lookup "table" = none) →
    ReturnsError (parseQueryResult q separationKey)

/-- A column of the first row is missing, or both are as the parser takes them;
the other rows have both columns. -/
structure QueryTableResult.Typed (separationKey : String) (q : QueryTableResult) : Prop where
  key : ∀ row ∈ q.rows.head?, row.lookup separationKey = none ∨
    ∃ k, column row separationKey = .string k
  table : ∀ row ∈ q.rows.head?, row.lookup "table" = none ∨ ∃ i, column row "table" = .int i
  rest : ∀ row ∈ q.rows.tail, TypedRow separationKey row

/-- What comes back when the rows are parsable. -/
theorem groupsOf_of_lookup {separationKey : String} {rows : List QueryResult}
    {m : Map String (List QueryResult)}
    (h : ∀ key, m.lookup key = lastTable separationKey key (tableRuns separationKey rows)) :
    GroupsOf separationKey rows m := by
  have hkey : ∀ a b, rowMark separationKey a = rowMark separationKey b →
      column a separationKey = column b separationKey := fun a b hab => congrArg Prod.snd hab
  refine ⟨?_, h, ?_⟩
  · intro key
    rw [h, lastTable, tableRuns, isSome_lastRun_runs_iff hkey]
  · intro hsingle key
    rw [h, lastTable, getD_lastRun hsingle, tableRuns, flatten_runs]
    intro g hg a ha b hb
    exact hkey a b (mark_eq_of_mem_runs hg a ha b hb)

/-- The columns of the first row are both there, or one is missing. -/
theorem QueryTableResult.Typed.cases {separationKey : String} {q : QueryTableResult}
    (h : q.Typed separationKey) :
    (∃ row ∈ q.rows.head?, row.lookup separationKey = none ∨ row.lookup "table" = none) ∨
      ∀ row ∈ q.rows, TypedRow separationKey row := by
  obtain ⟨hkey, htable, hrest⟩ := h
  cases hrows : q.rows with
  | nil => exact Or.inr fun row hrow => absurd hrow List.not_mem_nil
  | cons row rows =>
    rw [hrows] at hkey htable hrest
    rcases hkey row rfl with hnone | hk
    · exact Or.inl ⟨row, rfl, Or.inl hnone⟩
    rcases htable row rfl with hnone | hi
    · exact Or.inl ⟨row, rfl, Or.inr hnone⟩
    refine Or.inr fun r hr => ?_
    rcases List.mem_cons.1 hr with rfl | hr
    · exact ⟨hi, hk⟩
    · exact hrest r hr

/-- A missing column is an error, when the other one is as the parser takes it. -/
theorem QueryTableResult.Typed.refusedFirst {separationKey : String} {q : QueryTableResult}
    (h : q.Typed separationKey)
    (hmissing : ∃ row ∈ q.rows.head?, row.lookup separationKey = none ∨ row.lookup "table" = none) :
    ∃ row ∈ q.rows.head?, RefusedFirst separationKey row := by
  obtain ⟨row, hrow, hnone⟩ := hmissing
  refine ⟨row, hrow, ?_⟩
  rcases h.key row hrow with hkey | hkey
  · exact Or.inl hkey
  · rcases hnone with hnone | hnone
    · exact Or.inl hnone
    · exact Or.inr ⟨hkey, hnone⟩

/-- **When the parser groups a stream exactly.** -/
theorem groupedExactly_iff (separationKey : String) (q : QueryTableResult) (hq : q.Regular)
    (hne : q.records ≠ []) (htyped : q.Typed separationKey) :
    GroupedExactly separationKey q ↔
      (∃ row ∈ q.rows.head?, row.lookup separationKey = none ∨ row.lookup "table" = none) ∨
        Savable separationKey q.firstRows := by
  by_cases hmissing :
      ∃ row ∈ q.rows.head?, row.lookup separationKey = none ∨ row.lookup "table" = none
  · -- an error, whatever the other rows are
    have herror := parseQueryResult_of_refusedFirst hq (htyped.refusedFirst hmissing)
    refine ⟨fun _ => Or.inl hmissing, fun _ => ⟨?_, fun _ _ => herror, fun _ => herror⟩⟩
    intro _ hall
    obtain ⟨row, hrow, href⟩ := htyped.refusedFirst hmissing
    exact absurd href (not_refusedFirst_of_typed (hall row (List.mem_of_mem_head? hrow)))
  · have hall : ∀ row ∈ q.rows, TypedRow separationKey row := htyped.cases.resolve_left hmissing
    have href : ∀ row ∈ q.rows.head?, ¬RefusedFirst separationKey row :=
      fun row hrow => not_refusedFirst_of_typed (hall row (List.mem_of_mem_head? hrow))
    have hfirst : ∀ row ∈ q.firstRows, TypedRow separationKey row := by
      intro row hrow
      obtain ⟨r, hr, rfl⟩ := List.mem_map.1 hrow
      refine hall _ (List.mem_map_of_mem ?_)
      rw [records_eq q.records]
      exact List.mem_append_left _ hr
    constructor
    · intro h
      refine Or.inr ?_
      by_contra hsav
      have hpanic : parseQueryResult q separationKey = .error .panic :=
        parseQueryResult_of_not_parsable hq hne href fun hp => hsav hp.savable
      by_cases hsecond : q.SecondSchema
      · obtain ⟨msg, hmsg⟩ := h.secondSchema hsecond hall
        rw [hpanic] at hmsg
        cases hmsg
      · obtain ⟨m, hm, -⟩ := h.groups hsecond hall
        rw [hpanic] at hm
        cases hm
    · rintro (h | hsav)
      · exact absurd h hmissing
      have hp : Parsable separationKey q.firstRows := ⟨hfirst, hsav⟩
      refine ⟨?_, fun hsecond _ => parseQueryResult_of_secondSchema hq hsecond href hp,
        fun h => absurd h hmissing⟩
      intro hone _
      rw [QueryTableResult.firstRows_eq_rows hone] at hp
      obtain ⟨m, hm, hlookup⟩ := parseQueryResult_of_parsable hq hne hone href hp
      exact ⟨m, hm, groupsOf_of_lookup hlookup⟩

theorem twoHosts_typed : twoHosts.Typed "hostname" := by
  constructor
  · rintro row ⟨⟩
    exact Or.inr ⟨"n1", rfl⟩
  · rintro row ⟨⟩
    exact Or.inr ⟨0, rfl⟩
  · intro row hrow
    rw [List.mem_singleton.1 hrow]
    exact ⟨⟨1, rfl⟩, "n2", rfl⟩

theorem groupedExactly_iff_twoHosts : GroupedExactly "hostname" twoHosts ↔
    (∃ row ∈ twoHosts.rows.head?, row.lookup "hostname" = none ∨ row.lookup "table" = none) ∨
      Savable "hostname" twoHosts.firstRows :=
  groupedExactly_iff "hostname" twoHosts twoHosts_regular (by simp [twoHosts]) twoHosts_typed

/-- A row without a measurement. -/
def namelessRow (table : ℤ) (hostname : String) : QueryResult where
  rows := [("table", .int table), ("hostname", .string hostname)]
  nodup := by simp

/-- Three tables of one host, whose rows do not name their measurement. -/
def namelessTables : QueryTableResult where
  records := [{ values := namelessRow 0 "n1", tableChanged := true },
    { values := namelessRow 1 "n1" }, { values := namelessRow 2 "n1" }]

/-- The log line about the replaced table ends the process. -/
theorem namelessTables_not_grouped :
    (namelessTables.Regular ∧ namelessTables.err = none ∧ namelessTables.Typed "hostname" ∧
      ¬namelessTables.SecondSchema) ∧
    parseQueryResult namelessTables "hostname" = .error .panic ∧
      ¬GroupedExactly "hostname" namelessTables := by
  have hpanic : parseQueryResult namelessTables "hostname" = .error .panic := rfl
  have hall : ∀ row ∈ namelessTables.rows, TypedRow "hostname" row := by
    intro row hrow
    simp only [namelessTables, QueryTableResult.rows, List.map_cons, List.map_nil, List.mem_cons,
      List.not_mem_nil, or_false] at hrow
    rcases hrow with rfl | rfl | rfl <;> exact ⟨⟨_, rfl⟩, "n1", rfl⟩
  have hone : ¬namelessTables.SecondSchema := by
    simp [QueryTableResult.SecondSchema, namelessTables]
  refine ⟨⟨⟨?_, ?_⟩, rfl, ⟨?_, ?_, ?_⟩, hone⟩, hpanic, ?_⟩
  · rintro r ⟨⟩
    rfl
  · intro r hr
    simp only [namelessTables, List.mem_cons, List.not_mem_nil, or_false] at hr
    rcases hr with rfl | rfl | rfl <;> rfl
  · rintro row ⟨⟩
    exact Or.inr ⟨"n1", rfl⟩
  · rintro row ⟨⟩
    exact Or.inr ⟨0, rfl⟩
  · exact fun row hrow => hall row (List.mem_of_mem_tail hrow)
  · intro h
    obtain ⟨m, hm, -⟩ := h.groups hone hall
    rw [hpanic] at hm
    cases hm

end JobMon
