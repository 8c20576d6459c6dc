import JobMon.Job.Types

/-!
# Query results

The stream of records a query yields, and `parseQueryResult`, which sorts the
records into one list per value of the separation key.

* `QueryTableResult` — the records, and the error on which reading stopped, which
  the parser does not look at after its loop.
* `parseRow` — one round of the loop, with every way it can fail or panic.
* `filed_of_parseQueryResult` — every record that ends up under a key is a record
  of the stream that carries this key.
* `OpensTable.filed` — the same of every answer the parser accepts.
-/

namespace JobMon

open Keyed

/-- A record of a query result, with what the client reports while it is the
current one. -/
structure FluxRecord where
  values : QueryResult
  /-- `TableChanged`: the record is the first one of a new table schema. -/
  tableChanged : Bool := false
  /-- `Err` at this record. -/
  err : Option String := none
  deriving DecidableEq

/-- The stream of a query result. -/
structure QueryTableResult where
  records : List FluxRecord := []
  /-- `Err` after `Next` has returned false. -/
  err : Option String := none
  deriving DecidableEq

/-! ## Type assertions -/

/-- `v.(string)`. -/
def Value.asString : Value → Result String
  | .string s => .ok s
  | _ => .error .panic

/-- `v.(int64)`. -/
def Value.asInt : Value → Result ℤ
  | .int n => .ok n
  | _ => .error .panic

/-- `row[column]`: the nil value when there is no such column. -/
def column (row : QueryResult) (name : String) : Value := (row.lookup name).getD .nil

/-! ## The parser -/

/-- What the loop of `parseQueryResult` carries along. -/
structure ParseState where
  result : Map String (List QueryResult) := Table.empty
  tableRows : List QueryResult := []
  key : String := ""
  tableIndex : ℤ := 0
  numResultTableChanges : ℕ := 0

/-- A new table schema: initialise key and table index.  The text of the row
that ends two of the messages is left out. -/
def startTable (separationKey : String) (st : ParseState) (row : QueryResult) :
    Result ParseState :=
  if st.numResultTableChanges + 1 > 1 then
    .error (.error "db: parseQueryResult(): Multiple table changes were detected")
  else
    match row.lookup separationKey with
    | none => .error (.error
        ("db: parseQueryResult(): could not find separation key \"" ++ separationKey ++
          "\" in row"))
    | some val => do
      let key ← val.asString
      match row.lookup "table" with
      | none => .error (.error "db: parseQueryResult(): could not find \"table\" in row")
      | some val => do
        let tableIndex ← val.asInt
        pure { st with key, tableIndex, numResultTableChanges := st.numResultTableChanges + 1 }

/-- Save the rows collected so far under their key.  Overwriting an earlier list
is logged, and the log line reads the measurement of the first row. -/
def saveTable (st : ParseState) : Result (Map String (List QueryResult)) :=
  if (st.result.lookup st.key).isSome then
    match st.tableRows with
    | [] => .error .panic
    | row :: _ => do
      let _ ← (column row "_measurement").asString
      pure (st.result.upsert (st.key, st.tableRows))
  else
    pure (st.result.upsert (st.key, st.tableRows))

/-- The first half of a round: is this the start of a new table schema? -/
def openTable (separationKey : String) (st : ParseState) (record : FluxRecord) :
    Result ParseState :=
  if record.tableChanged then startTable separationKey st record.values else pure st

/-- The second half of a round: does the row belong to the current table? -/
def storeRow (separationKey : String) (st : ParseState) (row : QueryResult) :
    Result ParseState := do
  let valTableIndex ← (column row "table").asInt
  let valKey ← (column row separationKey).asString
  if valTableIndex ≠ st.tableIndex ∨ valKey ≠ st.key then do
    let result ← saveTable st
    pure { st with result, tableRows := [row], tableIndex := valTableIndex, key := valKey }
  else
    pure { st with tableRows := st.tableRows ++ [row] }

/-- One round of the loop. -/
def parseRow (separationKey : String) (st : ParseState) (record : FluxRecord) :
    Result ParseState :=
  match record.err with
  | some e => .error (.error e)
  | none => do
    let st ← openTable separationKey st record
    storeRow separationKey st record.values

/-- `parseQueryResult`. -/
def parseQueryResult (queryResult : QueryTableResult) (separationKey : String) :
    Result (Map String (List QueryResult)) := do
  let st ← queryResult.records.foldlM (parseRow separationKey) {}
  pure (st.result.upsert (st.key, st.tableRows))

/-! ## Every row is filed under its own key -/

/-- A row is a record of the stream and has `key` as its separation key. -/
def FiledUnder (separationKey : String) (stream : List FluxRecord) (key : String)
    (row : QueryResult) : Prop :=
  row ∈ stream.map FluxRecord.values ∧ column row separationKey = .string key

/-- All rows of a state are filed under their own key. -/
structure Filed (separationKey : String) (stream : List FluxRecord) (st : ParseState) : Prop where
  result : ∀ p ∈ st.result.rows, ∀ row ∈ p.2, FiledUnder separationKey stream p.1 row
  tableRows : ∀ row ∈ st.tableRows, FiledUnder separationKey stream st.key row

theorem Value.asString_eq_ok_iff {v : Value} {s : String} : v.asString = .ok s ↔ v = .string s := by
  cases v <;> simp [asString]

/-- Rows stored by `upsert` were there before or are the new ones. -/
theorem mem_upsert_rows {m : Map String (List QueryResult)} {p x : String × List QueryResult}
    (h : x ∈ (m.upsert p).rows) : x ∈ m.rows ∨ x = p := by
  unfold Table.upsert at h
  cases hi : m.insert p with
  | some m' =>
    simp only [hi] at h
    rw [(Table.insert_eq_some_iff.1 hi).2, List.mem_append, List.mem_singleton] at h
    exact h
  | none =>
    simp only [hi, Table.replace, List.mem_map] at h
    obtain ⟨y, hy, rfl⟩ := h
    by_cases hk : y.1 = p.1
    · rw [if_pos hk]
      exact Or.inr rfl
    · rw [if_neg hk]
      exact Or.inl hy

theorem saveTable_eq_ok {st : ParseState} {m : Map String (List QueryResult)}
    (h : saveTable st = .ok m) : m = st.result.upsert (st.key, st.tableRows) := by
  unfold saveTable at h
  by_cases hk : (st.result.lookup st.key).isSome
  · rw [if_pos hk] at h
    cases hrows : st.tableRows with
    | nil => simp [hrows] at h
    | cons row rows =>
      simp only [hrows] at h
      obtain ⟨s, -, hs⟩ := bind_eq_ok_iff.1 h
      cases hs
      rfl
  · rw [if_neg hk] at h
    cases h
    rfl

theorem Filed.save {separationKey : String} {stream : List FluxRecord} {st : ParseState}
    (h : Filed separationKey stream st) :
    ∀ p ∈ (st.result.upsert (st.key, st.tableRows)).rows, ∀ row ∈ p.2,
      FiledUnder separationKey stream p.1 row := by
  intro p hp row hrow
  rcases mem_upsert_rows hp with hp | rfl
  · exact h.result p hp row hrow
  · exact h.tableRows row hrow

theorem Filed.openTable {separationKey : String} {stream : List FluxRecord} {st st' : ParseState}
    {record : FluxRecord} (h : Filed separationKey stream st)
    (hstart : record.tableChanged = true → st.tableRows = [])
    (hstep : openTable separationKey st record = .ok st') : Filed separationKey stream st' := by
  unfold JobMon.openTable at hstep
  cases hc : record.tableChanged with
  | false =>
    rw [hc, if_neg (by simp)] at hstep
    cases hstep
    exact h
  | true =>
    rw [hc, if_pos rfl] at hstep
    unfold startTable at hstep
    by_cases hn : st.numResultTableChanges + 1 > 1
    · simp [hn] at hstep
    rw [if_neg hn] at hstep
    cases hsep : record.values.lookup separationKey with
    | none => simp [hsep] at hstep
    | some val =>
      simp only [hsep] at hstep
      obtain ⟨key, -, hstep⟩ := bind_eq_ok_iff.1 hstep
      cases htab : record.values.lookup "table" with
      | none => simp [htab] at hstep
      | some val =>
        simp only [htab] at hstep
        obtain ⟨tableIndex, -, hstep⟩ := bind_eq_ok_iff.1 hstep
        cases hstep
        refine ⟨h.result, ?_⟩
        intro row hrow
        simp [hstart hc] at hrow

theorem Filed.storeRow {separationKey : String} {stream : List FluxRecord} {st st' : ParseState}
    {row : QueryResult} (h : Filed separationKey stream st)
    (hrow : row ∈ stream.map FluxRecord.values)
    (hstep : storeRow separationKey st row = .ok st') : Filed separationKey stream st' := by
  unfold JobMon.storeRow at hstep
  obtain ⟨i, -, hstep⟩ := bind_eq_ok_iff.1 hstep
  obtain ⟨k, hk, hstep⟩ := bind_eq_ok_iff.1 hstep
  have hown : FiledUnder separationKey stream k row := ⟨hrow, Value.asString_eq_ok_iff.1 hk⟩
  by_cases hnew : i ≠ st.tableIndex ∨ k ≠ st.key
  · rw [if_pos hnew] at hstep
    obtain ⟨m, hm, hstep⟩ := bind_eq_ok_iff.1 hstep
    cases hstep
    rw [saveTable_eq_ok hm]
    refine ⟨h.save, ?_⟩
    intro row' hrow'
    rw [List.mem_singleton.1 hrow']
    exact hown
  · rw [if_neg hnew] at hstep
    cases hstep
    have hkey : k = st.key := by
      by_contra hne
      exact hnew (Or.inr hne)
    refine ⟨h.result, ?_⟩
    intro row' hrow'
    rcases List.mem_append.1 hrow' with hrow' | hrow'
    · exact h.tableRows row' hrow'
    · rw [List.mem_singleton.1 hrow', ← hkey]
      exact hown

/-- **Step.**  A record that does not start a new schema keeps the rows filed. -/
theorem Filed.parseRow {separationKey : String} {stream : List FluxRecord} {st st' : ParseState}
    {record : FluxRecord} (h : Filed separationKey stream st) (hrec : record ∈ stream)
    (hstart : record.tableChanged = true → st.tableRows = [])
    (hstep : parseRow separationKey st record = .ok st') : Filed separationKey stream st' := by
  unfold JobMon.parseRow at hstep
  cases herr : record.err with
  | some e => simp [herr] at hstep
  | none =>
    simp only [herr] at hstep
    obtain ⟨st₁, hopen, hstore⟩ := bind_eq_ok_iff.1 hstep
    exact (h.openTable hstart hopen).storeRow (List.mem_map_of_mem hrec) hstore

/-- **Run.**  Records none of which starts a new schema keep the rows filed. -/
theorem Filed.foldlM {separationKey : String} {stream records : List FluxRecord}
    {st st' : ParseState} (h : Filed separationKey stream st)
    (hrecs : ∀ r ∈ records, r ∈ stream ∧ r.tableChanged = false)
    (hrun : records.foldlM (JobMon.parseRow separationKey) st = .ok st') :
    Filed separationKey stream st' := by
  induction records generalizing st with
  | nil =>
    cases hrun
    exact h
  | cons r records ih =>
    rw [List.foldlM_cons] at hrun
    obtain ⟨st₁, hst₁, hrun⟩ := bind_eq_ok_iff.1 hrun
    obtain ⟨hr, hc⟩ := hrecs r List.mem_cons_self
    have hstep := h.parseRow hr (by simp [hc]) hst₁
    exact ih hstep (fun r' h' => hrecs r' (List.mem_cons_of_mem _ h')) hrun

/-- **Every row of a parsed result carries the key it is filed under**, for a
stream with a single table schema. -/
theorem filed_of_parseQueryResult {separationKey : String} {q : QueryTableResult}
    {m : Map String (List QueryResult)}
    (hschema : ∀ r ∈ q.records.tail, r.tableChanged = false)
    (h : parseQueryResult q separationKey = .ok m) :
    ∀ p ∈ m.rows, ∀ row ∈ p.2, FiledUnder separationKey q.records p.1 row := by
  obtain ⟨st, hrun, hm⟩ := bind_eq_ok_iff.1 h
  cases hm
  have h0 : Filed separationKey q.records {} :=
    ⟨fun p hp => by simp [Table.empty] at hp, fun row hrow => by simp at hrow⟩
  cases hrecs : q.records with
  | nil =>
    rw [hrecs] at hrun h0
    cases hrun
    exact h0.save
  | cons r records =>
    rw [hrecs] at hrun h0 hschema
    rw [List.foldlM_cons] at hrun
    obtain ⟨st₁, hst₁, hrun⟩ := bind_eq_ok_iff.1 hrun
    have h1 := h0.parseRow List.mem_cons_self (fun _ => rfl) hst₁
    exact (h1.foldlM (fun r' h' => ⟨List.mem_cons_of_mem _ h', hschema r' h'⟩) hrun).save

/-! ## One schema

The client reports the first record of an answer as the start of a table.  The
parser takes one such report, so that an answer it accepts has one schema. -/

/-- The first record of the answer starts a table. -/
def QueryTableResult.OpensTable (q : QueryTableResult) : Prop :=
  ∀ r ∈ q.records.head?, r.tableChanged = true

/-- What a round does to the number of schemas seen. -/
theorem numResultTableChanges_parseRow {separationKey : String} {st st' : ParseState}
    {record : FluxRecord} (h : parseRow separationKey st record = .ok st') :
    (record.tableChanged = true → st.numResultTableChanges = 0) ∧
      st'.numResultTableChanges =
        st.numResultTableChanges + if record.tableChanged then 1 else 0 := by
  unfold parseRow at h
  cases herr : record.err with
  | some e => simp [herr] at h
  | none =>
    simp only [herr] at h
    obtain ⟨st₁, hopen, hstore⟩ := bind_eq_ok_iff.1 h
    have hsame : st'.numResultTableChanges = st₁.numResultTableChanges := by
      unfold storeRow at hstore
      obtain ⟨i, -, hstore⟩ := bind_eq_ok_iff.1 hstore
      obtain ⟨k, -, hstore⟩ := bind_eq_ok_iff.1 hstore
      by_cases hnew : i ≠ st₁.tableIndex ∨ k ≠ st₁.key
      · rw [if_pos hnew] at hstore
        obtain ⟨m, -, hstore⟩ := bind_eq_ok_iff.1 hstore
        cases hstore
        rfl
      · rw [if_neg hnew] at hstore
        cases hstore
        rfl
    rw [hsame]
    unfold openTable at hopen
    cases hc : record.tableChanged with
    | false =>
      rw [hc, if_neg Bool.false_ne_true] at hopen
      cases hopen
      exact ⟨fun hf => absurd hf Bool.false_ne_true, rfl⟩
    | true =>
      rw [hc, if_pos rfl] at hopen
      unfold startTable at hopen
      by_cases hn : st.numResultTableChanges + 1 > 1
      · simp [hn] at hopen
      rw [if_neg hn] at hopen
      cases hsep : record.values.lookup separationKey with
      | none => simp [hsep] at hopen
      | some val =>
        simp only [hsep] at hopen
        obtain ⟨key, -, hopen⟩ := bind_eq_ok_iff.1 hopen
        cases htab : record.values.lookup "table" with
        | none => simp [htab] at hopen
        | some val =>
          simp only [htab] at hopen
          obtain ⟨tableIndex, -, hopen⟩ := bind_eq_ok_iff.1 hopen
          cases hopen
          exact ⟨fun _ => by omega, rfl⟩

/-- After the first schema the parser accepts no other one. -/
theorem tableChanged_of_foldlM {separationKey : String} {records : List FluxRecord}
    {st st' : ParseState} (hst : 0 < st.numResultTableChanges)
    (h : records.foldlM (parseRow separationKey) st = .ok st') :
    ∀ r ∈ records, r.tableChanged = false := by
  induction records generalizing st with
  | nil => simp
  | cons r records ih =>
    rw [List.foldlM_cons] at h
    obtain ⟨st₁, hst₁, hrun⟩ := bind_eq_ok_iff.1 h
    obtain ⟨hfirst, hnum⟩ := numResultTableChanges_parseRow hst₁
    have hr : r.tableChanged = false := by
      by_contra hc
      have := hfirst (by simpa using hc)
      omega
    intro r' hr'
    rcases List.mem_cons.1 hr' with rfl | hr'
    · exact hr
    · exact ih (by omega) hrun r' hr'

/-- **An accepted answer is filed by the separation key.** -/
theorem QueryTableResult.OpensTable.filed {separationKey : String} {q : QueryTableResult}
    {m : Map String (List QueryResult)} (hopens : q.OpensTable)
    (h : parseQueryResult q separationKey = .ok m) :
    ∀ p ∈ m.rows, ∀ row ∈ p.2, FiledUnder separationKey q.records p.1 row := by
  refine filed_of_parseQueryResult ?_ h
  obtain ⟨st, hrun, -⟩ := bind_eq_ok_iff.1 h
  cases hrecs : q.records with
  | nil => simp
  | cons r records =>
    rw [hrecs, List.foldlM_cons] at hrun
    obtain ⟨st₁, hst₁, hrun⟩ := bind_eq_ok_iff.1 hrun
    have hr : r.tableChanged = true := hopens r (by rw [hrecs]; rfl)
    obtain ⟨-, hnum⟩ := numResultTableChanges_parseRow hst₁
    rw [hr, if_pos rfl] at hnum
    exact tableChanged_of_foldlM (by omega) hrun

end JobMon
