import JobMon.Influx.Grouping
import JobMon.Influx.LiveSeries

/-!
# Series and separation keys

`query` chooses between a raw and an aggregated query, and with it the column by
which the answer is filed.  The server answers a raw query with one table for
each combination of host and separation key of the metric, and an aggregated one
with one table for each host.

* `AnswersQuery` — what is assumed of an answer.
* `keepsSeries_of_key` — a column that tells the tables apart keeps every row.
* `keepsEverySeries_iff` — the choices under which the column does.
-/

namespace JobMon

open Keyed Grouping

/-! ## What an answer looks like -/

/-- The table index of a row. -/
def tableIndex (row : QueryResult) : ℤ :=
  match column row "table" with
  | .int i => i
  | _ => 0

/-- The columns to which the filters of a raw or an aggregated query leave one
value. -/
def FluxQuery.fixedColumns (q : FluxQuery) : List (String × String) :=
  ("_measurement", q.measurement) ::
    ((match q.kind with
      | .simple metricType => if metricType ≠ "" then [("type", metricType)] else []
      | _ => []) ++
      if Go.containsChar q.nodes '|' then [] else [("hostname", q.nodes)])

/-- The tags by which the server splits the answer into tables. -/
def FluxQuery.tableTags (q : FluxQuery) (separationKey : String) : List String :=
  match q.kind with
  | .simple _ => ["hostname", separationKey]
  | _ => ["hostname"]

/-- The values of some tags. -/
def tagValues (tags : List String) (row : QueryResult) : List Value := tags.map (column row)

/-- An answer to the query `q` on a metric with the given separation key: a
complete stream of one schema, whose rows come table by table, with one table for
each combination of tags. -/
structure AnswersQuery (q : FluxQuery) (separationKey : String) (answer : QueryTableResult) :
    Prop where
  regular : answer.Regular
  complete : answer.err = none
  oneSchema : ¬answer.SecondSchema
  table : ∀ row ∈ answer.rows, ∃ i, column row "table" = .int i
  inOrder : answer.rows.Pairwise fun a b => tableIndex a ≤ tableIndex b
  /-- A tag is a text. -/
  tags : ∀ row ∈ answer.rows, ∀ tag ∈ q.tableTags separationKey, ∃ s, column row tag = .string s
  perTags : ∀ row ∈ answer.rows, ∀ row' ∈ answer.rows,
    column row "table" = column row' "table" ↔
      tagValues (q.tableTags separationKey) row = tagValues (q.tableTags separationKey) row'
  /-- A row passes the filters of the query. -/
  filters : ∀ row ∈ answer.rows, ∀ p ∈ q.fixedColumns,
    column row p.1 = .nil ∨ column row p.1 = .string p.2

/-- Filed by `key`, different tables go under different keys, and every row is in
the result. -/
structure KeepsSeries (key : String) (answer : QueryTableResult) : Prop where
  keys : ∀ row ∈ answer.rows, ∀ row' ∈ answer.rows,
    column row "table" ≠ column row' "table" → column row key ≠ column row' key
  rows : ∃ m, parseQueryResult answer key = .ok m ∧
    ∀ row ∈ answer.rows, ∃ k rows, m.lookup k = some rows ∧ row ∈ rows

theorem tableIndex_of_column {row : QueryResult} {i : ℤ} (h : column row "table" = .int i) :
    tableIndex row = i := by
  rw [tableIndex, h]

section

variable {q : FluxQuery} {separationKey key : String} {answer : QueryTableResult}

theorem AnswersQuery.tableIndex_eq_iff (h : AnswersQuery q separationKey answer)
    {row row' : QueryResult} (hrow : row ∈ answer.rows) (hrow' : row' ∈ answer.rows) :
    tableIndex row = tableIndex row' ↔ column row "table" = column row' "table" := by
  obtain ⟨i, hi⟩ := h.table row hrow
  obtain ⟨j, hj⟩ := h.table row' hrow'
  rw [tableIndex_of_column hi, tableIndex_of_column hj, hi, hj, Value.int.injEq]

/-- **A column that tells the tables apart keeps every row.** -/
theorem keepsSeries_of_key (h : AnswersQuery q separationKey answer)
    (hkey : ∀ row ∈ answer.rows, ∃ k, column row key = .string k)
    (hiff : ∀ row ∈ answer.rows, ∀ row' ∈ answer.rows,
      column row "table" = column row' "table" ↔ column row key = column row' key) :
    KeepsSeries key answer := by
  refine ⟨fun row hrow row' hrow' hne heq => hne ((hiff row hrow row' hrow').2 heq), ?_⟩
  by_cases hne : answer.records = []
  · refine ⟨_, by rw [parseQueryResult, hne]; rfl, ?_⟩
    intro row hrow
    simp [QueryTableResult.rows, hne] at hrow
  have hall : ∀ row ∈ answer.rows, TypedRow key row :=
    fun row hrow => ⟨h.table row hrow, hkey row hrow⟩
  have hsingle : SingleRuns (fun row => column row key) (tableRuns key answer.rows) := by
    refine singleRuns_of_sorted h.inOrder ?_ ?_
    · intro a ha b hb hab
      exact (h.tableIndex_eq_iff ha hb).2 ((hiff a ha b hb).2 hab)
    · intro a ha b hb hab
      have htable := (h.tableIndex_eq_iff ha hb).1 hab
      rw [rowMark, rowMark, htable, (hiff a ha b hb).1 htable]
  have hsav : Savable key answer.rows := by
    refine SingleRuns.replaced (List.Pairwise.sublist (List.dropLast_sublist _) hsingle)
  obtain ⟨m, hm, hlookup⟩ := parseQueryResult_of_parsable h.regular hne h.oneSchema
    (fun row hrow => not_refusedFirst_of_typed (hall row (List.mem_of_mem_head? hrow)))
    ⟨hall, hsav⟩
  refine ⟨m, hm, ?_⟩
  intro row hrow
  obtain ⟨k, hk⟩ := hkey row hrow
  have hmem : row ∈ (m.lookup k).getD [] := by
    rw [(groupsOf_of_lookup hlookup).single hsingle k, List.mem_filter]
    exact ⟨hrow, by simpa using hk⟩
  cases hm' : m.lookup k with
  | none => simp [hm'] at hmem
  | some rows => exact ⟨k, rows, hm', by rwa [hm'] at hmem⟩

end

/-! ## The choice of the separation key -/

namespace InfluxDB

/-- The answers to a query that keep every series. -/
def KeepsEverySeries (db : InfluxDB) (m : MetricConfig) (j : JobMetadata) (nodes : String)
    (sampleInterval : Go.Duration) (forceAggregate : Bool) : Prop :=
  ∀ q answer, (db.queryFor m j nodes sampleInterval forceAggregate).1 = some q →
    AnswersQuery q m.separationKey answer →
      KeepsSeries (db.queryFor m j nodes sampleInterval forceAggregate).2 answer

variable {db : InfluxDB} {m : MetricConfig} {j : JobMetadata} {nodes : String} {d : Go.Duration}

/-- An aggregated query is filed by host, and has one table for each host. -/
theorem keepsSeries_of_aggregateQuery {q : FluxQuery} {answer : QueryTableResult} {aggFn : String}
    (hq : db.aggregateQuery m j nodes aggFn d = some q)
    (h : AnswersQuery q m.separationKey answer) : KeepsSeries "hostname" answer := by
  have htags : q.tableTags m.separationKey = ["hostname"] := by
    rw [eq_of_buildQuery hq]
    rfl
  refine keepsSeries_of_key h ?_ ?_
  · intro row hrow
    exact h.tags row hrow "hostname" (by rw [htags]; exact List.mem_cons_self)
  · intro row hrow row' hrow'
    rw [h.perTags row hrow row' hrow', htags]
    simp [tagValues]

/-- A raw query has one table for each combination of host and separation key. -/
theorem perTags_of_simpleQuery {q : FluxQuery} {answer : QueryTableResult}
    (hq : db.simpleQuery m j nodes d = some q) (h : AnswersQuery q m.separationKey answer) :
    ∀ row ∈ answer.rows, ∀ row' ∈ answer.rows, column row "table" = column row' "table" ↔
      column row "hostname" = column row' "hostname" ∧
        column row m.separationKey = column row' m.separationKey := by
  have htags : q.tableTags m.separationKey = ["hostname", m.separationKey] := by
    rw [eq_of_buildQuery hq]
    rfl
  intro row hrow row' hrow'
  rw [h.perTags row hrow row' hrow', htags]
  simp [tagValues]

theorem tags_of_simpleQuery {q : FluxQuery} {answer : QueryTableResult}
    (hq : db.simpleQuery m j nodes d = some q) (h : AnswersQuery q m.separationKey answer)
    {row : QueryResult} (hrow : row ∈ answer.rows) :
    (∃ s, column row "hostname" = .string s) ∧ ∃ s, column row m.separationKey = .string s := by
  have htags : q.tableTags m.separationKey = ["hostname", m.separationKey] := by
    rw [eq_of_buildQuery hq]
    rfl
  refine ⟨h.tags row hrow _ ?_, h.tags row hrow _ ?_⟩ <;> simp [htags]

/-- A raw query for one node, filed by the separation key of the metric. -/
theorem keepsSeries_of_singleNode {q : FluxQuery} {answer : QueryTableResult}
    (hnodes : Go.containsChar nodes '|' = false) (hq : db.simpleQuery m j nodes d = some q)
    (h : AnswersQuery q m.separationKey answer) : KeepsSeries m.separationKey answer := by
  have hhost : ∀ row ∈ answer.rows, column row "hostname" = .string nodes := by
    intro row hrow
    have hfixed : ("hostname", nodes) ∈ q.fixedColumns := by
      rw [eq_of_buildQuery hq]
      simp [FluxQuery.fixedColumns, hnodes]
    rcases h.filters row hrow _ hfixed with hnil | hs
    · obtain ⟨⟨s, hs⟩, -⟩ := tags_of_simpleQuery hq h hrow
      rw [hnil] at hs
      cases hs
    · exact hs
  refine keepsSeries_of_key h (fun row hrow => (tags_of_simpleQuery hq h hrow).2) ?_
  intro row hrow row' hrow'
  rw [perTags_of_simpleQuery hq h row hrow row' hrow', hhost row hrow, hhost row' hrow']
  simp

/-- A raw query filed by host, when the separation key has one value a host. -/
theorem keepsSeries_of_hostname {q : FluxQuery} {answer : QueryTableResult}
    (hq : db.simpleQuery m j nodes d = some q) (h : AnswersQuery q m.separationKey answer)
    (hsame : ∀ row ∈ answer.rows, ∀ row' ∈ answer.rows,
      column row "hostname" = column row' "hostname" →
        column row m.separationKey = column row' m.separationKey) :
    KeepsSeries "hostname" answer := by
  refine keepsSeries_of_key h (fun row hrow => (tags_of_simpleQuery hq h hrow).1) ?_
  intro row hrow row' hrow'
  rw [perTags_of_simpleQuery hq h row hrow row' hrow']
  exact ⟨fun hboth => hboth.1, fun hhost => ⟨hhost, hsame row hrow row' hrow' hhost⟩⟩

/-- A separation key that a filter of the query fixes, or that is no tag. -/
theorem keepsSeries_of_fixed {q : FluxQuery} {answer : QueryTableResult}
    (hq : db.simpleQuery m j nodes d = some q) (h : AnswersQuery q m.separationKey answer)
    (htype : m.type = "node")
    (hkey : m.separationKey ∈ ["hostname", "_measurement", "type", "table"]) :
    KeepsSeries "hostname" answer := by
  refine keepsSeries_of_hostname hq h ?_
  intro row hrow row' hrow' hhost
  have hq' := eq_of_buildQuery hq
  have hfixed : ∀ p ∈ q.fixedColumns, p.1 = m.separationKey →
      ∀ row ∈ answer.rows, column row m.separationKey = .string p.2 := by
    intro p hp hpk row hrow
    obtain ⟨-, s, hs⟩ := tags_of_simpleQuery hq h hrow
    rcases h.filters row hrow p hp with hnil | hv
    · rw [hpk, hs] at hnil
      cases hnil
    · rwa [hpk] at hv
  simp only [List.mem_cons, List.not_mem_nil, or_false] at hkey
  rcases hkey with hkey | hkey | hkey | hkey
  · rw [hkey, hhost]
  · have hp : ("_measurement", m.measurement) ∈ q.fixedColumns := by
      rw [hq']
      exact List.mem_cons_self
    rw [hfixed _ hp hkey.symm row hrow, hfixed _ hp hkey.symm row' hrow']
  · have hp : ("type", m.type) ∈ q.fixedColumns := by
      rw [hq', htype]
      simp [FluxQuery.fixedColumns]
    rw [hfixed _ hp hkey.symm row hrow, hfixed _ hp hkey.symm row' hrow']
  · -- the table index is a number
    obtain ⟨i, hi⟩ := h.table row hrow
    obtain ⟨-, s, hs⟩ := tags_of_simpleQuery hq h hrow
    rw [hkey, hi] at hs
    cases hs

/-- A row of the `i`-th table, of a host and with a value of the separation key. -/
def taggedRow (separationKey host : String) (i : ℤ) (tag : String) : QueryResult :=
  let row : QueryResult := ⟨[("table", .int i), ("hostname", .string host)], by simp⟩
  row.upsert (separationKey, .string tag)

theorem column_taggedRow (separationKey host : String) (i : ℤ) (tag name : String) :
    column (taggedRow separationKey host i tag) name =
      if name = separationKey then .string tag
      else if name = "table" then .int i
      else if name = "hostname" then .string host else .nil := by
  rw [column, taggedRow, Map.lookup_upsert]
  by_cases hk : name = separationKey
  · rw [if_pos hk, if_pos hk]
    rfl
  · rw [if_neg hk, if_neg hk]
    by_cases htable : name = "table"
    · rw [if_pos htable, htable]
      rfl
    · rw [if_neg htable]
      by_cases hhost : name = "hostname"
      · rw [if_pos hhost, hhost]
        rfl
      · rw [if_neg hhost, Map.lookup, Table.get?]
        simp [Ne.symm htable, Ne.symm hhost]

/-- Two tables of one host. -/
def twoSeries (separationKey host : String) : QueryTableResult where
  records := [{ values := taggedRow separationKey host 0 "a", tableChanged := true },
    { values := taggedRow separationKey host 1 "b" }]

/-- The columns to which the filters of a raw query may leave one value. -/
theorem fixedColumns_of_simpleQuery {q : FluxQuery} {p : String × String}
    (hq : db.simpleQuery m j nodes d = some q) (hp : p ∈ q.fixedColumns) :
    p.1 = "_measurement" ∨ p.1 = "type" ∨
      Go.containsChar nodes '|' = false ∧ p = ("hostname", nodes) := by
  rw [eq_of_buildQuery hq, FluxQuery.fixedColumns, List.mem_cons, List.mem_append] at hp
  rcases hp with rfl | hp | hp
  · exact Or.inl rfl
  · refine Or.inr (Or.inl ?_)
    dsimp only at hp
    by_cases ht : m.type ≠ ""
    · rw [if_pos ht] at hp
      rw [List.mem_singleton.1 hp]
    · rw [if_neg ht] at hp
      exact absurd hp List.not_mem_nil
  · refine Or.inr (Or.inr ?_)
    dsimp only at hp
    by_cases hc : Go.containsChar nodes '|' = true
    · rw [if_pos hc] at hp
      exact absurd hp List.not_mem_nil
    · rw [if_neg hc] at hp
      exact ⟨by simpa using hc, List.mem_singleton.1 hp⟩

/-- Two tables of one host answer a raw query whose separation key is a tag that
its filters leave open. -/
theorem twoSeries_answersQuery {q : FluxQuery} {host : String}
    (hq : db.simpleQuery m j nodes d = some q)
    (hkey : m.separationKey ∉ ["hostname", "_measurement", "type", "table"])
    (hnodes : Go.containsChar nodes '|' = false → host = nodes) :
    AnswersQuery q m.separationKey (twoSeries m.separationKey host) := by
  simp only [List.mem_cons, List.not_mem_nil, or_false, not_or] at hkey
  obtain ⟨hhost, hmeasurement, htype, htable⟩ := hkey
  have hq' := eq_of_buildQuery hq
  have hrows : (twoSeries m.separationKey host).rows =
      [taggedRow m.separationKey host 0 "a", taggedRow m.separationKey host 1 "b"] := rfl
  have htags : q.tableTags m.separationKey = ["hostname", m.separationKey] := by
    rw [hq']
    rfl
  have hcol := column_taggedRow m.separationKey host
  constructor
  · refine ⟨?_, ?_⟩
    · rintro r ⟨⟩
      rfl
    · intro r hr
      simp only [twoSeries, List.mem_cons, List.not_mem_nil, or_false] at hr
      rcases hr with rfl | rfl <;> rfl
  · rfl
  · simp [QueryTableResult.SecondSchema, twoSeries]
  · intro row hrow
    rw [hrows] at hrow
    simp only [List.mem_cons, List.not_mem_nil, or_false] at hrow
    rcases hrow with rfl | rfl <;> simp [hcol, Ne.symm htable]
  · simp [hrows, tableIndex, hcol, Ne.symm htable]
  · intro row hrow tag htag
    rw [hrows] at hrow
    rw [htags] at htag
    simp only [List.mem_cons, List.not_mem_nil, or_false] at hrow htag
    rcases hrow with rfl | rfl <;> rcases htag with rfl | rfl <;>
      simp [hcol, Ne.symm hhost]
  · intro row hrow row' hrow'
    rw [hrows] at hrow hrow'
    rw [htags]
    simp only [List.mem_cons, List.not_mem_nil, or_false] at hrow hrow'
    rcases hrow with rfl | rfl <;> rcases hrow' with rfl | rfl <;>
      simp [tagValues, hcol, Ne.symm htable]
  · intro row hrow p hp
    rw [hrows] at hrow
    have hname : p.1 = "_measurement" ∨ p.1 = "type" ∨ p = ("hostname", host) := by
      refine (fixedColumns_of_simpleQuery hq hp).imp_right (Or.imp_right ?_)
      rintro ⟨hc, rfl⟩
      rw [hnodes hc]
    simp only [List.mem_cons, List.not_mem_nil, or_false] at hrow
    rcases hrow with rfl | rfl <;> rcases hname with hname | hname | rfl <;>
      simp_all [Ne.symm hmeasurement, Ne.symm htype, Ne.symm hhost]

theorem not_keepsSeries_twoSeries {separationKey host : String}
    (hkey : separationKey ≠ "hostname") (htable : separationKey ≠ "table") :
    ¬KeepsSeries "hostname" (twoSeries separationKey host) := by
  intro h
  have hcol := column_taggedRow separationKey host
  refine h.keys (taggedRow separationKey host 0 "a") ?_ (taggedRow separationKey host 1 "b") ?_
    ?_ ?_
  · exact List.mem_cons_self
  · exact List.mem_cons_of_mem _ List.mem_cons_self
  · simp [hcol, Ne.symm htable]
  · simp [hcol, Ne.symm hkey]

/-- **When no series overwrites another.** -/
theorem keepsEverySeries_iff (db : InfluxDB) (m : MetricConfig) (j : JobMetadata) (nodes : String)
    (d : Go.Duration) (forceAggregate : Bool) :
    db.KeepsEverySeries m j nodes d forceAggregate ↔
      m.type ≠ "node" ∨ (Go.count nodes '|' + 1 = 1 ∧ forceAggregate = false) ∨
        m.separationKey ∈ ["hostname", "_measurement", "type", "table"] ∨ db.Refuses m j := by
  unfold KeepsEverySeries queryFor
  by_cases hsingle : Go.count nodes '|' + 1 = 1 ∧ forceAggregate = false
  · have hnodes : Go.containsChar nodes '|' = false := by
      rw [Go.containsChar_eq_false_iff_count]
      omega
    rw [if_pos hsingle]
    exact ⟨fun _ => Or.inr (Or.inl hsingle),
      fun _ q answer hq h => keepsSeries_of_singleNode hnodes hq h⟩
  rw [if_neg hsingle]
  by_cases htype : m.type ≠ "node"
  · rw [if_pos htype]
    exact ⟨fun _ => Or.inl htype, fun _ q answer hq h => keepsSeries_of_aggregateQuery hq h⟩
  rw [if_neg htype]
  constructor
  · intro hall
    by_contra hno
    simp only [not_or] at hno
    obtain ⟨-, -, hkey, hbuilt⟩ := hno
    obtain ⟨q, hq, -⟩ := @exists_simpleQuery db m j d hbuilt nodes
    have hhost : Go.containsChar nodes '|' = false → (Go.split nodes '|').headD "" = nodes := by
      intro hc
      rw [Go.split_eq_singleton hc]
      rfl
    refine not_keepsSeries_twoSeries ?_ ?_ (hall q _ hq (twoSeries_answersQuery hq hkey hhost))
    · rintro heq
      simp [heq] at hkey
    · rintro heq
      simp [heq] at hkey
  · rintro (h | h | hkey | hrefuses) q answer hq h'
    · exact absurd h htype
    · exact absurd h hsingle
    · exact keepsSeries_of_fixed hq h' (not_not.1 htype) hkey
    · exact absurd hrefuses (not_refuses_of_simpleQuery hq)

/-- The aggregated data of a job with two nodes: the table of the second file
system of a node overwrites that of the first. -/
theorem gpfs_series_overwritten :
    ∃ q m, (sampleDB.queryFor gpfsBytesRead (twoNodeJob.inWindow 100 200) twoNodeJob.nodeList
        Go.second true) = (some q, "hostname") ∧
      AnswersQuery q gpfsBytesRead.separationKey (twoSeries "filesystem" "n1") ∧
      parseQueryResult (twoSeries "filesystem" "n1") "hostname" = .ok m ∧
      m.rows = [("n1", [taggedRow "filesystem" "n1" 1 "b"])] ∧
      ¬KeepsSeries "hostname" (twoSeries "filesystem" "n1") := by
  have hbuilt : ¬sampleDB.Refuses gpfsBytesRead (twoNodeJob.inWindow 100 200) := by
    rintro (h | h | h)
    · exact absurd h (by decide)
    · exact absurd h (by decide)
    · exact h ⟨by decide, by decide⟩
  obtain ⟨q, hq, -⟩ := @exists_simpleQuery _ _ _ Go.second hbuilt twoNodeJob.nodeList
  refine ⟨q, _, Prod.ext_iff.2 ⟨hq, rfl⟩, ?_, rfl, rfl,
    not_keepsSeries_twoSeries (by decide) (by decide)⟩
  exact twoSeries_answersQuery hq (by decide) (fun hc => absurd hc (by decide))

end InfluxDB

end JobMon
