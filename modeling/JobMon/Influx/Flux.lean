import Mathlib
import JobMon.Lib.Delimited
import JobMon.Influx.Issued

/-!
# What a query reads

The time-series database holds samples, and the answer to a query depends on the
samples it reads: those of the nodes it asks for, in the time range it asks for.
That is a property of Flux, and of the queries whose parts are what they are taken
for; a text that closes a string literal or a pattern can make a query read
anything.

* `Plain` — the parts of a query are what they are taken for.
* `Local` — the answers of a server to such queries depend on the samples they
  read only.
* `reads_congr` — the text of a plain query says what it reads.
-/

namespace JobMon

open Delimited

/-- A sample: the node it was measured on, the time in nanoseconds since the epoch,
and its other columns. -/
structure Sample where
  hostname : String
  time : Time
  columns : QueryResult

/-- A server, given the samples it holds. -/
abbrev Server := Set Sample → FluxAPI

/-! ## Plain queries -/

/-- A text that stands for itself between double quotes: no quote, no backslash, and
no dollar sign, which starts an interpolation. -/
def Literal (s : String) : Prop :=
  ∀ c ∈ s.toList, c ≠ '"' ∧ c ≠ Char.ofNat 92 ∧ c ≠ '$'

instance (s : String) : Decidable (Literal s) :=
  decidable_of_iff (s.toList.all fun c => decide (c ≠ '"' ∧ c ≠ Char.ofNat 92 ∧ c ≠ '$')) (by
    simp only [Literal, List.all_eq_true, decide_eq_true_eq])

/-- A node list that stands for itself in a regular expression. -/
def PlainPattern (s : String) : Prop :=
  ∀ c ∈ s.toList, c.isAlphanum = true ∨ c = '-' ∨ c = '_' ∨ c = '|'

instance (s : String) : Decidable (PlainPattern s) :=
  decidable_of_iff
    (s.toList.all fun c => decide (c.isAlphanum = true ∨ c = '-' ∨ c = '_' ∨ c = '|')) (by
    simp only [PlainPattern, List.all_eq_true, decide_eq_true_eq])

/-- The text of a number. -/
def PlainNumber (s : String) : Prop := ∀ c ∈ s.toList, c.isDigit = true ∨ c = '.'

/-- What a kind of query brings with it is what it is taken for; the `metadata`
query is none that a reader's request leads to. -/
def QueryKind.Plain : QueryKind → Prop
  | .simple metricType => Literal metricType
  | .aggregate => True
  | .quantile quantiles => ∀ x ∈ quantiles, PlainNumber x
  | .metadata => False

/-- The parts of a query are what they are taken for.  `Pipeline` are the Flux
texts that do nothing but transform the stream they are given. -/
structure FluxQuery.Plain (Pipeline : String → Prop) (q : FluxQuery) : Prop where
  kind : q.kind.Plain
  bucket : Literal q.bucket
  measurement : Literal q.measurement
  nodes : Literal q.nodes ∧ (Go.containsChar q.nodes '|' = true → PlainPattern q.nodes)
  filterFunc : Pipeline q.filterFunc
  postQueryOp : Pipeline q.postQueryOp

/-- The samples of the given nodes from `start` to `stop`, in seconds, the end
excluded. -/
def Sample.In (x : Sample) (nodes : String) (start stop : ℤ) : Prop :=
  x.hostname ∈ Go.split nodes '|' ∧ start * Go.second ≤ x.time ∧ x.time < stop * Go.second

/-- The samples a plain query reads. -/
def FluxQuery.reads (q : FluxQuery) (x : Sample) : Prop := x.In q.nodes q.startTime q.stopTime

/-- **What Flux promises**: a plain query is answered from the samples it reads, and
an empty text is refused without looking at any. -/
structure Server.Local (Pipeline : String → Prop) (server : Server) : Prop where
  query : ∀ (q : FluxQuery) S S', q.Plain Pipeline → (∀ x, q.reads x → (x ∈ S ↔ x ∈ S')) →
    (server S).query q.text = (server S').query q.text
  queryRaw : ∀ (q : FluxQuery) S S', q.Plain Pipeline → (∀ x, q.reads x → (x ∈ S ↔ x ∈ S')) →
    (server S).queryRaw q.text = (server S').queryRaw q.text
  refused : ∀ S S', (server S).query "" = (server S').query "" ∧
    (server S).queryRaw "" = (server S').queryRaw ""

/-! ## Reading the text of a query -/

theorem not_mem_quote {s : String} (h : Literal s) : '"' ∉ s.toList := fun hmem =>
  (h _ hmem).1 rfl

/-- The start of the range, past the name of the bucket. -/
def readStart (l : List Char) : List Char := upTo ',' (past ':' (past '"' (past '"' l)))

/-- The end of the range. -/
def readStop (l : List Char) : List Char :=
  upTo ')' (past ':' (past ',' (past '"' (past '"' l))))

/-- What stands after the measurement. -/
def afterMeasurement (l : List Char) : List Char :=
  past '"' (past '"' (past '"' (past '"' (past ',' (past '"' (past '"' l))))))

/-- What stands after the filter on the type, if there is one. -/
def afterType (l : List Char) : List Char :=
  if upTo '"' (past '"' l) = "type".toList then past '"' (past '"' (past '"' (past '"' l)))
  else l

/-- The nodes, in either form of the filter. -/
def readNodes (l : List Char) : List Char :=
  if (past ']' l).take 3 = " =~".toList then upTo ')' (past '(' (past ']' l))
  else upTo '"' (past '"' (past ']' l))

-- the right sides are nested to the right, in the order the readers go through them
theorem columnFilter_eq (column value : String) :
    FluxQuery.columnFilter column value =
      "|> filter(fn: (r) => r[" ++ ("\"" ++ (column ++ ("\"" ++ ("] == " ++
        ("\"" ++ (value ++ ("\"" ++ ")"))))))) := by
  rw [show FluxQuery.columnFilter column value = "|> filter(fn: (r) => r[" ++
    ("\"" ++ column ++ "\"") ++ "] == " ++ ("\"" ++ value ++ "\"") ++ ")" from rfl]
  simp only [String.append_assoc]

theorem source_eq (q : FluxQuery) :
    q.source = "from(bucket: " ++ ("\"" ++ (q.bucket ++ ("\"" ++ (")|> range(start: " ++
      (toString q.startTime ++ (", stop: " ++ (toString q.stopTime ++ (")" ++
        FluxQuery.columnFilter "_measurement" q.measurement)))))))) := by
  rw [show q.source = "from(bucket: " ++ ("\"" ++ q.bucket ++ "\"") ++ ")|> range(start: " ++
    toString q.startTime ++ ", stop: " ++ toString q.stopTime ++ ")" ++
    FluxQuery.columnFilter "_measurement" q.measurement from rfl]
  simp only [String.append_assoc]

theorem hostnameRegex_eq (nodes : String) :
    FluxQuery.hostnameRegex nodes =
      "|> filter(fn: (r) => r[\"hostname\"] =~ /^(" ++ (nodes ++ ")$/)") := by
  rw [show FluxQuery.hostnameRegex nodes =
    "|> filter(fn: (r) => r[\"hostname\"] =~ /^(" ++ nodes ++ ")$/)" from rfl]
  simp only [String.append_assoc]

theorem read_source {q : FluxQuery} (hbucket : '"' ∉ q.bucket.toList)
    (hmeasurement : '"' ∉ q.measurement.toList) {lead : List Char} (hlead : '"' ∉ lead)
    (rest : List Char) :
    readStart (lead ++ (q.source.toList ++ rest)) = [' '] ++ (toString q.startTime).toList ∧
      readStop (lead ++ (q.source.toList ++ rest)) = [' '] ++ (toString q.stopTime).toList ∧
      afterMeasurement (lead ++ (q.source.toList ++ rest)) = ")".toList ++ rest := by
  have hcomma : ',' ∉ (toString q.startTime).toList := Go.not_mem_int (by decide) (by decide) _
  have hparen : ')' ∉ (toString q.stopTime).toList := Go.not_mem_int (by decide) (by decide) _
  have hquote : '"' ∉ (toString q.stopTime).toList := Go.not_mem_int (by decide) (by decide) _
  rw [source_eq, columnFilter_eq]
  simp only [String.toList_append, List.append_assoc, readStart, readStop, afterMeasurement]
  refine ⟨?_, ?_, ?_⟩
  · simp (disch := first | assumption | decide) only [past_append_of_mem, past_append_of_not_mem,
      upTo_append_of_mem, upTo_append_of_not_mem]
    rw [show upTo ',' ", stop: ".toList = [] by decide,
      show past ':' ")|> range(start: ".toList = [' '] by decide, List.append_nil]
  · simp (disch := first | assumption | decide) only [past_append_of_mem, past_append_of_not_mem,
      upTo_append_of_mem, upTo_append_of_not_mem]
    rw [show past ':' (past ',' ", stop: ".toList) = [' '] by decide,
      show upTo ')' ")".toList = [] by decide, List.append_nil]
  · simp (disch := first | assumption | decide) only [past_append_of_mem, past_append_of_not_mem]
    rw [show past '"' "\"".toList = [] by decide, List.nil_append]

theorem afterType_filter {t : String} (ht : '"' ∉ t.toList) (rest : List Char) :
    afterType (")".toList ++ ((FluxQuery.columnFilter "type" t).toList ++ rest)) =
      ")".toList ++ rest := by
  rw [columnFilter_eq]
  simp only [String.toList_append, List.append_assoc, afterType]
  rw [if_pos]
  · simp (disch := first | assumption | decide) only [past_append_of_mem, past_append_of_not_mem]
    rw [show past '"' "\"".toList = [] by decide, List.nil_append]
  · simp (disch := first | assumption | decide) only [past_append_of_mem, past_append_of_not_mem,
      upTo_append_of_mem, upTo_append_of_not_mem]
    decide

theorem afterType_hosts (nodes : String) (rest : List Char) :
    afterType (")".toList ++ ((FluxQuery.hostnameFilter nodes).toList ++ rest)) =
      ")".toList ++ ((FluxQuery.hostnameFilter nodes).toList ++ rest) := by
  rw [afterType, if_neg]
  unfold FluxQuery.hostnameFilter
  split
  · rw [hostnameRegex_eq]
    simp only [String.toList_append, List.append_assoc]
    simp (disch := first | assumption | decide) only [past_append_of_mem, past_append_of_not_mem,
      upTo_append_of_mem]
    decide
  · rw [columnFilter_eq]
    simp only [String.toList_append, List.append_assoc]
    simp (disch := first | assumption | decide) only [past_append_of_mem, past_append_of_not_mem,
      upTo_append_of_mem, upTo_append_of_not_mem]
    decide

theorem readNodes_hosts {nodes : String} (hliteral : Literal nodes)
    (hpattern : Go.containsChar nodes '|' = true → PlainPattern nodes) (rest : List Char) :
    readNodes (")".toList ++ ((FluxQuery.hostnameFilter nodes).toList ++ rest)) =
      nodes.toList := by
  unfold FluxQuery.hostnameFilter
  split
  · rename_i hlist
    have hparen : ')' ∉ nodes.toList := by
      intro hmem
      have hall := hpattern hlist _ hmem
      revert hall
      decide
    rw [hostnameRegex_eq, readNodes]
    simp only [String.toList_append, List.append_assoc]
    rw [if_pos]
    · simp (disch := first | assumption | decide) only [past_append_of_mem,
        past_append_of_not_mem, upTo_append_of_mem, upTo_append_of_not_mem]
      rw [show past '(' (past ']' "|> filter(fn: (r) => r[\"hostname\"] =~ /^(".toList) = [] by
        decide, show upTo ')' ")$/)".toList = [] by decide, List.append_nil, List.nil_append]
    · simp (disch := first | assumption | decide) only [past_append_of_mem,
        past_append_of_not_mem]
      rw [List.take_append_of_le_length (by decide)]
      decide
  · have hquote : '"' ∉ nodes.toList := not_mem_quote hliteral
    rw [columnFilter_eq, readNodes]
    simp only [String.toList_append, List.append_assoc]
    rw [if_neg]
    · simp (disch := first | assumption | decide) only [past_append_of_mem,
        past_append_of_not_mem, upTo_append_of_mem, upTo_append_of_not_mem]
      rw [show past '"' "\"".toList = [] by decide, show upTo '"' "\"".toList = [] by decide,
        List.append_nil, List.nil_append]
    · simp (disch := first | assumption | decide) only [past_append_of_mem,
        past_append_of_not_mem]
      rw [List.take_append_of_le_length (by decide)]
      decide

/-- The beginning of the text of a query, which says all that it reads. -/
theorem text_parts {q : FluxQuery} (h : q.kind.Plain) :
    ∃ lead typeFilter more : String, '"' ∉ lead.toList ∧
      (typeFilter = "" ∨ ∃ t, Literal t ∧ typeFilter = FluxQuery.columnFilter "type" t) ∧
      q.text =
        lead ++ (q.source ++ (typeFilter ++ (FluxQuery.hostnameFilter q.nodes ++ more))) := by
  unfold FluxQuery.text
  cases hkind : q.kind with
  | simple t =>
    rw [hkind] at h
    refine ⟨"", if t ≠ "" then FluxQuery.columnFilter "type" t else "",
      q.filterFunc ++ (q.postQueryOp ++ q.sampled), by decide, ?_, ?_⟩
    · by_cases hempty : t ≠ ""
      · exact Or.inr ⟨t, h, if_pos hempty⟩
      · exact Or.inl (if_neg hempty)
    · simp only [String.append_assoc, String.empty_append]
  | aggregate =>
    refine ⟨"", "", q.filterFunc ++ (q.postQueryOp ++ q.sampled), by decide, Or.inl rfl, ?_⟩
    simp only [String.append_assoc, String.empty_append]
  | quantile quantiles =>
    refine ⟨"data = ", "", q.filterFunc ++ (q.postQueryOp ++ ("|> group()\n" ++
      (String.join (quantiles.mapIdx q.quantileStream) ++ ("union(tables: [" ++
        (",".intercalate (quantiles.mapIdx fun i _ => FluxQuery.streamName i) ++
          "])|> group(columns: [\"_field\"])"))))), by decide, Or.inl rfl, ?_⟩
    simp only [String.append_assoc, String.empty_append]
  | metadata =>
    rw [hkind] at h
    exact h.elim

/-- The readers find in the text of a plain query what went into it. -/
theorem read_text {Pipeline : String → Prop} {q : FluxQuery} (h : q.Plain Pipeline) :
    readStart q.text.toList = [' '] ++ (toString q.startTime).toList ∧
      readStop q.text.toList = [' '] ++ (toString q.stopTime).toList ∧
      readNodes (afterType (afterMeasurement q.text.toList)) = q.nodes.toList := by
  obtain ⟨lead, typeFilter, more, hlead, htype, htext⟩ := text_parts h.kind
  have hparts : q.text.toList = lead.toList ++ (q.source.toList ++ (typeFilter.toList ++
      ((FluxQuery.hostnameFilter q.nodes).toList ++ more.toList))) := by
    rw [htext]
    simp only [String.toList_append]
  obtain ⟨hstart, hstop, hafter⟩ := read_source (not_mem_quote h.bucket)
    (not_mem_quote h.measurement) hlead (typeFilter.toList ++
      ((FluxQuery.hostnameFilter q.nodes).toList ++ more.toList))
  rw [hparts]
  refine ⟨hstart, hstop, ?_⟩
  rw [hafter]
  rcases htype with rfl | ⟨t, ht, rfl⟩
  · rw [String.toList_empty, List.nil_append, afterType_hosts, readNodes_hosts h.nodes.1 h.nodes.2]
  · rw [afterType_filter (not_mem_quote ht), readNodes_hosts h.nodes.1 h.nodes.2]

/-- **The text of a plain query says what it reads.** -/
theorem reads_congr {Pipeline : String → Prop} {q q' : FluxQuery} (h : q.Plain Pipeline)
    (h' : q'.Plain Pipeline) (htext : q.text = q'.text) (x : Sample) : q.reads x ↔ q'.reads x := by
  obtain ⟨hstart, hstop, hnodes⟩ := read_text h
  obtain ⟨hstart', hstop', hnodes'⟩ := read_text h'
  rw [htext] at hstart hstop hnodes
  have hsameStart : q.startTime = q'.startTime :=
    Int.repr_injective (String.toList_inj.1 (List.append_cancel_left (hstart.symm.trans hstart')))
  have hsameStop : q.stopTime = q'.stopTime :=
    Int.repr_injective (String.toList_inj.1 (List.append_cancel_left (hstop.symm.trans hstop')))
  have hsameNodes : q.nodes = q'.nodes := String.toList_inj.1 (hnodes.symm.trans hnodes')
  rw [FluxQuery.reads, FluxQuery.reads, hsameStart, hsameStop, hsameNodes]

/-! ## Queries that give nothing away -/

/-- The text that is sent is refused, or it is that of a plain query that reads
samples of the given kind only. -/
def Harmless (Pipeline : String → Prop) (own : Sample → Prop) (q : Option FluxQuery) : Prop :=
  queryText q = "" ∨
    ∃ q' : FluxQuery, q'.Plain Pipeline ∧ q'.text = queryText q ∧ ∀ x, q'.reads x → own x

/-- A plain query is harmless when it reads samples of this kind only. -/
theorem harmless_iff_of_plain {Pipeline : String → Prop} {own : Sample → Prop} {q : FluxQuery}
    (h : q.Plain Pipeline) (hne : q.text ≠ "") :
    Harmless Pipeline own (some q) ↔ ∀ x, q.reads x → own x := by
  constructor
  · rintro (hempty | ⟨q', hq', htext, hown⟩) x hx
    · exact absurd hempty hne
    · exact hown x ((reads_congr hq' h htext x).2 hx)
  · intro hown
    exact Or.inr ⟨q, h, rfl, hown⟩

/-- **Harmless queries are answered alike** by a server with other samples, as long as
those of the given kind are the same. -/
theorem agreeOn_of_harmless {Pipeline : String → Prop} {server : Server}
    (hlocal : server.Local Pipeline) {own : Sample → Prop} {S S' : Set Sample}
    (hS : ∀ x, own x → (x ∈ S ↔ x ∈ S')) {queries : List (Option FluxQuery)}
    (h : ∀ q ∈ queries, Harmless Pipeline own q) : (server S).AgreeOn (server S') queries := by
  intro q hq
  rcases h q hq with hempty | ⟨q', hplain, htext, hown⟩
  · rw [hempty]
    exact hlocal.refused S S'
  · rw [← htext]
    have hreads : ∀ x, q'.reads x → (x ∈ S ↔ x ∈ S') := fun x hx => hS x (hown x hx)
    exact ⟨hlocal.query q' S S' hplain hreads, hlocal.queryRaw q' S S' hplain hreads⟩

open Classical in
/-- A server on which a query of the given text ends the process when a certain
sample is there. -/
noncomputable def spy (text : String) (x : Sample) : Server := fun S =>
  { query := fun t => if t = text ∧ x ∈ S then .error .panic else .ok {}
    queryRaw := fun t => if t = text ∧ x ∈ S then .error .panic else .ok "" }

theorem spy_empty (text : String) (x : Sample) : (spy text x ∅).Quiet := by
  constructor
  · intro t
    simp only [spy, Set.mem_empty_iff_false, and_false, if_false]
  · intro t
    simp only [spy, Set.mem_empty_iff_false, and_false, if_false]

theorem spy_singleton {queries : List (Option FluxQuery)} {q : Option FluxQuery}
    (hq : q ∈ queries) (x : Sample) : (spy (queryText q) x {x}).PanicsOn queries := by
  refine ⟨q, hq, ?_⟩
  simp only [spy, Set.mem_singleton_iff, and_self, if_true]

theorem spy_congr {text t : String} {x : Sample} {S S' : Set Sample}
    (h : t = text → (x ∈ S ↔ x ∈ S')) :
    (spy text x S).query t = (spy text x S').query t ∧
      (spy text x S).queryRaw t = (spy text x S').queryRaw t := by
  have hsame : (t = text ∧ x ∈ S) = (t = text ∧ x ∈ S') := propext (and_congr_right h)
  simp only [spy]
  by_cases hseen : t = text ∧ x ∈ S
  · rw [if_pos hseen, if_pos hseen, if_pos (hsame ▸ hseen), if_pos (hsame ▸ hseen)]
    exact ⟨rfl, rfl⟩
  · rw [if_neg hseen, if_neg hseen, if_neg (hsame ▸ hseen), if_neg (hsame ▸ hseen)]
    exact ⟨rfl, rfl⟩

theorem spy_local {Pipeline : String → Prop} {text : String} {x : Sample} (hne : text ≠ "")
    (hx : ∀ q : FluxQuery, q.Plain Pipeline → q.text = text → q.reads x) :
    (spy text x).Local Pipeline := by
  refine ⟨?_, ?_, ?_⟩
  · intro q S S' hplain hS
    exact (spy_congr fun htext => hS x (hx q hplain htext)).1
  · intro q S S' hplain hS
    exact (spy_congr fun htext => hS x (hx q hplain htext)).2
  · intro S S'
    exact spy_congr fun htext => absurd htext.symm hne

/-- A query that is not harmless reads a sample of another kind, whichever plain query
its text is taken for. -/
theorem exists_of_not_harmless {Pipeline : String → Prop} {own : Sample → Prop}
    {q : Option FluxQuery} (h : ¬ Harmless Pipeline own q) (hother : ∃ x, ¬ own x) :
    queryText q ≠ "" ∧ ∃ x, ¬ own x ∧
      ∀ q' : FluxQuery, q'.Plain Pipeline → q'.text = queryText q → q'.reads x := by
  rw [Harmless, not_or] at h
  obtain ⟨hne, hnone⟩ := h
  refine ⟨hne, ?_⟩
  by_cases hplain : ∃ q' : FluxQuery, q'.Plain Pipeline ∧ q'.text = queryText q
  · obtain ⟨q', hq', htext⟩ := hplain
    have hread : ∃ x, q'.reads x ∧ ¬ own x := by
      by_contra hall
      refine hnone ⟨q', hq', htext, fun x hx => ?_⟩
      by_contra hown
      exact hall ⟨x, hx, hown⟩
    obtain ⟨x, hx, hown⟩ := hread
    refine ⟨x, hown, fun q'' hq'' htext'' => ?_⟩
    exact (reads_congr hq' hq'' (htext.trans htext''.symm) x).1 hx
  · obtain ⟨x, hown⟩ := hother
    exact ⟨x, hown, fun q' hq' htext => absurd ⟨q', hq', htext⟩ hplain⟩

end JobMon
