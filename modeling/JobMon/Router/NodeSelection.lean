import JobMon.Lib.RegexText
import JobMon.Influx.Flux
import JobMon.Router.Injection

/-!
# The nodes of a request

`GetJob` takes nodes of the job, and the query builders put them into the text of a query:
as a string when it is one node, and as a regular expression when there are several.

* `hostTest` — what the literal for the nodes selects.
* `selects_hostPiece` — in both forms that is the nodes between the bars.
* `selects_single` — for one node the two forms are the same.
* `getJob_selects` — what the queries of a request with nodes select.
* `quantiles_of_all_nodes` — the quantiles are not those of the node asked for.
-/

namespace JobMon

open FluxLex InfluxDB

/-! ## What a literal selects -/

/-- The hosts a literal lets through, that is compared with the host as a string or as a
regular expression; `none` where its text is not read here. -/
def hostTest : Piece → Option (String → Bool)
  | .literal (.str _) content =>
    if Literal content then some fun host => decide (host = content) else none
  | .literal .regex content =>
    (Regex.parse content.toList).map fun r host => r.test host.toList
  | _ => none

/-- The literal is read as it is meant, and lets exactly these hosts through. -/
def SelectsExactly (p : Piece) (hosts : List String) : Prop :=
  p.Closed ∧ ∃ test, hostTest p = some test ∧ ∀ host, test host = true ↔ host ∈ hosts

/-- A character that stands for itself in a string and in a regular expression: letters,
digits, `-` and `_`, and most others. -/
def IsNameChar (c : Char) : Prop :=
  c ∉ Regex.specialChars ∧ c ≠ '"' ∧ c ≠ '/' ∧ c ≠ newline

/-- Names with bars between them. -/
def NodeText (s : String) : Prop := ∀ c ∈ s.toList, c = '|' ∨ IsNameChar c

/-- Letters, digits, `-` and `_` stand for themselves. -/
theorem nodeText_of_plainPattern {s : String} (h : PlainPattern s) : NodeText s := by
  intro c hc
  have hsound :
      (Regex.specialChars ++ ['"', '/', newline]).all (fun d => !d.isAlphanum) = true := by
    decide
  rcases h c hc with halpha | hminus | hunder | hbar
  · have hne : ∀ d ∈ Regex.specialChars ++ ['"', '/', newline], c ≠ d := by
      rintro d hd rfl
      have hnot := List.all_eq_true.1 hsound c hd
      simp [halpha] at hnot
    refine .inr ⟨fun hspecial => hne c (List.mem_append_left _ hspecial) rfl, ?_, ?_, ?_⟩
    · exact hne _ (by decide)
    · exact hne _ (by decide)
    · exact hne _ (by decide)
  · subst hminus
    exact .inr ⟨by decide, by decide, by decide, by decide⟩
  · subst hunder
    exact .inr ⟨by decide, by decide, by decide, by decide⟩
  · exact .inl hbar

theorem IsNameChar.ne_special {c d : Char} (h : IsNameChar c) (hd : d ∈ Regex.specialChars) :
    c ≠ d := fun heq => h.1 (heq ▸ hd)

/-- Characters that do nothing leave a literal where it is. -/
theorem isContent_of_quiet {k : Kind} {cs : List Char}
    (h : ∀ c ∈ cs, scan k .plain c = .more .plain) : IsContent k cs := by
  have hscan : scanAll k .plain cs = some .plain := by
    induction cs with
    | nil => rfl
    | cons c cs ih =>
      rw [scanAll_cons_of_more (h c List.mem_cons_self)]
      exact ih fun d hd => h d (List.mem_cons_of_mem _ hd)
  exact ⟨.plain, hscan, by decide⟩

/-- One node, as a string. -/
theorem selects_string {s : String} (h : NodeText s) (hbar : Go.containsChar s '|' = false) :
    SelectsExactly (.literal (.str true) s) [s] := by
  have hname : ∀ c ∈ s.toList, IsNameChar c := by
    intro c hc
    rcases h c hc with rfl | hname
    · exact absurd hc (Go.containsChar_eq_false_iff.1 hbar)
    · exact hname
  refine ⟨isContent_of_quiet fun c hc => ?_, fun host => decide (host = s), if_pos ?_, ?_⟩
  · have hslash : c ≠ backslash := (hname c hc).ne_special (by decide)
    have hdollar : c ≠ '$' := (hname c hc).ne_special (by decide)
    simp [scan, (hname c hc).2.1, hslash, hdollar]
  · intro c hc
    exact ⟨(hname c hc).2.1, (hname c hc).ne_special (by decide),
      (hname c hc).ne_special (by decide)⟩
  · intro host
    simp

theorem mem_split_iff {s part : String} {sep : Char} :
    part ∈ Go.split s sep ↔ part.toList ∈ s.toList.splitOn sep := by
  rw [Go.split, List.mem_map]
  constructor
  · rintro ⟨l, hl, rfl⟩
    rwa [String.toList_ofList]
  · intro h
    exact ⟨_, h, String.ofList_toList⟩

theorem toList_anchored (nodes : String) :
    ("^(" ++ nodes ++ ")$").toList = '^' :: '(' :: (nodes.toList ++ [')', '$']) := by
  have hopen : "^(".toList = ['^', '('] := by decide
  have hclose : ")$".toList = [')', '$'] := by decide
  rw [String.toList_append, String.toList_append, hopen, hclose]
  rfl

/-- Nodes, as an anchored regular expression. -/
theorem selects_regex {nodes : String} (h : NodeText nodes) :
    SelectsExactly (.literal .regex ("^(" ++ nodes ++ ")$")) (Go.split nodes '|') := by
  have hwords : ∀ c ∈ nodes.toList, c = '|' ∨ c ∉ Regex.specialChars :=
    fun c hc => (h c hc).imp_right fun hname => hname.1
  obtain ⟨r, hparse, htest⟩ := Regex.test_anchored_iff hwords
  refine ⟨isContent_of_quiet ?_, fun host => r.test host.toList, ?_, ?_⟩
  · have hquiet : ∀ c ∈ nodes.toList, scan .regex .plain c = .more .plain := by
      intro c hc
      rcases h c hc with rfl | hname
      · decide
      · have hslash : c ≠ backslash := hname.ne_special (by decide)
        simp [scan, hname.2.2.1, hname.2.2.2, hslash]
    intro c hc
    rw [toList_anchored, List.mem_cons, List.mem_cons, List.mem_append, List.mem_pair] at hc
    rcases hc with rfl | rfl | hc | rfl | rfl
    · decide
    · decide
    · exact hquiet c hc
    · decide
    · decide
  · rw [hostTest, toList_anchored, hparse]
    rfl
  · intro host
    rw [htest, mem_split_iff]

/-- **In both forms the nodes between the bars are selected.** -/
theorem selects_hostPiece {nodes : String} (h : NodeText nodes) :
    SelectsExactly (FluxQuery.hostPiece nodes) (Go.split nodes '|') := by
  unfold FluxQuery.hostPiece
  split
  · exact selects_regex h
  · rename_i hbar
    rw [Bool.not_eq_true] at hbar
    rw [Go.split_eq_singleton hbar]
    exact selects_string h hbar

/-- **For one node the two forms select the same.** -/
theorem selects_single {node : String} (h : NodeText node)
    (hbar : Go.containsChar node '|' = false) :
    ∃ equal regex, hostTest (.literal (.str true) node) = some equal ∧
      hostTest (.literal .regex ("^(" ++ node ++ ")$")) = some regex ∧
        ∀ host, equal host = regex host := by
  obtain ⟨-, equal, hequal, hstring⟩ := selects_string h hbar
  obtain ⟨-, regex, hregex, hwords⟩ := selects_regex h
  rw [Go.split_eq_singleton hbar] at hwords
  refine ⟨equal, regex, hequal, hregex, fun host => ?_⟩
  rw [Bool.eq_iff_iff, hstring, hwords]

/-! ## What the queries of a request select -/

/-- The quantiles of the values of all nodes. -/
def QueryKind.IsQuantile (k : QueryKind) : Prop := ∃ quantiles, k = .quantile quantiles

/-- The literal for the nodes stands in the text of the query. -/
theorem FluxQuery.nodesPiece_mem_pieces (q : FluxQuery) : q.nodesPiece ∈ q.pieces := by
  have hhost : ∀ nodes, hostPiece nodes ∈ hostnamePieces nodes := by
    intro nodes
    unfold hostPiece hostnamePieces
    split
    · exact List.mem_cons_of_mem _ List.mem_cons_self
    · exact List.mem_cons_of_mem _ List.mem_cons_self
  have hregex : ∀ nodes, Piece.literal .regex ("^(" ++ nodes ++ ")$") ∈ regexPieces nodes :=
    fun nodes => List.mem_cons_of_mem _ List.mem_cons_self
  unfold nodesPiece pieces
  cases q.kind with
  | simple metricType => simp [hhost]
  | aggregate => simp [hhost]
  | quantile quantiles => simp [hhost]
  | metadata => simp [hregex]

/-- Queries for values have the nodes that are asked for, queries for quantiles those of the
job. -/
theorem nodesPiece_of_mem_sent {db : InfluxDB} {j : JobMetadata} {nodes : String}
    {d : Go.Duration} {raw forceAggregate : Bool} {q : FluxQuery}
    (h : some q ∈ db.sent j nodes d raw forceAggregate) :
    q.kind.IsQuantile ∧ q.nodesPiece = FluxQuery.hostPiece j.nodeList ∨
      ¬ q.kind.IsQuantile ∧ q.nodesPiece = FluxQuery.hostPiece nodes := by
  obtain ⟨m, -, (hquery | hquery) | hquery⟩ := mem_sent_cases h
  · rw [eq_of_buildQuery hquery]
    exact .inr ⟨by simp [QueryKind.IsQuantile], rfl⟩
  · rw [eq_of_buildQuery hquery]
    exact .inr ⟨by simp [QueryKind.IsQuantile], rfl⟩
  · unfold quantileQuery at hquery
    split at hquery
    · rw [eq_of_buildQuery hquery]
      exact .inl ⟨⟨_, rfl⟩, rfl⟩
    · rw [eq_of_buildQuery hquery]
      exact .inl ⟨⟨_, rfl⟩, rfl⟩

/-- The nodes of a request that passes the check are made of the same characters. -/
theorem nodeText_of_nodesBelong {j : JobMetadata} {node : String} (h : nodesBelong j node = true)
    (hjob : NodeText j.nodeList) : NodeText node := by
  intro c hc
  by_cases hbar : c = '|'
  · exact .inl hbar
  · obtain ⟨part, hpart, hmem⟩ := (Go.mem_toList_iff hbar).1 hc
    have hbelongs := of_decide_eq_true (List.all_eq_true.1 h part hpart)
    exact hjob c ((Go.mem_toList_iff hbar).2 ⟨part, hbelongs, hmem⟩)

/-- **What a request with nodes selects.**  A request for nodes of a stopped job that is not
rejected is for nodes of the job only, the queries for values select exactly these nodes, and
the queries for quantiles all nodes of the job.  For a single node equality and the regular
expression select the same. -/
theorem getJob_selects (now : ℤ) (b : Backend) (user : UserInfo) (req : GetJobRequest)
    (call : JobDataCall) (hcall : getJobCall now b user req = .ok call) (hnode : req.node ≠ "")
    (hstopped : call.job.isRunning = false) (hnames : NodeText call.job.nodeList) :
    (∀ node ∈ Go.split req.node '|', node ∈ Go.split call.job.nodeList '|') ∧
    (∀ q, some q ∈ call.queries b.db → q.nodesPiece ∈ q.pieces ∧
      (¬ q.kind.IsQuantile → SelectsExactly q.nodesPiece (Go.split req.node '|')) ∧
      (q.kind.IsQuantile → SelectsExactly q.nodesPiece (Go.split call.job.nodeList '|'))) ∧
    ∀ node, NodeText node → Go.containsChar node '|' = false →
      ∃ equal regex, hostTest (.literal (.str true) node) = some equal ∧
        hostTest (.literal .regex ("^(" ++ node ++ ")$")) = some regex ∧
          ∀ host, equal host = regex host := by
  obtain ⟨id, -, -, -, hbelong, -⟩ := getJobCall_eq_ok hcall
  have hbelongs := hbelong.resolve_left hnode
  refine ⟨fun node hmem => ?_, fun q hq => ⟨q.nodesPiece_mem_pieces, ?_⟩,
    fun node hname hbar => selects_single hname hbar⟩
  · exact of_decide_eq_true (List.all_eq_true.1 hbelongs node hmem)
  · have hnodes : req.nodesOf call.job = req.node := by
      rw [GetJobRequest.nodesOf, if_neg (by simp [hstopped, hnode])]
    rw [queries_of_getJobCall hcall, hnodes] at hq
    rcases nodesPiece_of_mem_sent hq with ⟨hquantile, hpiece⟩ | ⟨hvalue, hpiece⟩
    · refine ⟨fun hnot => absurd hquantile hnot, fun _ => ?_⟩
      rw [hpiece, nodeList_lastHour]
      exact selects_hostPiece hnames
    · refine ⟨fun _ => ?_, fun hquantile => absurd hquantile hvalue⟩
      rw [hpiece]
      exact selects_hostPiece (nodeText_of_nodesBelong hbelongs hnames)

/-! ## A job on two nodes -/

/-- A job that ran on two nodes. -/
def pairJob : JobMetadata :=
  { id := 3, userName := "u", nodeList := "n1|n2", numNodes := 2, startTime := 600
    stopTime := 1200, partition := "p" }

/-- The first and the last quantile of one metric. -/
def quartilesConfig : Configuration :=
  { oneMetricConfig with metricQuantiles := ["0.25", "0.75"] }

/-- A backend with this job. -/
def pairBackend : Backend :=
  .start quartilesConfig { jobMetadata := ⟨[pairJob], by decide⟩ }

/-- A user asks for one of its nodes. -/
def oneNode : GetJobRequest := { id := "3", node := "n1" }

theorem nodeText_pairJob : NodeText pairJob.nodeList := nodeText_of_plainPattern (by decide)

/-- What is selected for it. -/
theorem getJob_selects_oneNode :
    ∃ call, getJobCall 2000 pairBackend { username := "u" } oneNode = .ok call ∧
      (∀ node ∈ Go.split oneNode.node '|', node ∈ Go.split call.job.nodeList '|') ∧
      ∀ q, some q ∈ call.queries pairBackend.db → q.nodesPiece ∈ q.pieces ∧
        (¬ q.kind.IsQuantile → SelectsExactly q.nodesPiece (Go.split oneNode.node '|')) ∧
        (q.kind.IsQuantile → SelectsExactly q.nodesPiece (Go.split call.job.nodeList '|')) := by
  have hselects := getJob_selects 2000 pairBackend { username := "u" } oneNode _ rfl (by decide)
    rfl nodeText_pairJob
  exact ⟨_, rfl, hselects.1, hselects.2.1⟩

/-- **The quantiles are not those of the node that is asked for**: one of the queries for
the node `n1` lets the node `n2` through. -/
theorem quantiles_of_all_nodes :
    ∃ call q test, getJobCall 2000 pairBackend { username := "u" } oneNode = .ok call ∧
      call.job.isRunning = false ∧ NodeText call.job.nodeList ∧
      some q ∈ call.queries pairBackend.db ∧ hostTest q.nodesPiece = some test ∧
        test "n2" = true ∧ "n2" ∉ Go.split oneNode.node '|' := by
  obtain ⟨-, test, htest, hhosts⟩ := selects_hostPiece nodeText_pairJob
  exact ⟨_, _, test, rfl, rfl, nodeText_pairJob, List.mem_cons_of_mem _ List.mem_cons_self, htest,
    (hhosts "n2").2 (by decide), by decide⟩

end JobMon
