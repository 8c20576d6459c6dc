import JobMon.Lib.FluxLex
import JobMon.Influx.Query

/-!
# The pieces of a query

The text of a query is fixed text with a measurement, nodes and intervals put in.

* `isDuration_durationText_iff` — when a printed interval is a duration literal.
* `FluxQuery.pieces`, `chars_pieces` — the text in pieces.
* `FluxQuery.Contained` — the text is read as these pieces are meant.
* `FluxQuery.contained_iff` — that is so exactly when what is put in is closed.
* `SameForm.sameTokens` — queries that differ in what is put in only have the same tokens,
  what is put in apart.
-/

namespace JobMon

open FluxLex

/-! ## Intervals as duration literals -/

/-- The interval is not negative, and whole in the unit it is printed with: Flux has no
fractions in durations. -/
def WholeInterval (d : Go.Duration) : Prop :=
  0 ≤ d ∧ (d < 1000 ∨ d < 1000000 ∧ d % 1000 = 0 ∨ d < 1000000000 ∧ d % 1000000 = 0 ∨
    d % 1000000000 = 0)

instance (d : Go.Duration) : Decidable (WholeInterval d) := by
  unfold WholeInterval
  infer_instance

theorem wholeInterval_natCast_iff (u : ℕ) :
    WholeInterval (u : ℤ) ↔ u < 1000 ∨ u < 1000000 ∧ u % 1000 = 0 ∨
      u < 1000000000 ∧ u % 1000000 = 0 ∨ u % 1000000000 = 0 := by
  show (0 ≤ (u : ℤ) ∧ ((u : ℤ) < 1000 ∨ (u : ℤ) < 1000000 ∧ (u : ℤ) % 1000 = 0 ∨
    (u : ℤ) < 1000000000 ∧ (u : ℤ) % 1000000 = 0 ∨ (u : ℤ) % 1000000000 = 0)) ↔ _
  omega

theorem charIsDigit_of_isDigit {c : Char} (h : Go.isDigit c = true) : c.isDigit = true := by
  simp only [Char.isDigit, Go.isDigit, Bool.and_eq_true, decide_eq_true_eq] at h ⊢
  exact h

theorem digits_repr (n : ℕ) : ∀ c ∈ (Nat.repr n).toList, c.isDigit = true := fun _ hc =>
  charIsDigit_of_isDigit (Go.isDigit_of_mem_repr hc)

/-- A number with a unit, in front of more of them. -/
theorem durationFrom_minutes {s : DurationState}
    (hs : s = .start ∨ ∃ u ∈ durationUnits, s = .unit u) (n : ℕ) {unit : Char}
    (hunit : unit.isDigit = false) (rest : List Char) :
    durationFrom s ((Nat.repr n).toList ++ unit :: rest) = durationFrom (.unit [unit]) rest := by
  have hstep : DurationState.step .digits unit = some (.unit [unit]) := by
    rw [DurationState.step, hunit, if_neg Bool.false_ne_true]
  rw [durationFrom_number hs (Go.toList_repr_ne_nil n) (digits_repr n), durationFrom_of_some hstep]

/-- A number, perhaps with a fraction, and its unit at the end. -/
theorem durationFrom_last_iff {s : DurationState}
    (hs : s = .start ∨ ∃ u ∈ durationUnits, s = .unit u) (n v prec : ℕ) {unit : List Char}
    (hunit : durationFrom .digits unit = true) :
    durationFrom s ((Nat.repr n ++ Go.fracText v prec).toList ++ unit) = true ↔ v = 0 := by
  rw [String.toList_append, List.append_assoc,
    durationFrom_number hs (Go.toList_repr_ne_nil n) (digits_repr n)]
  rcases Go.fracText_cases v prec with ⟨hv, htext⟩ | ⟨hv, ds, hne, hds, htext⟩
  · rw [htext]
    exact iff_of_true hunit hv
  · refine iff_of_false ?_ hv
    have hpoint : ".".toList = ['.'] := by decide
    rw [htext, String.toList_append, hpoint, String.toList_ofList, List.singleton_append,
      List.cons_append,
      durationFrom_fraction hne fun c hc => charIsDigit_of_isDigit (hds c hc)]
    exact Bool.false_ne_true

/-- The text of hours, minutes and seconds. -/
theorem isDuration_of_seconds {u : ℕ} (h : 1000000000 ≤ u) :
    isDuration (Go.durationTextPos u).toList = true ↔ u % 1000000000 = 0 := by
  have hsecond : durationFrom .digits "s".toList = true := by decide
  have hminute : "m".toList = ['m'] := by decide
  have hhour : "h".toList = ['h'] := by decide
  have hafterMinutes : DurationState.unit ['m'] = .start ∨
      ∃ w ∈ durationUnits, DurationState.unit ['m'] = .unit w := .inr ⟨_, by decide, rfl⟩
  have hafterHours : DurationState.unit ['h'] = .start ∨
      ∃ w ∈ durationUnits, DurationState.unit ['h'] = .unit w := .inr ⟨_, by decide, rfl⟩
  set s := u / 1000000000 with hs
  have htext : Go.durationTextPos u =
      (if s < 3600 then "" else Nat.repr (s / 3600) ++ "h") ++
        (if s < 60 then "" else Nat.repr (s / 60 % 60) ++ "m") ++
          (Nat.repr (s % 60) ++ Go.fracText (u % 1000000000) 9 ++ "s") := by
    rw [Go.durationTextPos, if_neg (by omega), if_neg (by omega), if_neg (by omega)]
    rfl
  rw [htext, isDuration]
  by_cases hshort : s < 60
  · rw [if_pos (by omega), if_pos hshort, String.empty_append, String.empty_append,
      String.toList_append]
    exact durationFrom_last_iff (.inl rfl) _ _ _ hsecond
  · by_cases hmedium : s < 3600
    · rw [if_pos hmedium, if_neg hshort, String.empty_append, String.toList_append,
        String.toList_append, hminute, List.append_assoc, List.singleton_append,
        durationFrom_minutes (.inl rfl) _ (by decide), String.toList_append]
      exact durationFrom_last_iff hafterMinutes _ _ _ hsecond
    · rw [if_neg hmedium, if_neg hshort, String.toList_append, String.toList_append,
        String.toList_append, String.toList_append, hhour, hminute, List.append_assoc,
        List.append_assoc, List.singleton_append, durationFrom_minutes (.inl rfl) _ (by decide),
        List.append_assoc, List.singleton_append, durationFrom_minutes hafterHours _ (by decide),
        String.toList_append]
      exact durationFrom_last_iff hafterMinutes _ _ _ hsecond

/-- **A printed interval is a duration literal exactly when it is whole.** -/
theorem isDuration_durationText_iff (d : Go.Duration) :
    isDuration (Go.durationText d).toList = true ↔ WholeInterval d := by
  rw [Go.durationText]
  by_cases hzero : d = 0
  · subst hzero
    exact iff_of_true (by decide) (by decide)
  rw [if_neg hzero]
  by_cases hneg : d < 0
  · have hminus : "-".toList = ['-'] := by decide
    rw [if_pos hneg, String.toList_append, hminus, List.singleton_append]
    refine iff_of_false ?_ fun hwhole => absurd hwhole.1 (not_le.2 hneg)
    rw [isDuration, durationFrom_of_none (by decide)]
    exact Bool.false_ne_true
  · rw [if_neg hneg]
    obtain ⟨u, rfl⟩ := Int.eq_ofNat_of_zero_le (not_lt.1 hneg)
    rw [Int.natAbs_natCast, wholeInterval_natCast_iff]
    by_cases hseconds : 1000000000 ≤ u
    · rw [isDuration_of_seconds hseconds]
      omega
    · have hns : durationFrom .digits "ns".toList = true := by decide
      have hus : durationFrom .digits "µs".toList = true := by decide
      have hms : durationFrom .digits "ms".toList = true := by decide
      rw [Go.durationTextPos]
      by_cases hnano : u < 1000
      · have hfrac : toString u ++ "ns" = Nat.repr u ++ Go.fracText 0 1 ++ "ns" := by
          have hempty : Go.fracText 0 1 = "" := by decide
          rw [hempty, String.append_empty]
          rfl
        rw [if_pos hnano, hfrac, String.toList_append, isDuration,
          durationFrom_last_iff (.inl rfl) _ _ _ hns]
        omega
      · rw [if_neg hnano]
        by_cases hmicro : u < 1000000
        · rw [if_pos hmicro, String.toList_append, isDuration]
          refine (durationFrom_last_iff (.inl rfl) _ _ _ hus).trans ?_
          omega
        · rw [if_neg hmicro, if_pos (by omega), String.toList_append, isDuration]
          refine (durationFrom_last_iff (.inl rfl) _ _ _ hms).trans ?_
          omega

/-! The printed interval is a word, perhaps with a minus sign. -/

theorem wordChars_of_all {s : String} (h : s.toList.all isWordChar = true) :
    ∀ c ∈ s.toList, isWordChar c = true :=
  List.all_eq_true.1 h

theorem wordChars_append {s t : String} (hs : ∀ c ∈ s.toList, isWordChar c = true)
    (ht : ∀ c ∈ t.toList, isWordChar c = true) : ∀ c ∈ (s ++ t).toList, isWordChar c = true := by
  rw [String.toList_append]
  exact List.forall_mem_append.2 ⟨hs, ht⟩

theorem isWordChar_of_isDigit {c : Char} (h : Go.isDigit c = true) : isWordChar c = true := by
  simp [isWordChar, Char.isAlphanum, charIsDigit_of_isDigit h]

theorem wordChars_repr (n : ℕ) : ∀ c ∈ (Nat.repr n).toList, isWordChar c = true := fun _ hc =>
  isWordChar_of_isDigit (Go.isDigit_of_mem_repr hc)

theorem wordChars_quantity (n v prec : ℕ) :
    ∀ c ∈ (Nat.repr n ++ Go.fracText v prec).toList, isWordChar c = true := by
  refine wordChars_append (wordChars_repr n) ?_
  rcases Go.fracText_cases v prec with ⟨-, htext⟩ | ⟨-, ds, -, hds, htext⟩
  · rw [htext]
    exact wordChars_of_all (by decide)
  · rw [htext]
    refine wordChars_append (wordChars_of_all (by decide)) ?_
    rw [String.toList_ofList]
    exact fun c hc => isWordChar_of_isDigit (hds c hc)

theorem wordChars_durationTextPos (u : ℕ) :
    ∀ c ∈ (Go.durationTextPos u).toList, isWordChar c = true := by
  rw [Go.durationTextPos]
  split
  · exact wordChars_append (wordChars_repr u) (wordChars_of_all (by decide))
  split
  · exact wordChars_append (wordChars_quantity _ _ _) (wordChars_of_all (by decide))
  split
  · exact wordChars_append (wordChars_quantity _ _ _) (wordChars_of_all (by decide))
  refine wordChars_append (wordChars_append ?_ ?_)
    (wordChars_append (wordChars_quantity _ _ _) (wordChars_of_all (by decide)))
  · split
    · exact wordChars_of_all (by decide)
    · exact wordChars_append (wordChars_repr _) (wordChars_of_all (by decide))
  · split
    · exact wordChars_of_all (by decide)
    · exact wordChars_append (wordChars_repr _) (wordChars_of_all (by decide))

theorem durationTextPos_ne_nil (u : ℕ) : (Go.durationTextPos u).toList ≠ [] := by
  have hright : ∀ s t : String, t.toList ≠ [] → (s ++ t).toList ≠ [] := by
    intro s t ht
    rw [String.toList_append]
    exact List.append_ne_nil_of_right_ne_nil _ ht
  rw [Go.durationTextPos]
  split
  · exact hright _ _ (by decide)
  split
  · exact hright _ _ (by decide)
  split
  · exact hright _ _ (by decide)
  · exact hright _ _ (hright _ _ (by decide))

theorem proper_duration (d : Go.Duration) {close : Char} (hclose : isWordChar close = false) :
    (Piece.duration (Go.durationText d) close).Proper := by
  refine ⟨hclose, ?_⟩
  rw [Go.durationText]
  by_cases hzero : d = 0
  · rw [if_pos hzero]
    exact ⟨_, by decide, wordChars_of_all (by decide), .inl rfl⟩
  rw [if_neg hzero]
  refine ⟨_, durationTextPos_ne_nil d.natAbs, wordChars_durationTextPos d.natAbs, ?_⟩
  by_cases hneg : d < 0
  · right
    have hminus : "-".toList = ['-'] := by decide
    rw [if_pos hneg, String.toList_append, hminus, List.singleton_append]
  · left
    rw [if_neg hneg]

namespace FluxQuery

/-! ## The pieces of a query -/

/-- `|> filter` on one column with a given value. -/
def filterPieces (column value : String) : List Piece :=
  [.code ("|> filter(fn: (r) => r[" ++ quoted column ++ "] == "), .literal (.str true) value,
    .code ")"]

/-- The filter on a list of nodes. -/
def regexPieces (nodes : String) : List Piece :=
  [.code "|> filter(fn: (r) => r[\"hostname\"] =~ ", .literal .regex ("^(" ++ nodes ++ ")$"),
    .code ")"]

/-- The filter on the nodes. -/
def hostnamePieces (nodes : String) : List Piece :=
  if Go.containsChar nodes '|' then regexPieces nodes else filterPieces "hostname" nodes

/-- `from` and `range`, and the filter on the measurement. -/
def sourcePieces (q : FluxQuery) : List Piece :=
  .code ("from(bucket: " ++ quoted q.bucket ++ ")|> range(start: " ++ toString q.startTime ++
    ", stop: " ++ toString q.stopTime ++ ")") :: filterPieces "_measurement" q.measurement

/-- The end of the queries that yield one series per node. -/
def sampledPieces (q : FluxQuery) : List Piece :=
  [.code "|> aggregateWindow(every: ", .duration (Go.durationText q.sampleInterval) ',',
    .code " fn: mean, createEmpty: false)|> truncateTimeColumn(unit: ",
    .duration (Go.durationText q.sampleInterval) ')']

/-- The stream of one quantile. -/
def quantilePieces (q : FluxQuery) (i : ℕ) (quantile : String) : List Piece :=
  [.code (streamName i ++ " = data|> aggregateWindow(every: "),
    .duration (Go.durationText q.sampleInterval) ',',
    .code (" fn: (tables=<-, column) => tables |> quantile(column: \"_value\", q: " ++ quantile ++
      ", method: \"estimate_tdigest\", compression: 1000.0), createEmpty: false)" ++
      "|> truncateTimeColumn(unit: "),
    .duration (Go.durationText q.sampleInterval) ')',
    .code ("|> set(key: \"_field\", value: " ++ quoted quantile ++
      ")|> set(key: \"_measurement\", value: "),
    .literal (.str true) (q.measurement ++ "_quant"), .code ")\n"]

/-- The text between the filter on the measurement and the filter on the nodes. -/
def typeFilter (metricType : String) : String :=
  if metricType ≠ "" then columnFilter "type" metricType else ""

/-- The union of the quantile streams. -/
def quantileUnion (quantiles : List String) : String :=
  "union(tables: [" ++ ",".intercalate (quantiles.mapIdx fun i _ => streamName i) ++
    "])|> group(columns: [\"_field\"])"

/-- A query in pieces. -/
def pieces (q : FluxQuery) : List Piece :=
  match q.kind with
  | .simple metricType =>
    q.sourcePieces ++ .code (typeFilter metricType) :: hostnamePieces q.nodes ++
      .code (q.filterFunc ++ q.postQueryOp) :: q.sampledPieces
  | .aggregate =>
    q.sourcePieces ++ hostnamePieces q.nodes ++
      .code (q.filterFunc ++ q.postQueryOp) :: q.sampledPieces
  | .quantile quantiles =>
    .code "data = " :: q.sourcePieces ++ hostnamePieces q.nodes ++
      .code (q.filterFunc ++ q.postQueryOp ++ "|> group()\n") ::
        (quantiles.mapIdx q.quantilePieces).flatten ++ [.code (quantileUnion quantiles)]
  | .metadata =>
    .code ("\ndata = from(bucket: " ++ quoted q.bucket ++ ")\n\t|> range(start: " ++
      toString q.startTime ++ ", stop: " ++ toString q.stopTime ++ ")\n\t") ::
      filterPieces "_measurement" q.measurement ++ .code "\n\t" :: regexPieces q.nodes ++
        [.code ("\n\t" ++ q.filterFunc ++ "\n\t" ++ q.postQueryOp ++ "\n" ++ metadataStreams)]

-- `show` in place of the equations of the texts: these are slow to come by
theorem chars_filterPieces (column value : String) :
    (filterPieces column value).flatMap Piece.chars = (columnFilter column value).toList := by
  show ("|> filter(fn: (r) => r[" ++ quoted column ++ "] == ").toList ++
    (('"' :: (value.toList ++ ['"'])) ++ (")".toList ++ [])) =
      ("|> filter(fn: (r) => r[" ++ quoted column ++ "] == " ++ ("\"" ++ value ++ "\"") ++
        ")").toList
  have hquote : "\"".toList = ['"'] := by decide
  simp only [String.toList_append, hquote, List.append_assoc, List.append_nil, List.cons_append,
    List.nil_append]

theorem chars_regexPieces (nodes : String) :
    (regexPieces nodes).flatMap Piece.chars = (hostnameRegex nodes).toList := by
  show "|> filter(fn: (r) => r[\"hostname\"] =~ ".toList ++
    (('/' :: (("^(" ++ nodes ++ ")$").toList ++ ['/'])) ++ (")".toList ++ [])) =
      ("|> filter(fn: (r) => r[\"hostname\"] =~ /^(" ++ nodes ++ ")$/)").toList
  have hopen : "|> filter(fn: (r) => r[\"hostname\"] =~ /^(".toList =
      "|> filter(fn: (r) => r[\"hostname\"] =~ ".toList ++ '/' :: "^(".toList := by decide
  have hclose : ")$/)".toList = ")$".toList ++ '/' :: ")".toList := by decide
  simp only [String.toList_append, hopen, hclose, List.append_assoc, List.append_nil,
    List.cons_append, List.nil_append]

theorem chars_hostnamePieces (nodes : String) :
    (hostnamePieces nodes).flatMap Piece.chars = (hostnameFilter nodes).toList := by
  unfold hostnamePieces hostnameFilter
  split
  · exact chars_regexPieces nodes
  · exact chars_filterPieces "hostname" nodes

theorem chars_sourcePieces (q : FluxQuery) :
    q.sourcePieces.flatMap Piece.chars = q.source.toList := by
  show ("from(bucket: " ++ quoted q.bucket ++ ")|> range(start: " ++ toString q.startTime ++
      ", stop: " ++ toString q.stopTime ++ ")").toList ++
        (filterPieces "_measurement" q.measurement).flatMap Piece.chars =
    ("from(bucket: " ++ quoted q.bucket ++ ")|> range(start: " ++ toString q.startTime ++
      ", stop: " ++ toString q.stopTime ++ ")" ++ columnFilter "_measurement" q.measurement).toList
  rw [chars_filterPieces]
  exact String.toList_append.symm

theorem chars_sampledPieces (q : FluxQuery) :
    q.sampledPieces.flatMap Piece.chars = q.sampled.toList := by
  show "|> aggregateWindow(every: ".toList ++
      (((Go.durationText q.sampleInterval).toList ++ [',']) ++
        (" fn: mean, createEmpty: false)|> truncateTimeColumn(unit: ".toList ++
          (((Go.durationText q.sampleInterval).toList ++ [')']) ++ []))) =
    ("|> aggregateWindow(every: " ++ Go.durationText q.sampleInterval ++
      ", fn: mean, createEmpty: false)|> truncateTimeColumn(unit: " ++
      Go.durationText q.sampleInterval ++ ")").toList
  have hmiddle : ", fn: mean, createEmpty: false)|> truncateTimeColumn(unit: ".toList =
      ',' :: " fn: mean, createEmpty: false)|> truncateTimeColumn(unit: ".toList := by decide
  have hclose : ")".toList = [')'] := by decide
  simp only [String.toList_append, hmiddle, hclose, List.append_assoc, List.append_nil,
    List.cons_append, List.nil_append]

theorem chars_quantilePieces (q : FluxQuery) (i : ℕ) (quantile : String) :
    (q.quantilePieces i quantile).flatMap Piece.chars = (q.quantileStream i quantile).toList := by
  show (streamName i ++ " = data|> aggregateWindow(every: ").toList ++
      (((Go.durationText q.sampleInterval).toList ++ [',']) ++
        ((" fn: (tables=<-, column) => tables |> quantile(column: \"_value\", q: " ++ quantile ++
          ", method: \"estimate_tdigest\", compression: 1000.0), createEmpty: false)" ++
          "|> truncateTimeColumn(unit: ").toList ++
          (((Go.durationText q.sampleInterval).toList ++ [')']) ++
            (("|> set(key: \"_field\", value: " ++ quoted quantile ++
              ")|> set(key: \"_measurement\", value: ").toList ++
              (('"' :: ((q.measurement ++ "_quant").toList ++ ['"'])) ++ (")\n".toList ++ [])))))) =
    (streamName i ++ " = data|> aggregateWindow(every: " ++ Go.durationText q.sampleInterval ++
      ", fn: (tables=<-, column) => tables |> quantile(column: \"_value\", q: " ++ quantile ++
      ", method: \"estimate_tdigest\", compression: 1000.0), createEmpty: false)" ++
      "|> truncateTimeColumn(unit: " ++ Go.durationText q.sampleInterval ++ ")" ++
      "|> set(key: \"_field\", value: " ++ quoted quantile ++ ")" ++
      "|> set(key: \"_measurement\", value: " ++ ("\"" ++ (q.measurement ++ "_quant") ++ "\"") ++
      ")\n").toList
  have hmiddle : ", fn: (tables=<-, column) => tables |> quantile(column: \"_value\", q: ".toList =
      ',' :: " fn: (tables=<-, column) => tables |> quantile(column: \"_value\", q: ".toList := by
    decide
  have hclose : ")".toList = [')'] := by decide
  have hset : ")|> set(key: \"_measurement\", value: ".toList =
      ')' :: "|> set(key: \"_measurement\", value: ".toList := by decide
  have hquote : "\"".toList = ['"'] := by decide
  simp only [String.toList_append, hmiddle, hclose, hset, hquote, List.append_assoc,
    List.append_nil, List.cons_append, List.nil_append]

theorem flatMap_mapIdx {α β γ : Type} (f : ℕ → α → β) (g : β → List γ) (xs : List α) :
    (xs.mapIdx f).flatMap g = (xs.mapIdx fun i x => g (f i x)).flatten := by
  rw [List.flatMap_def, List.mapIdx_eq_zipIdx_map, List.map_map, List.mapIdx_eq_zipIdx_map]
  rfl

theorem flatMap_flatten_mapIdx {α β γ : Type} (f : ℕ → α → List β) (g : β → List γ) (xs : List α) :
    (xs.mapIdx f).flatten.flatMap g = (xs.mapIdx fun i x => (f i x).flatMap g).flatten := by
  rw [← flatMap_mapIdx, List.flatMap_def, List.map_flatten, List.flatten_flatten, List.map_map]
  rfl

/-- **The pieces of a query are its text.** -/
theorem chars_pieces (q : FluxQuery) : q.pieces.flatMap Piece.chars = q.text.toList := by
  obtain ⟨kind, bucket, startTime, stopTime, measurement, nodes, sampleInterval, filterFunc,
    postQueryOp⟩ := q
  set q : FluxQuery := ⟨kind, bucket, startTime, stopTime, measurement, nodes, sampleInterval,
    filterFunc, postQueryOp⟩ with hq
  cases kind with
  | simple metricType =>
    show (q.sourcePieces ++ .code (typeFilter metricType) :: hostnamePieces q.nodes ++
        .code (q.filterFunc ++ q.postQueryOp) :: q.sampledPieces).flatMap Piece.chars =
      (q.source ++ typeFilter metricType ++ hostnameFilter q.nodes ++ q.filterFunc ++
        q.postQueryOp ++ q.sampled).toList
    simp only [List.flatMap_append, List.flatMap_cons, chars_sourcePieces, chars_hostnamePieces,
      chars_sampledPieces, Piece.chars, String.toList_append, List.append_assoc]
  | aggregate =>
    show (q.sourcePieces ++ hostnamePieces q.nodes ++
        .code (q.filterFunc ++ q.postQueryOp) :: q.sampledPieces).flatMap Piece.chars =
      (q.source ++ hostnameFilter q.nodes ++ q.filterFunc ++ q.postQueryOp ++ q.sampled).toList
    simp only [List.flatMap_append, List.flatMap_cons, chars_sourcePieces, chars_hostnamePieces,
      chars_sampledPieces, Piece.chars, String.toList_append, List.append_assoc]
  | quantile quantiles =>
    show (Piece.code "data = " :: q.sourcePieces ++ hostnamePieces q.nodes ++
        Piece.code (q.filterFunc ++ q.postQueryOp ++ "|> group()\n") ::
          (quantiles.mapIdx q.quantilePieces).flatten ++
            [Piece.code (quantileUnion quantiles)]).flatMap Piece.chars =
      ("data = " ++ q.source ++ hostnameFilter q.nodes ++ q.filterFunc ++ q.postQueryOp ++
        "|> group()\n" ++ String.join (quantiles.mapIdx q.quantileStream) ++ "union(tables: [" ++
        ",".intercalate (quantiles.mapIdx fun i _ => streamName i) ++
        "])|> group(columns: [\"_field\"])").toList
    have hunion : (quantileUnion quantiles).toList = ("union(tables: [" ++
        ",".intercalate (quantiles.mapIdx fun i _ => streamName i) ++
        "])|> group(columns: [\"_field\"])").toList := rfl
    have hstreams : (String.join (quantiles.mapIdx q.quantileStream)).toList =
        (quantiles.mapIdx fun i x => (q.quantilePieces i x).flatMap Piece.chars).flatten := by
      simp only [String.toList_join, flatMap_mapIdx, chars_quantilePieces]
    simp only [List.flatMap_append, List.flatMap_cons, List.flatMap_nil, chars_sourcePieces,
      chars_hostnamePieces, flatMap_flatten_mapIdx, Piece.chars, hunion, hstreams,
      String.toList_append, List.append_assoc, List.append_nil, List.cons_append]
  | metadata =>
    show (Piece.code ("\ndata = from(bucket: " ++ quoted q.bucket ++ ")\n\t|> range(start: " ++
        toString q.startTime ++ ", stop: " ++ toString q.stopTime ++ ")\n\t") ::
        filterPieces "_measurement" q.measurement ++ Piece.code "\n\t" :: regexPieces q.nodes ++
          [Piece.code ("\n\t" ++ q.filterFunc ++ "\n\t" ++ q.postQueryOp ++ "\n" ++
            metadataStreams)]).flatMap Piece.chars =
      ("\ndata = from(bucket: " ++ quoted q.bucket ++ ")\n\t|> range(start: " ++
        toString q.startTime ++ ", stop: " ++ toString q.stopTime ++ ")\n\t" ++
        columnFilter "_measurement" q.measurement ++ "\n\t" ++ hostnameRegex q.nodes ++ "\n\t" ++
        q.filterFunc ++ "\n\t" ++ q.postQueryOp ++ "\n" ++ metadataStreams).toList
    simp only [List.flatMap_append, List.flatMap_cons, List.flatMap_nil, chars_filterPieces,
      chars_regexPieces, Piece.chars, String.toList_append, List.append_assoc, List.append_nil,
      List.cons_append]

/-! ## What is put in -/

/-- The literal for the nodes. -/
def hostPiece (nodes : String) : Piece :=
  if Go.containsChar nodes '|' then .literal .regex ("^(" ++ nodes ++ ")$")
  else .literal (.str true) nodes

/-- The literal for the nodes of a query. -/
def nodesPiece (q : FluxQuery) : Piece :=
  match q.kind with
  | .metadata => .literal .regex ("^(" ++ q.nodes ++ ")$")
  | _ => hostPiece q.nodes

/-- Whether there are intervals in the text of a query. -/
def timed (q : FluxQuery) : Bool :=
  match q.kind with
  | .simple _ => true
  | .aggregate => true
  | .quantile quantiles => !quantiles.isEmpty
  | .metadata => false

/-- What is put into the fixed text of a query. -/
def slots (q : FluxQuery) : List Piece :=
  let intervals : List Piece :=
    [.duration (Go.durationText q.sampleInterval) ',',
      .duration (Go.durationText q.sampleInterval) ')']
  .literal (.str true) q.measurement :: q.nodesPiece ::
    match q.kind with
    | .simple _ => intervals
    | .aggregate => intervals
    | .quantile [] => []
    | .quantile (_ :: _) => .literal (.str true) (q.measurement ++ "_quant") :: intervals
    | .metadata => []

section Forall

variable {P : Piece → Prop} (hcode : ∀ text, P (.code text)) (q : FluxQuery)

include hcode

theorem forall_filterPieces_iff (column value : String) :
    (∀ p ∈ filterPieces column value, P p) ↔ P (.literal (.str true) value) := by
  show (∀ p ∈ [Piece.code _, .literal (.str true) value, .code ")"], P p) ↔ _
  simp [hcode]

theorem forall_regexPieces_iff (nodes : String) :
    (∀ p ∈ regexPieces nodes, P p) ↔ P (.literal .regex ("^(" ++ nodes ++ ")$")) := by
  show (∀ p ∈ [Piece.code _, .literal .regex ("^(" ++ nodes ++ ")$"), .code ")"], P p) ↔ _
  simp [hcode]

theorem forall_hostnamePieces_iff (nodes : String) :
    (∀ p ∈ hostnamePieces nodes, P p) ↔ P (hostPiece nodes) := by
  unfold hostnamePieces hostPiece
  split
  · exact forall_regexPieces_iff hcode nodes
  · exact forall_filterPieces_iff hcode "hostname" nodes

theorem forall_sourcePieces_iff :
    (∀ p ∈ q.sourcePieces, P p) ↔ P (.literal (.str true) q.measurement) := by
  show (∀ p ∈ Piece.code _ :: filterPieces "_measurement" q.measurement, P p) ↔ _
  rw [List.forall_mem_cons, forall_filterPieces_iff hcode, and_iff_right (hcode _)]

theorem forall_sampledPieces_iff :
    (∀ p ∈ q.sampledPieces, P p) ↔
      P (.duration (Go.durationText q.sampleInterval) ',') ∧
        P (.duration (Go.durationText q.sampleInterval) ')') := by
  simp [sampledPieces, hcode]

theorem forall_quantilePieces_iff (i : ℕ) (x : String) :
    (∀ p ∈ q.quantilePieces i x, P p) ↔
      P (.literal (.str true) (q.measurement ++ "_quant")) ∧
        P (.duration (Go.durationText q.sampleInterval) ',') ∧
          P (.duration (Go.durationText q.sampleInterval) ')') := by
  simp [quantilePieces, hcode]
  tauto

theorem forall_streams_iff (x : String) (xs : List String) :
    (∀ l ∈ (x :: xs).mapIdx q.quantilePieces, ∀ p ∈ l, P p) ↔
      P (.literal (.str true) (q.measurement ++ "_quant")) ∧
        P (.duration (Go.durationText q.sampleInterval) ',') ∧
          P (.duration (Go.durationText q.sampleInterval) ')') := by
  constructor
  · intro h
    refine (forall_quantilePieces_iff hcode q 0 x).1 (h _ ?_)
    rw [List.mapIdx_cons]
    exact List.mem_cons_self
  · intro h l hl
    obtain ⟨i, hi, rfl⟩ := List.mem_mapIdx.1 hl
    exact (forall_quantilePieces_iff hcode q _ _).2 h

/-- Of the pieces only those that are put in matter. -/
theorem forall_pieces_iff : (∀ p ∈ q.pieces, P p) ↔ ∀ p ∈ q.slots, P p := by
  have hsource := forall_sourcePieces_iff hcode q
  have hnodes := forall_hostnamePieces_iff hcode q.nodes
  have hsampled := forall_sampledPieces_iff hcode q
  unfold pieces slots nodesPiece
  cases q.kind with
  | simple metricType =>
    simp only [List.forall_mem_append, List.forall_mem_cons, hsource, hnodes, hsampled, hcode]
    simp
    tauto
  | aggregate =>
    simp only [List.forall_mem_append, List.forall_mem_cons, hsource, hnodes, hsampled, hcode]
    simp
    tauto
  | quantile quantiles =>
    simp only [List.forall_mem_append, List.forall_mem_cons, hsource, hnodes, hcode,
      List.forall_mem_flatten]
    cases quantiles with
    | nil => simp
    | cons x xs =>
      rw [forall_streams_iff hcode]
      simp
      tauto
  | metadata =>
    simp only [List.forall_mem_append, List.forall_mem_cons, hcode, forall_filterPieces_iff hcode,
      forall_regexPieces_iff hcode]
    simp

end Forall

theorem proper_hostRegex (nodes : String) :
    (Piece.literal .regex ("^(" ++ nodes ++ ")$")).Proper := by
  refine ⟨'^', '(' :: (nodes.toList ++ ")$".toList), ?_, by decide⟩
  have hopen : "^(".toList = ['^', '('] := by decide
  rw [String.toList_append, String.toList_append, hopen, List.append_assoc]
  rfl

theorem proper_hostPiece (nodes : String) : (hostPiece nodes).Proper := by
  unfold hostPiece
  split
  · exact proper_hostRegex nodes
  · rfl

theorem proper_nodesPiece (q : FluxQuery) : q.nodesPiece.Proper := by
  unfold nodesPiece
  split
  · exact proper_hostRegex q.nodes
  · exact proper_hostPiece q.nodes

theorem proper_pieces (q : FluxQuery) : ∀ p ∈ q.pieces, p.Proper := by
  have hcomma : (Piece.duration (Go.durationText q.sampleInterval) ',').Proper :=
    proper_duration _ (by decide)
  have hparen : (Piece.duration (Go.durationText q.sampleInterval) ')').Proper :=
    proper_duration _ (by decide)
  have hquant : (Piece.literal (.str true) (q.measurement ++ "_quant")).Proper := rfl
  rw [forall_pieces_iff fun _ => trivial, slots, List.forall_mem_cons, List.forall_mem_cons]
  refine ⟨rfl, q.proper_nodesPiece, ?_⟩
  split
  · simp [hcomma, hparen]
  · simp [hcomma, hparen]
  · simp
  · simp [hcomma, hparen, hquant]
  · simp

/-! ## The text as it is read -/

/-- The pieces without what is put in: the fixed text. -/
def skeleton (q : FluxQuery) : List Piece := q.pieces.map Piece.erase

/-- The text is read as the tokens of the fixed text, with what is put in as literals. -/
def Contained (q : FluxQuery) : Prop :=
  Sound {} q.skeleton ∧
    lex q.text = fill (template {} q.skeleton) (q.pieces.flatMap Piece.contents)

/-- The literals of a query can stand where they are put, and end there. -/
structure Closed (q : FluxQuery) : Prop where
  /-- The fixed text, with the parts from the configuration, is code where a literal is
  put in. -/
  skeleton : Sound {} q.skeleton
  measurement : IsContent (.str true) q.measurement.toList
  nodes : q.nodesPiece.Closed
  interval : q.timed = true → WholeInterval q.sampleInterval

/-- With `_quant` after it a measurement is closed as well. -/
theorem isContent_quant {measurement : String} (h : IsContent (.str true) measurement.toList) :
    IsContent (.str true) (measurement ++ "_quant").toList := by
  obtain ⟨sub, hsub, hne⟩ := h
  refine ⟨.plain, ?_, by decide⟩
  rw [String.toList_append, scanAll_append, hsub, Option.bind_some]
  cases sub with
  | plain => decide
  | escaped => exact absurd rfl hne
  | dollar => decide

theorem closed_slots_iff (q : FluxQuery) :
    (∀ p ∈ q.slots, p.Closed) ↔ IsContent (.str true) q.measurement.toList ∧ q.nodesPiece.Closed ∧
      (q.timed = true → WholeInterval q.sampleInterval) := by
  have hinterval : ∀ close, (Piece.duration (Go.durationText q.sampleInterval) close).Closed ↔
      WholeInterval q.sampleInterval := fun _ => isDuration_durationText_iff _
  rw [slots, List.forall_mem_cons, List.forall_mem_cons]
  refine and_congr_right fun hmeasurement => and_congr_right fun _ => ?_
  have hquant : (Piece.literal (.str true) (q.measurement ++ "_quant")).Closed :=
    isContent_quant hmeasurement
  cases hkind : q.kind with
  | simple metricType => simp [timed, hkind, hinterval]
  | aggregate => simp [timed, hkind, hinterval]
  | quantile quantiles =>
    cases quantiles with
    | nil => simp [timed, hkind]
    | cons x xs => simp [timed, hkind, hinterval, hquant]
  | metadata => simp [timed, hkind]

theorem lex_text (q : FluxQuery) : lex q.text = lexFrom {} (q.pieces.flatMap Piece.chars) := by
  rw [lex, chars_pieces]

theorem contained_pieces_iff (q : FluxQuery) : q.Contained ↔ FluxLex.Contained q.pieces := by
  rw [Contained, FluxLex.Contained, skeleton, sound_erase, template_erase, lex_text]

/-- **The text of a query is read as its pieces are meant exactly when what is put in is
closed.** -/
theorem contained_iff (q : FluxQuery) : q.Contained ↔ q.Closed := by
  rw [contained_pieces_iff, FluxLex.contained_iff q.proper_pieces,
    forall_pieces_iff fun _ => trivial, closed_slots_iff]
  constructor
  · rintro ⟨hsound, hmeasurement, hnodes, hinterval⟩
    exact ⟨sound_erase.2 hsound, hmeasurement, hnodes, hinterval⟩
  · intro h
    exact ⟨sound_erase.1 h.skeleton, h.measurement, h.nodes, h.interval⟩

/-! ## The fixed text -/

/-- The queries differ in what is put into their texts only.  One node is looked for in
another way than a list of nodes. -/
structure SameForm (q q' : FluxQuery) : Prop where
  kind : q'.kind = q.kind
  bucket : q'.bucket = q.bucket
  startTime : q'.startTime = q.startTime
  stopTime : q'.stopTime = q.stopTime
  filterFunc : q'.filterFunc = q.filterFunc
  postQueryOp : q'.postQueryOp = q.postQueryOp
  nodes : Go.containsChar q'.nodes '|' = Go.containsChar q.nodes '|'

/-- **What is put in is no part of the fixed text.** -/
theorem SameForm.skeleton_eq {q q' : FluxQuery} (h : SameForm q q') :
    q'.skeleton = q.skeleton := by
  obtain ⟨kind, bucket, startTime, stopTime, measurement, nodes, sampleInterval, filterFunc,
    postQueryOp⟩ := q
  obtain ⟨kind', bucket', startTime', stopTime', measurement', nodes', sampleInterval',
    filterFunc', postQueryOp'⟩ := q'
  obtain ⟨rfl, rfl, rfl, rfl, rfl, rfl, hnodes⟩ := h
  have hhost :
      (hostnamePieces nodes').map Piece.erase = (hostnamePieces nodes).map Piece.erase := by
    unfold hostnamePieces
    rw [hnodes]
    split
    · rfl
    · rfl
  unfold skeleton pieces
  dsimp only
  cases kind' with
  | simple metricType =>
    simp only [List.map_append, List.map_cons, hhost]
    rfl
  | aggregate =>
    simp only [List.map_append, List.map_cons, hhost]
    rfl
  | quantile quantiles =>
    simp only [List.map_append, List.map_cons, hhost, List.map_flatten,
      List.mapIdx_eq_zipIdx_map, List.map_map]
    rfl
  | metadata => rfl

/-- The texts have the same tokens, apart from what is put in. -/
def SameTokens (q q' : FluxQuery) : Prop :=
  ∃ template, lex q.text = fill template (q.pieces.flatMap Piece.contents) ∧
    lex q'.text = fill template (q'.pieces.flatMap Piece.contents)

/-- **Queries of the same form have the same tokens**, apart from what is put in, when both
are read as they are meant. -/
theorem SameForm.sameTokens {q q' : FluxQuery} (hsame : SameForm q q') (h : q.Contained)
    (h' : q'.Contained) : SameTokens q q' := by
  have htokens := (q.contained_pieces_iff.1 h).same_template (q'.contained_pieces_iff.1 h')
    hsame.skeleton_eq.symm
  rwa [chars_pieces, chars_pieces] at htokens

/-- Then there are as many tokens in both texts. -/
theorem SameTokens.length_eq {q q' : FluxQuery} (h : SameTokens q q')
    (hslots : (q.pieces.flatMap Piece.contents).length =
      (q'.pieces.flatMap Piece.contents).length) : (lex q.text).length = (lex q'.text).length := by
  obtain ⟨template, hq, hq'⟩ := h
  rw [hq, hq', length_fill_congr hslots]

end FluxQuery

end JobMon
