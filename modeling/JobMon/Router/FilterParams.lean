import JobMon.Router.Read
import JobMon.Store.Filter

/-!
# Filters from the frontend to the backend

`useGetJobs` of `utils.ts` writes the filter of the job list into the query of the
request, `parseGetJobParams` reads it from there.

* `JobSearchParams` — a filter the frontend can hold; `queryString` is what
  `useGetJobs` appends to the URL, read back by `QueryString.get`.
* `Constraint` — one thing a filter asks of a job; `satisfiedBy_iff_asks` says that
  a `JobFilter` is its constraints.
* `get_queryString` — every parameter arrives.
* `denotes_iff` — the filter that is read asks what was written exactly when no
  user ID and no group ID was asked for.
* `userId_not_denotes` — one of them alone is dropped.

Writing a parameter into a URL and reading it from there are inverse.
-/

namespace JobMon

open Keyed

/-! ## What the frontend holds -/

/-- An integer a number of the frontend represents exactly. -/
structure SafeInteger where
  val : ℤ
  le_val : -2 ^ 53 ≤ val
  val_le : val ≤ 2 ^ 53
  deriving DecidableEq

/-- A text that is not empty. -/
structure NonEmptyText where
  val : String
  val_ne : val ≠ ""
  deriving DecidableEq

/-- `RangeFilter` of `job.ts`. -/
abbrev RangeEnds := Option SafeInteger × Option SafeInteger

/-- The properties of a `JobSearchParams` object. -/
inductive SearchKey
  | UserId
  | UserName
  | GroupId
  | GroupName
  | IsRunning
  | Partition
  | NumNodes
  | NumTasks
  | NumGpus
  | Time
  | Tags
  deriving DecidableEq

/-- The name of a property. -/
def SearchKey.name : SearchKey → String
  | UserId => "UserId"
  | UserName => "UserName"
  | GroupId => "GroupId"
  | GroupName => "GroupName"
  | IsRunning => "IsRunning"
  | Partition => "Partition"
  | NumNodes => "NumNodes"
  | NumTasks => "NumTasks"
  | NumGpus => "NumGpus"
  | Time => "Time"
  | Tags => "Tags"

/-- The values of a `JobSearchParams` object; of a tag only its ID is written. -/
structure SearchValues where
  userId : Option SafeInteger := none
  userName : Option NonEmptyText := none
  groupId : Option SafeInteger := none
  groupName : Option NonEmptyText := none
  isRunning : Option Bool := none
  partition : Option NonEmptyText := none
  numNodes : Option RangeEnds := none
  numTasks : Option RangeEnds := none
  numGpus : Option RangeEnds := none
  time : Option RangeEnds := none
  tags : Option (List SafeInteger) := none

/-- `toString` of an end of a range inside an array: nothing for an undefined one. -/
def endText (x : Option SafeInteger) : String := (x.map fun n => toString n.val).getD ""

/-- `toString` of a range: its ends with a comma between them. -/
def rangeText (r : RangeEnds) : String := endText r.1 ++ "," ++ endText r.2

/-- `toString` of an array of IDs. -/
def idsText (ids : List SafeInteger) : String :=
  (String.singleton ',').intercalate (ids.map fun n => toString n.val)

/-- `params[val]?.toString()`; for `Tags` that of the IDs. -/
def SearchValues.text (p : SearchValues) : SearchKey → Option String
  | .UserId => p.userId.map fun n => toString n.val
  | .UserName => p.userName.map NonEmptyText.val
  | .GroupId => p.groupId.map fun n => toString n.val
  | .GroupName => p.groupName.map NonEmptyText.val
  | .IsRunning => p.isRunning.map fun b => if b then "true" else "false"
  | .Partition => p.partition.map NonEmptyText.val
  | .NumNodes => p.numNodes.map rangeText
  | .NumTasks => p.numTasks.map rangeText
  | .NumGpus => p.numGpus.map rangeText
  | .Time => p.time.map rangeText
  | .Tags => p.tags.map idsText

/-- A `JobSearchParams` object: its own properties, in the order `Object.keys` yields
them, and their values.  A property may be there and undefined. -/
structure JobSearchParams extends SearchValues where
  keys : List SearchKey
  complete : ∀ k, toSearchValues.text k ≠ none → k ∈ keys

/-! ## The query -/

/-- The parameters of a URL, in the order they were appended. -/
abbrev QueryString := List (String × String)

/-- `Values.Get`: the first value of a parameter, empty when there is none. -/
def QueryString.get (query : QueryString) (name : String) : String :=
  ((query.find? fun param => param.1 = name).map Prod.snd).getD ""

/-- What `useGetJobs` appends for one property. -/
def JobSearchParams.append (p : JobSearchParams) (k : SearchKey) : Option (String × String) :=
  if k = .Tags then some (k.name, (p.text k).getD "")
  else
    match p.text k with
    | some paramVal => if paramVal ≠ "" then some (k.name, paramVal) else none
    | none => none

/-- The query `useGetJobs` builds. -/
def JobSearchParams.queryString (p : JobSearchParams) : QueryString := p.keys.filterMap p.append

theorem SearchKey.name_injective {k k' : SearchKey} (h : k.name = k'.name) : k = k' := by
  revert h
  cases k <;> cases k' <;> decide

theorem JobSearchParams.append_eq_some_iff {p : JobSearchParams} {k : SearchKey}
    {param : String × String} :
    p.append k = some param ↔ param = (k.name, (p.text k).getD "") ∧
      (k = .Tags ∨ (p.text k).getD "" ≠ "") := by
  unfold append
  by_cases htags : k = .Tags
  · rw [if_pos htags, Option.some.injEq, eq_comm]
    simp [htags]
  · rw [if_neg htags]
    cases htext : p.text k with
    | none => simp [htags]
    | some t =>
      by_cases hempty : t = ""
      · simp [hempty, htags]
      · simp [hempty, htags, eq_comm]

/-- **Every parameter arrives**: the text of the property, empty when it is not
there. -/
theorem JobSearchParams.get_queryString (p : JobSearchParams) (k : SearchKey) :
    QueryString.get p.queryString k.name = (p.text k).getD "" := by
  unfold QueryString.get
  cases hfind : p.queryString.find? fun param => param.1 = k.name with
  | some param =>
    have hname : param.1 = k.name := by simpa using List.find?_some hfind
    obtain ⟨k', -, hk'⟩ := List.mem_filterMap.1 (List.mem_of_find?_eq_some hfind)
    obtain ⟨rfl, -⟩ := append_eq_some_iff.1 hk'
    rw [SearchKey.name_injective hname]
    rfl
  | none =>
    by_contra hne
    have htext : (p.text k).getD "" ≠ "" := Ne.symm hne
    have hdefined : p.text k ≠ none := by
      intro hnone
      rw [hnone] at htext
      exact htext rfl
    have hmem : (k.name, (p.text k).getD "") ∈ p.queryString :=
      List.mem_filterMap.2 ⟨k, p.complete k hdefined, append_eq_some_iff.2 ⟨rfl, Or.inr htext⟩⟩
    exact List.find?_eq_none.1 hfind _ hmem (decide_eq_true rfl)

/-! ## Constraints -/

/-- The numbers of a job a range can be put on. -/
inductive RangeColumn
  | numNodes
  | numTasks
  | numGpus
  | time
  deriving DecidableEq

def RangeColumn.value (j : JobMetadata) : RangeColumn → ℤ
  | numNodes => j.numNodes
  | numTasks => j.numTasks
  | numGpus => j.numNodes * j.gpusPerNode
  | time => j.startTime

/-- One thing that is asked of a job. -/
inductive Constraint
  | userId (v : ℤ)
  | userName (v : String)
  | groupId (v : ℤ)
  | groupName (v : String)
  | isRunning (v : Bool)
  | partition (v : String)
  | atLeast (column : RangeColumn) (v : ℤ)
  | atMost (column : RangeColumn) (v : ℤ)
  | tag (id : ℤ)
  deriving DecidableEq

/-- A job meets a constraint. -/
def Constraint.Holds (s : Store) (j : JobMetadata) : Constraint → Prop
  | userId v => j.userId = v
  | userName v => j.userName = v
  | groupId v => j.groupId = v
  | groupName v => j.groupName = v
  | isRunning v => j.isRunning = v
  | partition v => j.partition = v
  | atLeast column v => v ≤ column.value j
  | atMost column v => column.value j ≤ v
  | tag id => s.HasTag j.id id

/-- The range of a filter on a column. -/
def JobFilter.range (f : JobFilter) : RangeColumn → Option RangeFilter
  | .numNodes => f.numNodes
  | .numTasks => f.numTasks
  | .numGpus => f.numGpus
  | .time => f.time

/-- The constraints of a filter of the backend. -/
def JobFilter.Asks (f : JobFilter) : Constraint → Prop
  | .userId v => f.userId = some v
  | .userName v => f.userName = some v
  | .groupId v => f.groupId = some v
  | .groupName v => f.groupName = some v
  | .isRunning v => f.isRunning = some v
  | .partition v => f.partition = some v
  | .atLeast column v => ∃ r, f.range column = some r ∧ r.from_ = some v
  | .atMost column v => ∃ r, f.range column = some r ∧ r.to_ = some v
  | .tag id => ∃ ts, f.tags = some ts ∧ ∃ t ∈ ts, t.id = id

/-- The range of a filter of the frontend on a column. -/
def SearchValues.range (p : SearchValues) : RangeColumn → Option RangeEnds
  | .numNodes => p.numNodes
  | .numTasks => p.numTasks
  | .numGpus => p.numGpus
  | .time => p.time

/-- The constraints of a filter of the frontend. -/
def SearchValues.Asks (p : SearchValues) : Constraint → Prop
  | .userId v => ∃ n, p.userId = some n ∧ n.val = v
  | .userName v => ∃ t, p.userName = some t ∧ t.val = v
  | .groupId v => ∃ n, p.groupId = some n ∧ n.val = v
  | .groupName v => ∃ t, p.groupName = some t ∧ t.val = v
  | .isRunning v => p.isRunning = some v
  | .partition v => ∃ t, p.partition = some t ∧ t.val = v
  | .atLeast column v => ∃ r, p.range column = some r ∧ ∃ n, r.1 = some n ∧ n.val = v
  | .atMost column v => ∃ r, p.range column = some r ∧ ∃ n, r.2 = some n ∧ n.val = v
  | .tag id => ∃ ids, p.tags = some ids ∧ ∃ n ∈ ids, n.val = id

/-- **A filter is its constraints.** -/
theorem satisfiedBy_iff_asks {f : JobFilter} {s : Store} {j : JobMetadata} :
    f.SatisfiedBy s j ↔ ∀ c, f.Asks c → c.Holds s j := by
  constructor
  · rintro ⟨hfields, htags⟩ c hc
    cases c with
    | userId v => exact hfields.userId v hc
    | userName v => exact hfields.userName v hc
    | groupId v => exact hfields.groupId v hc
    | groupName v => exact hfields.groupName v hc
    | isRunning v => exact hfields.isRunning v hc
    | partition v => exact hfields.partition v hc
    | atLeast column v =>
      obtain ⟨r, hr, hv⟩ := hc
      cases column with
      | numNodes => exact (hfields.numNodes r hr).from_ v hv
      | numTasks => exact (hfields.numTasks r hr).from_ v hv
      | numGpus => exact (hfields.numGpus r hr).from_ v hv
      | time => exact (hfields.time r hr).from_ v hv
    | atMost column v =>
      obtain ⟨r, hr, hv⟩ := hc
      cases column with
      | numNodes => exact (hfields.numNodes r hr).to_ v hv
      | numTasks => exact (hfields.numTasks r hr).to_ v hv
      | numGpus => exact (hfields.numGpus r hr).to_ v hv
      | time => exact (hfields.time r hr).to_ v hv
    | tag id =>
      obtain ⟨ts, hts, t, ht, rfl⟩ := hc
      exact htags ts hts t ht
  · intro h
    have hrange : ∀ column r, f.range column = some r → r.Contains (column.value j) :=
      fun column r hr => ⟨fun a ha => h (.atLeast column a) ⟨r, hr, ha⟩,
        fun b hb => h (.atMost column b) ⟨r, hr, hb⟩⟩
    exact
      { fields :=
          { userId := fun v hv => h (.userId v) hv
            userName := fun v hv => h (.userName v) hv
            groupId := fun v hv => h (.groupId v) hv
            groupName := fun v hv => h (.groupName v) hv
            isRunning := fun v hv => h (.isRunning v) hv
            partition := fun v hv => h (.partition v) hv
            numNodes := fun r hr => hrange .numNodes r hr
            numTasks := fun r hr => hrange .numTasks r hr
            numGpus := fun r hr => hrange .numGpus r hr
            time := fun r hr => hrange .time r hr }
        tags := fun ts hts t ht => h (.tag t.id) ⟨ts, hts, t, ht, rfl⟩ }

/-! ## What is read of what was written -/

theorem SafeInteger.atoi_toString (n : SafeInteger) : Go.atoi (toString n.val) = .ok n.val := by
  have hmin := n.le_val
  have hmax := n.val_le
  refine Go.atoi_toString ?_ ?_
  · unfold Go.minInt
    omega
  · unfold Go.maxInt
    omega

/-- The error of a number that is one is nil, and then nothing is kept. -/
theorem parseIdFilter_text (n : Option SafeInteger) :
    parseIdFilter ((n.map fun n => toString n.val).getD "") = none := by
  cases n with
  | none => rfl
  | some n =>
    show parseIdFilter (toString n.val) = none
    unfold parseIdFilter
    rw [n.atoi_toString, ite_self]

theorem parseTextFilter_text (t : Option NonEmptyText) :
    parseTextFilter ((t.map NonEmptyText.val).getD "") = t.map NonEmptyText.val := by
  cases t with
  | none => rfl
  | some t => exact if_neg t.val_ne

theorem atoi_endText (x : Option SafeInteger) :
    (Go.atoi (endText x)).toOption = x.map SafeInteger.val := by
  cases x with
  | none => rfl
  | some n =>
    show (Go.atoi (toString n.val)).toOption = some n.val
    rw [n.atoi_toString]
    rfl

theorem not_mem_endText (x : Option SafeInteger) : ',' ∉ (endText x).toList := by
  cases x with
  | none => simp [endText]
  | some n => exact Go.not_mem_int (by decide) (by decide) n.val

/-- **Both ends of a range arrive**, the undefined ones as absent. -/
theorem parseRangeFilter_rangeText (r : RangeEnds) :
    parseRangeFilter (rangeText r) =
      some { from_ := r.1.map SafeInteger.val, to_ := r.2.map SafeInteger.val } := by
  have hsplit : Go.split (rangeText r) ',' = [endText r.1, endText r.2] := by
    have hjoin : rangeText r = (String.singleton ',').intercalate [endText r.1, endText r.2] := by
      simp [rangeText, String.intercalate]
      rfl
    rw [hjoin, Go.split_intercalate ?_ (by simp)]
    intro part hpart
    rcases List.mem_pair.1 hpart with rfl | rfl
    · exact not_mem_endText r.1
    · exact not_mem_endText r.2
  rw [parseRangeFilter, hsplit]
  simp only [atoi_endText]

theorem rangeText_ne (r : RangeEnds) : rangeText r ≠ "" := by
  intro h
  have := congrArg String.length h
  simp [rangeText, String.length_append] at this

/-- A parameter with a range, read. -/
theorem parse_range (r : Option RangeEnds) :
    (if (r.map rangeText).getD "" = "" then none
      else parseRangeFilter ((r.map rangeText).getD "")) =
      r.map fun r => { from_ := r.1.map SafeInteger.val, to_ := r.2.map SafeInteger.val } := by
  cases r with
  | none => rfl
  | some r =>
    show (if rangeText r = "" then none else parseRangeFilter (rangeText r)) = _
    rw [if_neg (rangeText_ne r), parseRangeFilter_rangeText]
    rfl

theorem split_idsText {ids : List SafeInteger} (hne : ids ≠ []) :
    Go.split (idsText ids) ',' = ids.map fun n => toString n.val := by
  refine Go.split_intercalate ?_ (by simpa using hne)
  rw [List.forall_mem_map]
  exact fun n _ => Go.not_mem_int (by decide) (by decide) n.val

theorem idsText_ne {ids : List SafeInteger} (hne : ids ≠ []) : idsText ids ≠ "" := by
  intro hempty
  obtain ⟨n, rest, rfl⟩ := List.exists_cons_of_ne_nil hne
  have hsplit := split_idsText hne
  rw [hempty, List.map_cons] at hsplit
  have hnumber := n.atoi_toString
  rw [← (List.cons.inj hsplit).1] at hnumber
  cases hnumber

/-- A parameter with tags, read: an empty list of tags is none. -/
theorem parse_tags (ids : Option (List SafeInteger)) :
    (if (ids.map idsText).getD "" = "" then none
      else some ((Go.split ((ids.map idsText).getD "") ',').filterMap fun v =>
        (Go.atoi v).toOption.map fun i => ({ id := i } : JobTag))) =
      if ids.getD [] = [] then none
      else some ((ids.getD []).map fun n => ({ id := n.val } : JobTag)) := by
  have htext : (ids.map idsText).getD "" = idsText (ids.getD []) := by
    cases ids <;> rfl
  rw [htext]
  by_cases hne : ids.getD [] = []
  · rw [if_pos hne, hne]
    rfl
  · rw [if_neg hne, if_neg (idsText_ne hne), split_idsText hne]
    have hread : ∀ l : List SafeInteger, (l.map fun n => toString n.val).filterMap (fun v =>
        (Go.atoi v).toOption.map fun i => ({ id := i } : JobTag)) =
        l.map fun n => ({ id := n.val } : JobTag) := by
      intro l
      induction l with
      | nil => rfl
      | cons n l ih =>
        rw [List.map_cons, List.filterMap_cons_some (b := ({ id := n.val } : JobTag)), ih,
          List.map_cons]
        rw [n.atoi_toString]
        rfl
    rw [hread]

theorem parse_isRunning (b : Option Bool) :
    (if (b.map fun b => if b then "true" else "false").getD "" = "true" then some true
      else if (b.map fun b => if b then "true" else "false").getD "" = "false" then some false
      else none) = b := by
  cases b with
  | none => rfl
  | some b => cases b <;> rfl

/-- **What is read of what was written**: everything but the two IDs. -/
theorem parseGetJobParams_queryString (p : JobSearchParams) :
    parseGetJobParams (QueryString.get p.queryString) =
      { userId := none
        userName := p.userName.map NonEmptyText.val
        groupId := none
        groupName := p.groupName.map NonEmptyText.val
        isRunning := p.isRunning
        partition := p.partition.map NonEmptyText.val
        numNodes := p.numNodes.map fun r =>
          { from_ := r.1.map SafeInteger.val, to_ := r.2.map SafeInteger.val }
        numTasks := p.numTasks.map fun r =>
          { from_ := r.1.map SafeInteger.val, to_ := r.2.map SafeInteger.val }
        numGpus := p.numGpus.map fun r =>
          { from_ := r.1.map SafeInteger.val, to_ := r.2.map SafeInteger.val }
        time := p.time.map fun r =>
          { from_ := r.1.map SafeInteger.val, to_ := r.2.map SafeInteger.val }
        tags := if p.tags.getD [] = [] then none
          else some ((p.tags.getD []).map fun n => { id := n.val }) } := by
  have hget := p.get_queryString
  simp only [parseGetJobParams, show "UserId" = SearchKey.UserId.name from rfl,
    show "UserName" = SearchKey.UserName.name from rfl,
    show "GroupId" = SearchKey.GroupId.name from rfl,
    show "GroupName" = SearchKey.GroupName.name from rfl,
    show "IsRunning" = SearchKey.IsRunning.name from rfl,
    show "Partition" = SearchKey.Partition.name from rfl,
    show "NumNodes" = SearchKey.NumNodes.name from rfl,
    show "NumTasks" = SearchKey.NumTasks.name from rfl,
    show "NumGpus" = SearchKey.NumGpus.name from rfl,
    show "Time" = SearchKey.Time.name from rfl, show "Tags" = SearchKey.Tags.name from rfl, hget,
    SearchValues.text, parseIdFilter_text, parseTextFilter_text, parse_range, parse_tags,
    parse_isRunning]

/-! ## When the filter asks for the same -/

/-- A filter of the backend stands for one of the frontend: it has its constraints and
no others, so that it selects the same jobs. -/
structure Denotes (p : SearchValues) (f : JobFilter) : Prop where
  asks : ∀ c, f.Asks c ↔ p.Asks c
  selects : ∀ s j, f.SatisfiedBy s j ↔ ∀ c, p.Asks c → c.Holds s j

theorem denotes_iff_asks {p : SearchValues} {f : JobFilter} :
    Denotes p f ↔ ∀ c, f.Asks c ↔ p.Asks c := by
  constructor
  · exact Denotes.asks
  · intro h
    refine ⟨h, fun s j => ?_⟩
    rw [satisfiedBy_iff_asks]
    exact forall_congr' fun c => imp_congr_left (h c)

/-- The constraints that are read: all but those on the two IDs. -/
theorem asks_parseGetJobParams_iff (p : JobSearchParams) (c : Constraint) :
    (parseGetJobParams (QueryString.get p.queryString)).Asks c ↔
      p.Asks c ∧ (∀ v, c ≠ .userId v) ∧ ∀ v, c ≠ .groupId v := by
  have hrange : ∀ column, (parseGetJobParams (QueryString.get p.queryString)).range column =
      (p.range column).map fun r =>
        { from_ := r.1.map SafeInteger.val, to_ := r.2.map SafeInteger.val } := by
    intro column
    rw [parseGetJobParams_queryString]
    cases column <;> rfl
  cases c with
  | userId v =>
    rw [parseGetJobParams_queryString]
    simp [JobFilter.Asks]
  | groupId v =>
    rw [parseGetJobParams_queryString]
    simp [JobFilter.Asks]
  | userName v =>
    rw [parseGetJobParams_queryString]
    simp [JobFilter.Asks, SearchValues.Asks]
  | groupName v =>
    rw [parseGetJobParams_queryString]
    simp [JobFilter.Asks, SearchValues.Asks]
  | isRunning v =>
    rw [parseGetJobParams_queryString]
    simp [JobFilter.Asks, SearchValues.Asks]
  | partition v =>
    rw [parseGetJobParams_queryString]
    simp [JobFilter.Asks, SearchValues.Asks]
  | atLeast column v =>
    simp [JobFilter.Asks, SearchValues.Asks, hrange]
  | atMost column v =>
    simp [JobFilter.Asks, SearchValues.Asks, hrange]
  | tag id =>
    rw [parseGetJobParams_queryString]
    cases htags : p.tags with
    | none => simp [JobFilter.Asks, SearchValues.Asks, htags]
    | some ids =>
      by_cases hne : ids = []
      · simp [JobFilter.Asks, SearchValues.Asks, htags, hne]
      · simp [JobFilter.Asks, SearchValues.Asks, htags, hne]

/-- **The filter that is read asks for what was written** exactly when no user ID and no
group ID was asked for. -/
theorem denotes_iff (p : JobSearchParams) :
    Denotes p.toSearchValues (parseGetJobParams (QueryString.get p.queryString)) ↔
      p.userId = none ∧ p.groupId = none := by
  rw [denotes_iff_asks]
  constructor
  · intro h
    constructor
    · cases huser : p.userId with
      | none => rfl
      | some n =>
        have hasked : p.Asks (.userId n.val) := ⟨n, huser, rfl⟩
        have hread := (asks_parseGetJobParams_iff p _).1 ((h _).2 hasked)
        exact absurd rfl (hread.2.1 n.val)
    · cases hgroup : p.groupId with
      | none => rfl
      | some n =>
        have hasked : p.Asks (.groupId n.val) := ⟨n, hgroup, rfl⟩
        have hread := (asks_parseGetJobParams_iff p _).1 ((h _).2 hasked)
        exact absurd rfl (hread.2.2 n.val)
  · rintro ⟨huser, hgroup⟩ c
    rw [asks_parseGetJobParams_iff]
    refine ⟨fun hc => hc.1, fun hc => ⟨hc, ?_, ?_⟩⟩
    · rintro v rfl
      obtain ⟨n, hn, -⟩ := hc
      rw [huser] at hn
      cases hn
    · rintro v rfl
      obtain ⟨n, hn, -⟩ := hc
      rw [hgroup] at hn
      cases hn

/-! ## A user ID -/

/-- The jobs of the user with ID 5. -/
def userFive : JobSearchParams :=
  { userId := some ⟨5, by decide, by decide⟩
    keys := [.UserId]
    complete := by
      intro k hk
      cases k with
      | UserId => decide
      | _ => exact absurd rfl hk }

/-- The ID is sent, and the filter that is read selects the jobs of everybody. -/
theorem userId_not_denotes :
    userFive.queryString = [("UserId", "5")] ∧
      ¬ Denotes userFive.toSearchValues
        (parseGetJobParams (QueryString.get userFive.queryString)) ∧
      parseGetJobParams (QueryString.get userFive.queryString) = {} := by
  have hread : parseGetJobParams (QueryString.get userFive.queryString) = {} := by decide
  refine ⟨by decide, fun h => ?_, hread⟩
  have hasked : userFive.Asks (.userId 5) := ⟨⟨5, by decide, by decide⟩, rfl, rfl⟩
  have hnone := (h.asks _).2 hasked
  rw [hread] at hnone
  cases hnone

end JobMon
