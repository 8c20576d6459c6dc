import JobMon.Lib.SqlText
import JobMon.Store.Own

/-!
# Searching

A search term goes into the text of a condition as it is, and what the database makes of
it depends on how that text is read.

* `userWhere`, `jobWhere`, `tagWhere` — the texts.
* `textSQL` — the answer to a search as the text is read, when it consists of `LIKE`
  conditions joined by `OR`; anything else is left to a parameter.
* `getUserWithJob_textSQL`, `getJobByString_textSQL`, `getJobTagsByName_textSQL` — terms
  without a quote are read as the searches say.
* `like_iff_contains` — a term without special characters is found where it is contained.
* `sampleOf` — a text that a pattern matches, and that is too short to contain the term.
* `findsLiterally_iff` — the searches find what contains the term exactly when it has none
  of the special characters.
* `special_terms_find_otherwise` — three terms that have them.
-/

namespace JobMon

namespace Store

/-! ## The conditions -/

/-- The condition of `GetUserWithJob`. -/
def userWhere (searchTerm : String) : String := "user_name LIKE '%" ++ searchTerm ++ "%'"

/-- The condition of `GetJobByString`. -/
def jobWhere (searchTerm : String) : String :=
  "CAST(job_metadata.id AS VARCHAR) LIKE '%" ++ searchTerm ++
    "%' OR job_metadata.job_name LIKE '%" ++ searchTerm ++
    "%' OR job_metadata.account LIKE '%" ++ searchTerm ++ "%'"

/-- The condition of `GetJobTagsByName`. -/
def tagWhere (searchTerm : String) : String := "job_tags.name LIKE '%" ++ searchTerm ++ "%'"

/-- The columns of `job_metadata` a condition may be about. -/
def jobColumns : List (List Char × (JobMetadata → String)) :=
  [("user_name".toList, JobMetadata.userName),
    ("CAST(job_metadata.id AS VARCHAR)".toList, fun j => toString j.id),
    ("job_metadata.job_name".toList, JobMetadata.jobName),
    ("job_metadata.account".toList, JobMetadata.account)]

/-- The columns of `job_tags` a condition may be about. -/
def tagColumns : List (List Char × (JobTag → String)) :=
  [("job_tags.name".toList, JobTag.name), ("job_tags.created_by".toList, JobTag.createdBy)]

variable {ρ : Type}

/-- One of the conditions holds of a row. -/
def anyLike (conditions : List ((ρ → String) × List Char)) (row : ρ) : Bool :=
  conditions.any fun condition => likeMatch (likeTokens condition.2) (condition.1 row).toList

/-- What the text of a condition says. -/
def readText (columns : List (List Char × (ρ → String))) (text : String) :
    Option (List ((ρ → String) × List Char)) :=
  SqlText.readWhere sqlQuote columns text.length text.toList

/-- The searches as their conditions are read; `sql` is for the texts that are not `LIKE`
conditions joined by `OR`. -/
def textSQL (sql : RawSQL) : RawSQL where
  jobs searchTerm username rows :=
    match readText jobColumns (jobWhere searchTerm) with
    | some conditions => some ((rows.filter fun j =>
        anyLike conditions j && (username = "" || decide (j.userName = username))).map rowOf)
    | none => sql.jobs searchTerm username rows
  tags searchTerm username rows :=
    match readText tagColumns (tagWhere searchTerm) with
    | some conditions => some (rows.filter fun t =>
        anyLike conditions t && (username = "" || decide (t.createdBy = username)))
    | none => sql.tags searchTerm username rows
  users searchTerm rows :=
    match readText jobColumns (userWhere searchTerm) with
    | some conditions => some ((rows.filter (anyLike conditions)).map JobMetadata.userName).dedup
    | none => sql.users searchTerm rows

/-! ## The texts, read -/

/-- The pattern around a search term. -/
def searchPattern (searchTerm : String) : List Char := '%' :: searchTerm.toList ++ ['%']

theorem anyLike_searchPattern (columns : List (ρ → String)) (searchTerm : String) :
    anyLike (columns.map fun column => (column, searchPattern searchTerm)) = fun row =>
      columns.any fun column => like searchTerm (column row) := by
  funext row
  rw [anyLike, List.any_map]
  rfl

section Read

open SqlText

theorem reads_userName : Reads sqlQuote jobColumns ("user_name".toList, JobMetadata.userName) :=
  .head _

theorem reads_id : Reads sqlQuote jobColumns
    ("CAST(job_metadata.id AS VARCHAR)".toList, fun j => toString j.id) :=
  .tail (.head _) (by decide) (by decide)

theorem reads_jobName : Reads sqlQuote jobColumns
    ("job_metadata.job_name".toList, JobMetadata.jobName) :=
  .tail (.tail (.head _) (by decide) (by decide)) (by decide) (by decide)

theorem reads_account : Reads sqlQuote jobColumns
    ("job_metadata.account".toList, JobMetadata.account) :=
  .tail (.tail (.tail (.head _) (by decide) (by decide)) (by decide) (by decide)) (by decide)
    (by decide)

theorem reads_tagName : Reads sqlQuote tagColumns ("job_tags.name".toList, JobTag.name) :=
  .head _

variable {searchTerm : String}

theorem not_mem_searchPattern (h : sqlQuote ∉ searchTerm.toList) :
    sqlQuote ∉ searchPattern searchTerm := by
  have hpercent : sqlQuote ≠ '%' := by decide
  simp [searchPattern, h, hpercent]

/-- A condition in the text of a search. -/
theorem conditionText_searchPattern (column : List Char) (searchTerm : String) :
    conditionText sqlQuote column (searchPattern searchTerm) =
      column ++ " LIKE ".toList ++ [sqlQuote, '%'] ++ searchTerm.toList ++ ['%', sqlQuote] := by
  simp only [conditionText, searchPattern, List.append_assoc, List.cons_append, List.nil_append]

theorem toList_around (before searchTerm after : String) :
    (before ++ searchTerm ++ after).toList =
      before.toList ++ searchTerm.toList ++ after.toList := by
  rw [String.toList_append, String.toList_append]

/-- A text with one condition. -/
theorem toList_oneColumn {before : String} {column : List Char}
    (hbefore : before.toList = column ++ " LIKE ".toList ++ [sqlQuote, '%'])
    (searchTerm : String) :
    (before ++ searchTerm ++ "%'").toList =
      whereText sqlQuote [(column, searchPattern searchTerm)] := by
  have hclose : "%'".toList = ['%', sqlQuote] := by decide
  rw [toList_around, hbefore, hclose, whereText, List.map_singleton, List.intercalate_singleton,
    conditionText_searchPattern]

theorem toList_userWhere (searchTerm : String) :
    (userWhere searchTerm).toList =
      whereText sqlQuote [("user_name".toList, searchPattern searchTerm)] :=
  toList_oneColumn (by decide) searchTerm

theorem toList_tagWhere (searchTerm : String) :
    (tagWhere searchTerm).toList =
      whereText sqlQuote [("job_tags.name".toList, searchPattern searchTerm)] :=
  toList_oneColumn (by decide) searchTerm

theorem toList_jobWhere (searchTerm : String) :
    (jobWhere searchTerm).toList =
      whereText sqlQuote
        [("CAST(job_metadata.id AS VARCHAR)".toList, searchPattern searchTerm),
          ("job_metadata.job_name".toList, searchPattern searchTerm),
          ("job_metadata.account".toList, searchPattern searchTerm)] := by
  have hopen : "CAST(job_metadata.id AS VARCHAR) LIKE '%".toList =
      "CAST(job_metadata.id AS VARCHAR)".toList ++ " LIKE ".toList ++ [sqlQuote, '%'] := by
    decide
  have hname : "%' OR job_metadata.job_name LIKE '%".toList =
      ['%', sqlQuote] ++ " OR ".toList ++ ("job_metadata.job_name".toList ++ " LIKE ".toList ++
        [sqlQuote, '%']) := by decide
  have haccount : "%' OR job_metadata.account LIKE '%".toList =
      ['%', sqlQuote] ++ " OR ".toList ++ ("job_metadata.account".toList ++ " LIKE ".toList ++
        [sqlQuote, '%']) := by decide
  have hclose : "%'".toList = ['%', sqlQuote] := by decide
  refine (toList_around _ _ _).trans ?_
  refine (congrArg (· ++ _ ++ _) (toList_around _ _ _)).trans ?_
  refine (congrArg (· ++ _ ++ _ ++ _ ++ _) (toList_around _ _ _)).trans ?_
  rw [hopen, hname, haccount, hclose, whereText]
  simp only [List.map_cons, List.map_nil, List.intercalate_cons_cons, List.intercalate_singleton,
    conditionText_searchPattern, List.append_assoc]

/-- The text of a search is read back when none of its patterns has a quote. -/
theorem readText_of_whereText {columns : List (List Char × (ρ → String))} {text : String}
    (conditions : List ((List Char × (ρ → String)) × List Char)) (hne : conditions ≠ [])
    (htext : text.toList = whereText sqlQuote (conditions.map fun c => (c.1.1, c.2)))
    (h : ∀ c ∈ conditions, Reads sqlQuote columns c.1 ∧ sqlQuote ∉ c.2) :
    readText columns text = some (conditions.map fun c => (c.1.2, c.2)) := by
  have hlength := length_le_whereText (q := sqlQuote) (conditions.map fun c => (c.1.1, c.2))
  rw [← htext, List.length_map, String.length_toList] at hlength
  rw [readText, htext]
  exact readWhere_whereText (by decide) hne h hlength

variable (hquote : sqlQuote ∉ searchTerm.toList)

include hquote

theorem readText_oneColumn {columns : List (List Char × (ρ → String))} {name : List Char}
    {column : ρ → String} {text : String}
    (htext : text.toList = whereText sqlQuote [(name, searchPattern searchTerm)])
    (hreads : Reads sqlQuote columns (name, column)) :
    readText columns text =
      some ([column].map fun column => (column, searchPattern searchTerm)) := by
  refine readText_of_whereText [((name, column), searchPattern searchTerm)] (List.cons_ne_nil _ _)
    htext ?_
  intro c hc
  obtain rfl := List.mem_singleton.1 hc
  exact ⟨hreads, not_mem_searchPattern hquote⟩

theorem readText_userWhere :
    readText jobColumns (userWhere searchTerm) =
      some ([JobMetadata.userName].map fun column => (column, searchPattern searchTerm)) :=
  readText_oneColumn hquote (toList_userWhere searchTerm) reads_userName

theorem readText_tagWhere :
    readText tagColumns (tagWhere searchTerm) =
      some ([JobTag.name].map fun column => (column, searchPattern searchTerm)) :=
  readText_oneColumn hquote (toList_tagWhere searchTerm) reads_tagName

theorem readText_jobWhere :
    readText jobColumns (jobWhere searchTerm) =
      some ([fun j => toString j.id, JobMetadata.jobName, JobMetadata.account].map fun column =>
        (column, searchPattern searchTerm)) := by
  refine readText_of_whereText
    [(("CAST(job_metadata.id AS VARCHAR)".toList, fun j => toString j.id),
        searchPattern searchTerm),
      (("job_metadata.job_name".toList, JobMetadata.jobName), searchPattern searchTerm),
      (("job_metadata.account".toList, JobMetadata.account), searchPattern searchTerm)]
    (List.cons_ne_nil _ _) (toList_jobWhere searchTerm) ?_
  have hpattern := not_mem_searchPattern hquote
  intro c hc
  simp only [List.mem_cons, List.not_mem_nil, or_false] at hc
  rcases hc with rfl | rfl | rfl
  · exact ⟨reads_id, hpattern⟩
  · exact ⟨reads_jobName, hpattern⟩
  · exact ⟨reads_account, hpattern⟩

end Read

/-! ## The searches are what their texts say -/

theorem dedup_filter {α : Type} [DecidableEq α] (p : α → Bool) (l : List α) :
    l.dedup.filter p = (l.filter p).dedup := by
  induction l with
  | nil => rfl
  | cons a l ih =>
    by_cases hmem : a ∈ l
    · rw [List.dedup_cons_of_mem hmem, ih]
      by_cases hp : p a = true
      · rw [List.filter_cons_of_pos hp, List.dedup_cons_of_mem (List.mem_filter.2 ⟨hmem, hp⟩)]
      · rw [List.filter_cons_of_neg hp]
    · rw [List.dedup_cons_of_notMem hmem]
      by_cases hp : p a = true
      · rw [List.filter_cons_of_pos hp, List.filter_cons_of_pos hp, ih, List.dedup_cons_of_notMem]
        exact fun hmem' => hmem (List.mem_filter.1 hmem').1
      · rw [List.filter_cons_of_neg hp, List.filter_cons_of_neg hp, ih]

theorem getUserWithJob_textSQL (sql : RawSQL) (s : Store) (searchTerm : String) :
    s.getUserWithJob (textSQL sql) searchTerm =
      (textSQL sql).users searchTerm s.jobMetadata.rows := by
  rw [getUserWithJob]
  split
  · rfl
  · next hquote =>
    have hread := readText_userWhere (Go.containsChar_eq_false_iff.1 (eq_false_of_ne_true hquote))
    simp only [textSQL, hread, dedup_filter, List.filter_map, Function.comp_def,
      anyLike_searchPattern, List.any_cons, List.any_nil, Bool.or_false]

theorem getJobByString_textSQL (sql : RawSQL) (s : Store) (searchTerm username : String) :
    s.getJobByString (textSQL sql) searchTerm username =
      (textSQL sql).jobs searchTerm username s.jobMetadata.rows := by
  rw [getJobByString]
  split
  · rfl
  · next hquote =>
    have hread := readText_jobWhere (Go.containsChar_eq_false_iff.1 (eq_false_of_ne_true hquote))
    simp only [textSQL, hread, anyLike_searchPattern, List.any_cons, List.any_nil, Bool.or_false,
      Bool.or_assoc]

theorem getJobTagsByName_textSQL (sql : RawSQL) (s : Store) (searchTerm username : String) :
    s.getJobTagsByName (textSQL sql) searchTerm username =
      (textSQL sql).tags searchTerm username s.jobTags.rows := by
  rw [getJobTagsByName]
  split
  · rfl
  · next hquote =>
    have hread := readText_tagWhere (Go.containsChar_eq_false_iff.1 (eq_false_of_ne_true hquote))
    simp only [textSQL, hread, anyLike_searchPattern, List.any_cons, List.any_nil, Bool.or_false]

/-! ## Something that a pattern matches -/

/-- A text that the pattern matches. -/
def sampleOf : List LikeToken → List Char
  | [] => []
  | .anyText :: ts => sampleOf ts
  | .anyChar :: ts => 'a' :: sampleOf ts
  | .char c :: ts => c :: sampleOf ts

theorem likeMatch_sampleOf (ts : List LikeToken) : likeMatch ts (sampleOf ts) = true := by
  induction ts with
  | nil => rfl
  | cons t ts ih =>
    cases t with
    | anyText =>
      rw [likeMatch, List.any_eq_true]
      exact ⟨sampleOf ts, by simp [sampleOf], ih⟩
    | anyChar => exact ih
    | char c => simp [likeMatch, sampleOf, ih]

/-- It is no longer than the pattern. -/
theorem length_sampleOf_le (cs : List Char) : (sampleOf (likeTokens cs)).length ≤ cs.length := by
  induction cs using likeTokens.induct with
  | case1 => simp [likeTokens, sampleOf]
  | case2 => simp [likeTokens, sampleOf]
  | case3 => simp [likeTokens, sampleOf]
  | case4 c hpercent hunderscore => simp [likeTokens, hpercent, hunderscore, sampleOf]
  | case5 d cs ih =>
    simp only [likeTokens, if_true, sampleOf, List.length_cons]
    omega
  | case6 d cs hescape ih =>
    simp only [likeTokens, hescape, if_false, if_true, sampleOf, List.length_cons] at ih ⊢
    omega
  | case7 d cs hescape hpercent ih =>
    simp only [likeTokens, hescape, hpercent, if_false, if_true, sampleOf, List.length_cons] at ih ⊢
    omega
  | case8 c d cs hescape hpercent hunderscore ih =>
    simp only [likeTokens, hescape, hpercent, hunderscore, if_false, sampleOf,
      List.length_cons] at ih ⊢
    omega

/-- The sample for a term is no longer than the term, and not the term itself when that has
special characters. -/
theorem sampleOf_searchTerm (cs : List Char) :
    (sampleOf (likeTokens (cs ++ ['%']))).length ≤ cs.length ∧
      (sampleOf (likeTokens (cs ++ ['%'])) = cs → ∀ c ∈ cs, c ∉ likeSpecial) := by
  induction cs using likeTokens.induct with
  | case1 => simp [likeTokens, sampleOf]
  | case2 => exact ⟨by decide, fun heq => absurd heq (by decide)⟩
  | case3 => exact ⟨by decide, fun heq => absurd heq (by decide)⟩
  | case4 c hpercent hunderscore =>
    by_cases hescape : c = likeEscape
    · subst hescape
      refine ⟨by simp [likeTokens, sampleOf], fun heq => ?_⟩
      simp [likeTokens, sampleOf] at heq
      exact absurd heq (by decide)
    · simp [likeTokens, hescape, hpercent, hunderscore, sampleOf, likeSpecial]
  | case5 d cs ih =>
    rw [List.cons_append, List.cons_append, likeTokens, if_pos rfl, sampleOf]
    refine ⟨?_, fun heq => ?_⟩
    · simp only [List.length_cons]
      omega
    · have hlength := congrArg List.length heq
      simp only [List.length_cons] at hlength
      omega
  | case6 d cs hescape ih =>
    rw [List.cons_append, likeTokens_percent, sampleOf]
    refine ⟨ih.1.trans (Nat.le_succ _), fun heq => ?_⟩
    have hlength := congrArg List.length heq
    simp only [List.length_cons] at hlength ih
    omega
  | case7 d cs hescape hpercent ih =>
    rw [List.cons_append, List.cons_append, likeTokens, if_neg hescape, if_neg hpercent, if_pos rfl,
      ← List.cons_append, sampleOf]
    refine ⟨Nat.succ_le_succ ih.1, fun heq => ?_⟩
    exact absurd (List.cons.inj heq).1 (by decide)
  | case8 c d cs hescape hpercent hunderscore ih =>
    have hc : c ∉ likeSpecial := by simp [likeSpecial, hescape, hpercent, hunderscore]
    rw [List.cons_append, likeTokens_cons hc, sampleOf]
    refine ⟨Nat.succ_le_succ ih.1, fun heq => ?_⟩
    intro c' hc'
    rcases List.mem_cons.1 hc' with rfl | hc'
    · exact hc
    · exact ih.2 (List.cons.inj heq).2 c' hc'

/-! ## Literal matches -/

/-- The term is part of the text, as it is. -/
def Contains (text searchTerm : String) : Prop := searchTerm.toList <:+: text.toList

/-- The searches find exactly what contains the term. -/
structure FindsLiterally (sql : RawSQL) (searchTerm : String) : Prop where
  users : ∀ s : Store, ∃ names, s.getUserWithJob sql searchTerm = some names ∧ names.Nodup ∧
    ∀ name, name ∈ names ↔
      (∃ j ∈ s.jobMetadata.rows, j.userName = name) ∧ Contains name searchTerm
  jobs : ∀ (s : Store) (username : String),
    ∃ jobs, s.getJobByString sql searchTerm username = some jobs ∧ jobs.Nodup ∧
      ∀ job, job ∈ jobs ↔ ∃ j ∈ s.jobMetadata.rows, rowOf j = job ∧
        (username = "" ∨ j.userName = username) ∧
        (Contains (toString j.id) searchTerm ∨ Contains j.jobName searchTerm ∨
          Contains j.account searchTerm)
  tags : ∀ (s : Store) (username : String),
    ∃ tags, s.getJobTagsByName sql searchTerm username = some tags ∧ tags.Nodup ∧
      ∀ tag, tag ∈ tags ↔ tag ∈ s.jobTags.rows ∧ (username = "" ∨ tag.createdBy = username) ∧
        Contains tag.name searchTerm

/-- A term without the characters that end a literal or mean something in a pattern. -/
def LiteralTerm (searchTerm : String) : Prop :=
  ∀ c ∈ searchTerm.toList, c ≠ sqlQuote ∧ c ∉ likeSpecial

section Literal

variable {searchTerm : String} (h : LiteralTerm searchTerm)

include h

theorem LiteralTerm.containsChar : Go.containsChar searchTerm sqlQuote = false :=
  Go.containsChar_eq_false_iff.2 fun hmem => (h _ hmem).1 rfl

theorem LiteralTerm.like_iff (column : String) :
    like searchTerm column = true ↔ Contains column searchTerm :=
  like_iff_contains (fun c hc => (h c hc).2) column

theorem LiteralTerm.users (sql : RawSQL) (s : Store) :
    ∃ names, s.getUserWithJob sql searchTerm = some names ∧ names.Nodup ∧
      ∀ name, name ∈ names ↔
        (∃ j ∈ s.jobMetadata.rows, j.userName = name) ∧ Contains name searchTerm := by
  refine ⟨_, by rw [getUserWithJob, h.containsChar, if_neg Bool.false_ne_true], ?_, fun name => ?_⟩
  · exact (List.nodup_dedup _).filter _
  · rw [List.mem_filter, List.mem_dedup, List.mem_map, h.like_iff]

theorem LiteralTerm.jobs (sql : RawSQL) (s : Store) (username : String) :
    ∃ jobs, s.getJobByString sql searchTerm username = some jobs ∧ jobs.Nodup ∧
      ∀ job, job ∈ jobs ↔ ∃ j ∈ s.jobMetadata.rows, rowOf j = job ∧
        (username = "" ∨ j.userName = username) ∧
        (Contains (toString j.id) searchTerm ∨ Contains j.jobName searchTerm ∨
          Contains j.account searchTerm) := by
  refine ⟨_, by rw [getJobByString, h.containsChar, if_neg Bool.false_ne_true], ?_, fun job => ?_⟩
  · -- rows keep their keys
    refine List.Nodup.of_map JobMetadata.id ?_
    rw [List.map_map]
    exact (List.filter_sublist.map _).nodup s.jobMetadata.nodup
  · simp only [List.mem_map, List.mem_filter, Bool.and_eq_true, Bool.or_eq_true, h.like_iff,
      decide_eq_true_eq]
    refine exists_congr fun j => ?_
    constructor
    · rintro ⟨⟨hrow, hfound, hname⟩, hjob⟩
      exact ⟨hrow, hjob, hname, or_assoc.1 hfound⟩
    · rintro ⟨hrow, hjob, hname, hfound⟩
      exact ⟨⟨hrow, or_assoc.2 hfound, hname⟩, hjob⟩

theorem LiteralTerm.tags (sql : RawSQL) (s : Store) (username : String) :
    ∃ tags, s.getJobTagsByName sql searchTerm username = some tags ∧ tags.Nodup ∧
      ∀ tag, tag ∈ tags ↔ tag ∈ s.jobTags.rows ∧ (username = "" ∨ tag.createdBy = username) ∧
        Contains tag.name searchTerm := by
  refine ⟨_, by rw [getJobTagsByName, h.containsChar, if_neg Bool.false_ne_true], ?_, fun tag => ?_⟩
  · exact (List.Nodup.of_map _ s.jobTags.nodup).filter _
  · simp only [List.mem_filter, Bool.and_eq_true, Bool.or_eq_true, h.like_iff, decide_eq_true_eq]
    exact and_congr_right fun _ => and_comm

end Literal

/-! ## Terms with special characters -/

/-- A database that refuses what it cannot read. -/
def refusing : RawSQL where
  jobs _ _ _ := none
  tags _ _ _ := none
  users _ _ := none

/-- A store with a job of one user. -/
def oneUser (username : String) : Store :=
  { jobMetadata := ⟨[{ userName := username }], List.nodup_singleton _⟩ }

/-- A pattern that begins with a wildcard and is otherwise short matches a text that does
not contain the term. -/
theorem exists_sample {searchTerm : String} {pattern : List Char}
    (h : (sampleOf (likeTokens pattern)).length < searchTerm.toList.length ∨
      (sampleOf (likeTokens pattern)).length = searchTerm.toList.length ∧
        sampleOf (likeTokens pattern) ≠ searchTerm.toList) :
    ∃ name : String, likeMatch (likeTokens ('%' :: pattern)) name.toList = true ∧
      ¬ Contains name searchTerm := by
  refine ⟨String.ofList (sampleOf (likeTokens pattern)), ?_, fun hcontains => ?_⟩
  · rw [String.toList_ofList, likeTokens_percent]
    exact likeMatch_sampleOf (.anyText :: likeTokens pattern)
  · rw [Contains, String.toList_ofList] at hcontains
    rcases h with hlt | ⟨heq, hne⟩
    · exact absurd hcontains.length_le (Nat.not_le.2 hlt)
    · exact hne (hcontains.eq_of_length heq.symm).symm

/-- What is read from the text of a user search with a quote in the term starts with a
short pattern. -/
theorem exists_short_pattern {searchTerm : String} (hquote : sqlQuote ∈ searchTerm.toList)
    {conditions : List ((JobMetadata → String) × List Char)}
    (h : readText jobColumns (userWhere searchTerm) = some conditions) :
    ∃ pattern, (JobMetadata.userName, '%' :: pattern) ∈ conditions ∧
      (sampleOf (likeTokens pattern)).length < searchTerm.toList.length := by
  obtain ⟨condition, rest, hread, hmem⟩ := SqlText.readCondition_of_readWhere h
  have htext : (userWhere searchTerm).toList =
      "user_name".toList ++ " LIKE ".toList ++ [sqlQuote] ++
        ('%' :: (searchTerm.toList ++ '%' :: sqlQuote :: [])) := by
    rw [toList_userWhere, SqlText.whereText, List.map_singleton, List.intercalate_singleton,
      conditionText_searchPattern]
    simp only [List.append_assoc, List.cons_append, List.nil_append]
  rw [htext, reads_userName, SqlText.readLiteral_cons (by decide) (by simp), Option.map_map,
    Option.map_eq_some_iff] at hread
  obtain ⟨⟨pattern, rest'⟩, hliteral, heq⟩ := hread
  cases heq
  refine ⟨pattern, hmem, ?_⟩
  rcases SqlText.readLiteral_of_mem (by decide) (by simp) hquote hliteral with
    hshort | ⟨u, hshort, rfl⟩
  · exact (length_sampleOf_le pattern).trans_lt hshort
  · exact (sampleOf_searchTerm u).1.trans_lt hshort

/-- A user is found who should not be, or the search fails. -/
theorem not_finds_of_special {searchTerm : String} (h : ¬ LiteralTerm searchTerm) :
    ¬ FindsLiterally (textSQL refusing) searchTerm := by
  intro hfinds
  by_cases hquote : sqlQuote ∈ searchTerm.toList
  · cases hread : readText jobColumns (userWhere searchTerm) with
    | none =>
      obtain ⟨names, hnames, -⟩ := hfinds.users {}
      rw [getUserWithJob_textSQL] at hnames
      simp [textSQL, hread, refusing] at hnames
    | some conditions =>
      obtain ⟨pattern, hpattern, hshort⟩ := exists_short_pattern hquote hread
      obtain ⟨name, hmatch, hnot⟩ := exists_sample (.inl hshort)
      obtain ⟨names, hnames, -, hmem⟩ := hfinds.users (oneUser name)
      rw [getUserWithJob_textSQL] at hnames
      simp only [textSQL, hread, Option.some.injEq] at hnames
      refine hnot ((hmem name).1 ?_).2
      rw [← hnames, List.mem_dedup, List.mem_map]
      refine ⟨{ userName := name }, List.mem_filter.2 ⟨List.mem_singleton_self _, ?_⟩, rfl⟩
      exact List.any_eq_true.2 ⟨_, hpattern, hmatch⟩
  · have hspecial : ¬ ∀ c ∈ searchTerm.toList, c ∉ likeSpecial := fun hplain =>
      h fun c hc => ⟨fun heq => hquote (heq ▸ hc), hplain c hc⟩
    obtain ⟨hle, heq⟩ := sampleOf_searchTerm searchTerm.toList
    have hsample : (sampleOf (likeTokens (searchTerm.toList ++ ['%']))).length <
          searchTerm.toList.length ∨
        (sampleOf (likeTokens (searchTerm.toList ++ ['%']))).length = searchTerm.toList.length ∧
          sampleOf (likeTokens (searchTerm.toList ++ ['%'])) ≠ searchTerm.toList := by
      rcases hle.lt_or_eq with hlt | hlength
      · exact .inl hlt
      · exact .inr ⟨hlength, fun hself => hspecial (heq hself)⟩
    obtain ⟨name, hmatch, hnot⟩ := exists_sample hsample
    obtain ⟨names, hnames, -, hmem⟩ := hfinds.users (oneUser name)
    rw [getUserWithJob, Go.containsChar_eq_false_iff.2 hquote, if_neg Bool.false_ne_true,
      Option.some.injEq] at hnames
    refine hnot ((hmem name).1 ?_).2
    rw [← hnames, List.mem_filter, List.mem_dedup]
    exact ⟨List.mem_singleton_self _, hmatch⟩

/-- **The searches find exactly what contains the term, whatever the database makes of
other statements, if and only if the term has none of the special characters.** -/
theorem findsLiterally_iff (searchTerm : String) :
    (∀ sql, FindsLiterally (textSQL sql) searchTerm) ↔ LiteralTerm searchTerm := by
  constructor
  · intro hfinds
    by_contra hspecial
    exact not_finds_of_special hspecial (hfinds refusing)
  · intro h sql
    exact ⟨h.users (textSQL sql), h.jobs (textSQL sql), h.tags (textSQL sql)⟩

/-- **Three terms with special characters.**  An underscore matches any character, a quote
adds a condition that holds of every user, and a user with a quote in the name is not
found. -/
theorem special_terms_find_otherwise :
    ((oneUser "axb").getUserWithJob (textSQL refusing) "a_b" = some ["axb"] ∧
      ¬ Contains "axb" "a_b") ∧
    ((oneUser "bob").getUserWithJob (textSQL refusing) "x' OR user_name LIKE '" = some ["bob"] ∧
      ¬ Contains "bob" "x' OR user_name LIKE '") ∧
    ((oneUser "o'neil").getUserWithJob (textSQL refusing) "o'neil" = none ∧
      Contains "o'neil" "o'neil") ∧
    ¬ ∀ searchTerm sql, FindsLiterally (textSQL sql) searchTerm := by
  have hunderscore :
      (oneUser "axb").getUserWithJob (textSQL refusing) "a_b" = some ["axb"] := by decide
  have hnot : ¬ Contains "axb" "a_b" := by
    unfold Contains
    decide
  refine ⟨⟨hunderscore, hnot⟩, ⟨by decide, ?_⟩, ⟨by decide, List.infix_refl _⟩, fun hfinds => ?_⟩
  · unfold Contains
    decide
  · obtain ⟨names, hnames, -, hmem⟩ := (hfinds "a_b" refusing).users (oneUser "axb")
    rw [hunderscore, Option.some.injEq] at hnames
    exact hnot ((hmem "axb").1 (hnames ▸ List.mem_singleton_self _)).2

end Store

end JobMon
