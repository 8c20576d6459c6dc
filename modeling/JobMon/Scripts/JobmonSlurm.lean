import JobMon.Lib.Regex
import JobMon.Router.FollowUp
import JobMon.Router.Unmarshal

/-!
# The script that reports jobs

`scripts/jobmon_slurm`, which Slurm runs before and after every job: it puts what it finds
into a JSON text and sends that to the backend.

* `bashRematch`, `arithmetic` — numbers found in what `scontrol` prints.
* `nodelistCsv`, `jobName` — the list of nodes, and the name with quotes and backslashes
  escaped.
* `prologData`, `epilogData`, `request` — the texts, and the request that is sent.
* `Reportable` — numbers without leading zeros, and no control characters in the name.
* `report_roundTrip` — **a job arrives as it is** exactly when it can be reported, and is refused
  otherwise.
-/

namespace JobMon

open JsonText

namespace JobmonSlurm

/-! ## What the script finds -/

/-- The variables Slurm sets, what `scontrol` prints, and the time in seconds. -/
structure Variables where
  slurmJobId : String
  slurmJobUser : String
  slurmJobUid : String
  slurmJobGroup : String
  slurmJobGid : String
  slurmJobAccount : String
  slurmJobName : String
  slurmClusterName : String
  slurmJobPartition : String
  slurmJobExitCode : String
  jobDetails : String
  nodelistArray : List String
  date : String

/-- `[[:space:]]`. -/
def space : Regex Char := .cls fun c => c = ' ' || (9 ≤ c.toNat && c.toNat ≤ 13)

/-- `[[:digit:]]+`. -/
def digits : Regex Char := Regex.plus (.cls Go.isDigit)

/-- The characters one after the other, and then the rest. -/
def literal : List Char → Regex Char → Regex Char
  | [], r => r
  | c :: cs, r => .seq (.cls (· = c)) (literal cs r)

def regexNumNodes : Regex Char :=
  .seq (.alt .bos space) (literal "NumNodes=".toList (.seq digits (.alt space .eos)))

def regexNumTasks : Regex Char :=
  .seq (.alt .bos space) (literal "NumTasks=".toList (.seq digits (.alt space .eos)))

def regexTasksPerNode : Regex Char :=
  .seq (.alt .bos space)
    (literal "NtasksPerN:B:S:C=".toList (.seq digits (.cls (· = ':'))))

def regexGpusPerNode : Regex Char :=
  .seq (.alt .bos space) (literal "GRES=gpu:".toList (.seq digits (.cls (· = '('))))

/-- The second group of a match: the digits, for nothing else in one of these matches is a
digit. -/
def bashRematch (r : Regex Char) (s : String) : Option (List Char) :=
  (r.exec s.toList).map fun m => m.filter Go.isDigit

/-- There are only digits. -/
def Digits (cs : List Char) : Prop := ∀ c ∈ cs, Go.isDigit c = true

instance (cs : List Char) : Decidable (Digits cs) := List.decidableBAll _ cs

/-- A number in 64 bits. -/
def wrap (n : ℤ) : ℤ := (n + 2 ^ 63) % 2 ^ 64 - 2 ^ 63

/-- The value of a variable of integers; digits behind a zero are octal.
`none`: a digit is too great for that, and nothing is sent. -/
def arithmetic (ds : List Char) : Option ℤ :=
  if ds.head? = some '0' then
    if ds.all (· < '8') then
      some (wrap (ds.foldl (fun n d => 8 * n + (d.toNat - 48)) 0 : ℕ))
    else none
  else some (wrap (Go.digitsVal ds))

/-- `${text//c/by}`. -/
def replaceAll (c : Char) (new : List Char) (cs : List Char) : List Char :=
  cs.flatMap fun d => if d = c then new else [d]

/-- `printf '%s|'` of the nodes; without a node one bar is printed. -/
def printBars : List String → List Char
  | [] => ['|']
  | node :: nodes => (node :: nodes).flatMap fun node => node.toList ++ ['|']

/-- `${text%|}`. -/
def withoutLastBar (cs : List Char) : List Char :=
  if cs.getLast? = some '|' then cs.dropLast else cs

/-- `NODELIST_CSV`. -/
def nodelistCsv (nodes : List String) : String := String.ofList (withoutLastBar (printBars nodes))

namespace Variables

variable (e : Variables)

/-- A variable that is not set is empty. -/
def numNodes : List Char := (bashRematch regexNumNodes e.jobDetails).getD []

def numTasks : List Char := (bashRematch regexNumTasks e.jobDetails).getD []

def tasksPerNode : List Char := (bashRematch regexTasksPerNode e.jobDetails).getD []

def gpusPerNode : Option ℤ :=
  match bashRematch regexGpusPerNode e.jobDetails with
  | none => some 0
  | some ds => arithmetic ds

/-- `JOB_NAME`. -/
def jobName : List Char :=
  replaceAll quote [backslash, quote]
    (replaceAll backslash [backslash, backslash] e.slurmJobName.toList)

/-- A value between quotes, as it is. -/
def between (cs : List Char) : List Char := quote :: cs ++ [quote]

/-- The members of the text of a job that starts. -/
def prologMembers (gpus : ℤ) : List (List Char × List Char) :=
  [("Id".toList, e.slurmJobId.toList),
    ("userName".toList, between e.slurmJobUser.toList),
    ("userId".toList, e.slurmJobUid.toList),
    ("groupName".toList, between e.slurmJobGroup.toList),
    ("groupId".toList, e.slurmJobGid.toList),
    ("account".toList, between e.slurmJobAccount.toList),
    ("jobName".toList, between e.jobName),
    ("clusterId".toList, between e.slurmClusterName.toList),
    ("partition".toList, between e.slurmJobPartition.toList),
    ("numNodes".toList, e.numNodes),
    ("numTasks".toList, e.numTasks),
    ("tasksPerNode".toList, e.tasksPerNode),
    ("GPUsPerNode".toList, (toString gpus).toList),
    ("startTime".toList, e.date.toList ++ [' ']),
    ("nodeList".toList, between (nodelistCsv e.nodelistArray).toList),
    ("isRunning".toList, "true".toList),
    ("jobScript".toList, between "noJobSript".toList),
    ("projectId".toList, between "noProject".toList)]

/-- `DATA` of a job that starts. -/
def prologData (gpus : ℤ) : String := String.ofList (objectText 23 17 (e.prologMembers gpus))

/-- The members of the text of a job that has ended. -/
def epilogMembers : List (List Char × List Char) :=
  [("exitCode".toList, e.slurmJobExitCode.toList), ("stopTime".toList, e.date.toList)]

/-- `DATA` of a job that has ended. -/
def epilogData : String := String.ofList (objectText 24 20 e.epilogMembers)

/-- `KMS_slurm`: the request that is sent, if any. -/
def request (tags : JsonText.Value → Option (List JobTag))
    (data : JsonText.Value → Option (List JobMetadataData)) (slurmScriptContext : String) :
    Option Request :=
  e.gpusPerNode.bind fun gpus =>
    if slurmScriptContext = "prolog_slurmctld" then
      some (.jobStart (jobMetadataBody tags data (e.prologData gpus)))
    else if slurmScriptContext = "epilog_slurmctld" then
      some (.jobStop e.slurmJobId (stopJobBody e.epilogData))
    else none

/-- What holds of the variables: Slurm writes numbers with digits, and the names it has been
configured with, those of users and of nodes need no escapes. -/
structure Proper : Prop where
  digits : ∀ s ∈ [e.slurmJobId, e.slurmJobUid, e.slurmJobGid, e.slurmJobExitCode, e.date],
    Digits s.toList
  plain : ∀ s ∈ [e.slurmJobUser, e.slurmJobGroup, e.slurmJobAccount, e.slurmClusterName,
    e.slurmJobPartition], Plain s.toList
  nodes : ∀ node ∈ e.nodelistArray, Plain node.toList

/-- The job as it is. -/
def job (gpus : ℤ) : JobMetadata :=
  { id := Go.digitsVal e.slurmJobId.toList
    userName := e.slurmJobUser
    userId := Go.digitsVal e.slurmJobUid.toList
    groupName := e.slurmJobGroup
    groupId := Go.digitsVal e.slurmJobGid.toList
    account := e.slurmJobAccount
    jobName := e.slurmJobName
    clusterId := e.slurmClusterName
    partition := e.slurmJobPartition
    numNodes := Go.digitsVal e.numNodes
    numTasks := Go.digitsVal e.numTasks
    tasksPerNode := Go.digitsVal e.tasksPerNode
    gpusPerNode := gpus
    startTime := Go.digitsVal e.date.toList
    nodeList := "|".intercalate e.nodelistArray
    isRunning := true
    jobScript := "noJobSript" }

/-- How it ended. -/
def stop : StopJob :=
  { exitCode := Go.digitsVal e.slurmJobExitCode.toList
    stopTime := Go.digitsVal e.date.toList }

/-- The numbers in the text of a job that starts; those that were not found are empty. -/
def prologNumbers : List (List Char) :=
  [e.slurmJobId.toList, e.slurmJobUid.toList, e.slurmJobGid.toList, e.numNodes, e.numTasks,
    e.tasksPerNode, e.date.toList]

/-- The start of the job can be reported. -/
structure Reportable : Prop where
  numbers : ∀ cs ∈ e.prologNumbers, IsIntText cs
  name : Clear e.slurmJobName.toList

/-- The end of the job can be reported. -/
def EndReportable : Prop :=
  IsIntText e.slurmJobExitCode.toList ∧ IsIntText e.date.toList

instance : Decidable e.Reportable :=
  decidable_of_iff ((∀ cs ∈ e.prologNumbers, IsIntText cs) ∧
    Clear e.slurmJobName.toList) ⟨fun h => ⟨h.1, h.2⟩, fun h => ⟨h.1, h.2⟩⟩

instance : Decidable e.EndReportable := inferInstanceAs (Decidable (_ ∧ _))

end Variables

/-! ## Texts -/

/-- Escaping backslashes and then quotes is escaping both. -/
theorem replaceAll_eq_escape (cs : List Char) :
    replaceAll quote [backslash, quote] (replaceAll backslash [backslash, backslash] cs) =
      escape cs := by
  rw [replaceAll, replaceAll, List.flatMap_assoc, escape]
  refine congrArg (fun f => List.flatMap f cs) (funext fun c => ?_)
  by_cases hbackslash : c = backslash
  · subst hbackslash
    rfl
  · by_cases hquote : c = quote
    · subst hquote
      rfl
    · simp [hbackslash, hquote]

theorem withoutLastBar_append (cs : List Char) : withoutLastBar (cs ++ ['|']) = cs := by
  simp [withoutLastBar]

theorem printBars_eq (nodes : List String) :
    printBars nodes = ['|'].intercalate (nodes.map String.toList) ++ ['|'] := by
  have hcons : ∀ (node : String) (nodes : List String), printBars (node :: nodes) =
      ['|'].intercalate ((node :: nodes).map String.toList) ++ ['|'] := by
    intro node nodes
    induction nodes generalizing node with
    | nil => simp [printBars]
    | cons node' nodes ih =>
      have hrest : ((node' :: nodes).flatMap fun node => node.toList ++ ['|']) =
          ['|'].intercalate ((node' :: nodes).map String.toList) ++ ['|'] := ih node'
      rw [printBars, List.flatMap_cons, hrest]
      simp
  cases nodes with
  | nil => rfl
  | cons node nodes => exact hcons node nodes

/-- The nodes with bars between them. -/
theorem nodelistCsv_eq (nodes : List String) : nodelistCsv nodes = "|".intercalate nodes := by
  refine String.toList_inj.1 ?_
  rw [String.toList_intercalate, nodelistCsv, String.toList_ofList, printBars_eq,
    withoutLastBar_append]
  rfl

theorem plain_nodelistCsv {nodes : List String} (h : ∀ node ∈ nodes, Plain node.toList) :
    Plain (nodelistCsv nodes).toList := by
  rw [nodelistCsv_eq, String.toList_intercalate]
  intro c hc
  by_cases hbar : c = '|'
  · subst hbar
    decide
  · have hmem : c ∈ ['|'].intercalate (nodes.map String.toList) := hc
    rw [Go.mem_intercalate_iff hbar] at hmem
    obtain ⟨node, hnode, hc⟩ := hmem
    obtain ⟨node', hnode', rfl⟩ := List.mem_map.1 hnode
    exact h node' hnode' c hc

theorem isWordChar_of_isDigit {c : Char} (h : Go.isDigit c = true) : isWordChar c = true := by
  simp [isWordChar, Char.isAlphanum, isDigit_eq, h]

/-! ## Members -/

theorem written_word {key cs : List Char} (hkey : Clear key)
    (h : ∀ c ∈ cs, isWordChar c = true) : Written (key, cs) (key, wordToken cs) := by
  refine ⟨rfl, hkey, ?_⟩
  simpa using spelling_wordToken h 0

theorem written_digits {key cs : List Char} (hkey : Clear key)
    (h : Digits cs) : Written (key, cs) (key, wordToken cs) :=
  written_word hkey fun c hc => isWordChar_of_isDigit (h c hc)

/-- A number with a blank behind it. -/
theorem written_spaced {key cs : List Char} (hkey : Clear key)
    (h : Digits cs) : Written (key, cs ++ [' ']) (key, wordToken cs) :=
  ⟨rfl, hkey, spelling_wordToken (fun c hc => isWordChar_of_isDigit (h c hc)) 1⟩

theorem written_between {key cs : List Char} (hkey : Clear key)
    (h : Plain cs) : Written (key, Variables.between cs) (key, some (.text cs)) := by
  refine ⟨rfl, hkey, ?_⟩
  have hquoted : Variables.between cs = quoted cs := by
    rw [quoted, escape_of_plain h]
    rfl
  rw [hquoted]
  exact .text fun c hc => (h c hc).2.2

theorem written_jobName {key : List Char} (hkey : Clear key)
    {e : Variables} (h : Clear e.slurmJobName.toList) :
    Written (key, Variables.between e.jobName) (key, some (.text e.slurmJobName.toList)) := by
  refine ⟨rfl, hkey, ?_⟩
  rw [Variables.jobName, replaceAll_eq_escape]
  exact .text h

/-- The digits of a match. -/
theorem isDigit_of_bashRematch {r : Regex Char} {s : String} :
    Digits ((bashRematch r s).getD []) := by
  intro c hc
  unfold bashRematch at hc
  cases hexec : r.exec s.toList with
  | none => simp [hexec] at hc
  | some m =>
    simp only [hexec, Option.map_some, Option.getD_some] at hc
    exact (List.mem_filter.1 hc).2

namespace Variables

variable (e : Variables)

/-- The members as they are read. -/
def prologTokens (gpus : ℤ) : List Member :=
  [("Id".toList, wordToken e.slurmJobId.toList),
    ("userName".toList, some (.text e.slurmJobUser.toList)),
    ("userId".toList, wordToken e.slurmJobUid.toList),
    ("groupName".toList, some (.text e.slurmJobGroup.toList)),
    ("groupId".toList, wordToken e.slurmJobGid.toList),
    ("account".toList, some (.text e.slurmJobAccount.toList)),
    ("jobName".toList, some (.text e.slurmJobName.toList)),
    ("clusterId".toList, some (.text e.slurmClusterName.toList)),
    ("partition".toList, some (.text e.slurmJobPartition.toList)),
    ("numNodes".toList, wordToken e.numNodes),
    ("numTasks".toList, wordToken e.numTasks),
    ("tasksPerNode".toList, wordToken e.tasksPerNode),
    ("GPUsPerNode".toList, wordToken (toString gpus).toList),
    ("startTime".toList, wordToken e.date.toList),
    ("nodeList".toList, some (.text (nodelistCsv e.nodelistArray).toList)),
    ("isRunning".toList, wordToken "true".toList),
    ("jobScript".toList, some (.text "noJobSript".toList)),
    ("projectId".toList, some (.text "noProject".toList))]

/-- What the members do to a record. -/
def prologAssignments (gpus : ℤ) : List (Assignment JobMetadata) :=
  [.digits (fun j n => { j with id := n }) e.slurmJobId.toList,
    .text (fun j s => { j with userName := s }) e.slurmJobUser,
    .digits (fun j n => { j with userId := n }) e.slurmJobUid.toList,
    .text (fun j s => { j with groupName := s }) e.slurmJobGroup,
    .digits (fun j n => { j with groupId := n }) e.slurmJobGid.toList,
    .text (fun j s => { j with account := s }) e.slurmJobAccount,
    .text (fun j s => { j with jobName := s }) e.slurmJobName,
    .text (fun j s => { j with clusterId := s }) e.slurmClusterName,
    .text (fun j s => { j with partition := s }) e.slurmJobPartition,
    .digits (fun j n => { j with numNodes := n }) e.numNodes,
    .digits (fun j n => { j with numTasks := n }) e.numTasks,
    .digits (fun j n => { j with tasksPerNode := n }) e.tasksPerNode,
    .int (fun j n => { j with gpusPerNode := n }) gpus,
    .digits (fun j n => { j with startTime := n }) e.date.toList,
    .text (fun j s => { j with nodeList := s }) (nodelistCsv e.nodelistArray),
    .bool (fun j b => { j with isRunning := b }) true,
    .text (fun j s => { j with jobScript := s }) "noJobSript",
    .nothing]

variable {e}

theorem written_firstMembers (h : e.Proper) (gpus : ℤ) :
    List.Forall₂ Written ((e.prologMembers gpus).take 6) ((e.prologTokens gpus).take 6) := by
  have hdigits := h.digits
  have hplain := h.plain
  simp only [List.forall_mem_cons] at hdigits hplain
  refine .cons (written_digits (by decide) hdigits.1) ?_
  refine .cons (written_between (by decide) hplain.1) ?_
  refine .cons (written_digits (by decide) hdigits.2.1) ?_
  refine .cons (written_between (by decide) hplain.2.1) ?_
  refine .cons (written_digits (by decide) hdigits.2.2.1) ?_
  exact .cons (written_between (by decide) hplain.2.2.1) .nil

theorem written_prologMembers (h : e.Proper) (gpus : ℤ)
    (hname : Clear e.slurmJobName.toList) :
    List.Forall₂ Written (e.prologMembers gpus) (e.prologTokens gpus) := by
  have hdigits := h.digits
  have hplain := h.plain
  simp only [List.forall_mem_cons] at hdigits hplain
  have hgpus : ∀ c ∈ (toString gpus).toList, isWordChar c = true := fun c hc => by
    rcases Go.mem_toString_int hc with rfl | hdigit
    · rfl
    · exact isWordChar_of_isDigit hdigit
  have hlast : List.Forall₂ Written ((e.prologMembers gpus).drop 6)
      ((e.prologTokens gpus).drop 6) := by
    refine .cons (written_jobName (by decide) hname) ?_
    refine .cons (written_between (by decide) hplain.2.2.2.1) ?_
    refine .cons (written_between (by decide) hplain.2.2.2.2.1) ?_
    refine .cons (written_digits (by decide) isDigit_of_bashRematch) ?_
    refine .cons (written_digits (by decide) isDigit_of_bashRematch) ?_
    refine .cons (written_digits (by decide) isDigit_of_bashRematch) ?_
    refine .cons (written_word (by decide) hgpus) ?_
    refine .cons (written_spaced (by decide) hdigits.2.2.2.2.1) ?_
    refine .cons (written_between (by decide) (plain_nodelistCsv h.nodes)) ?_
    refine .cons (written_word (by decide) (List.all_eq_true.1 rfl)) ?_
    refine .cons (written_between (by decide) (by decide)) ?_
    exact .cons (written_between (by decide) (by decide)) .nil
  exact List.rel_append (written_firstMembers h gpus) hlast

section Reading

variable (tags : JsonText.Value → Option (List JobTag))
  (data : JsonText.Value → Option (List JobMetadataData))

theorem assigns_prolog (h : e.Proper) {gpus : ℤ} (hmin : Go.minInt ≤ gpus)
    (hmax : gpus ≤ Go.maxInt) :
    List.Forall₂ (Assigns (jobMetadataFields tags data)) (e.prologTokens gpus)
      (e.prologAssignments gpus) := by
  have hdigits := h.digits
  simp only [List.forall_mem_cons] at hdigits
  refine .cons (assigns_digits (fun _ _ => rfl) hdigits.1) ?_
  refine .cons (assigns_text fun _ _ => rfl) ?_
  refine .cons (assigns_digits (fun _ _ => rfl) hdigits.2.1) ?_
  refine .cons (assigns_text fun _ _ => rfl) ?_
  refine .cons (assigns_digits (fun _ _ => rfl) hdigits.2.2.1) ?_
  refine .cons (assigns_text fun _ _ => rfl) ?_
  refine .cons (assigns_text fun _ _ => rfl) ?_
  refine .cons (assigns_text fun _ _ => rfl) ?_
  refine .cons (assigns_text fun _ _ => rfl) ?_
  refine .cons (assigns_digits (fun _ _ => rfl) isDigit_of_bashRematch) ?_
  refine .cons (assigns_digits (fun _ _ => rfl) isDigit_of_bashRematch) ?_
  refine .cons (assigns_digits (fun _ _ => rfl) isDigit_of_bashRematch) ?_
  refine .cons (assigns_int (fun _ _ => rfl) hmin hmax) ?_
  refine .cons (assigns_digits (fun _ _ => rfl) hdigits.2.2.2.2.1) ?_
  refine .cons (assigns_text fun _ _ => rfl) ?_
  refine .cons (assigns_true fun _ _ => rfl) ?_
  refine .cons (assigns_text fun _ _ => rfl) ?_
  exact .cons (assigns_nothing fun _ _ => rfl) .nil

/-- What the members leave in the record. -/
theorem setTokens_prolog (h : e.Proper) {gpus : ℤ} (hmin : Go.minInt ≤ gpus)
    (hmax : gpus ≤ Go.maxInt) :
    setTokens (jobMetadataFields tags data) {} (e.prologTokens gpus) =
      if ∀ cs ∈ e.prologNumbers, IsIntText cs then some (e.job gpus) else none := by
  rw [setTokens_eq (assigns_prolog tags data h hmin hmax), job, ← nodelistCsv_eq]
  rfl

/-- The text of a job that starts, read. -/
theorem jobMetadataBody_prologData (h : e.Proper) {gpus : ℤ} (hmin : Go.minInt ≤ gpus)
    (hmax : gpus ≤ Go.maxInt) :
    jobMetadataBody tags data (e.prologData gpus) =
      if e.Reportable then .decoded (e.job gpus) else .malformed (e.prologData gpus) := by
  have hunmarshal : unmarshal (jobMetadataFields tags data) {}
      (objectText 23 17 (e.prologMembers gpus)) =
        if e.Reportable then some (e.job gpus) else none := by
    by_cases hname : Clear e.slurmJobName.toList
    · have hread : unmarshal (jobMetadataFields tags data) {}
          (objectText 23 17 (e.prologMembers gpus)) = _ :=
        unmarshal_objectText (written_prologMembers h gpus hname) _
      have hreportable : e.Reportable ↔ ∀ cs ∈ e.prologNumbers, IsIntText cs :=
        ⟨fun h => h.numbers, fun h => ⟨h, hname⟩⟩
      rw [if_congr hreportable rfl rfl]
      exact hread.trans (setTokens_prolog tags data h hmin hmax)
    · have hcontrol : ∃ c ∈ e.slurmJobName.toList, isControl c = true := by
        simpa [Clear] using hname
      have hkey : Clear "jobName".toList := by decide
      have hread : JsonText.read (objectText 23 17 _) = none :=
        read_objectText_control (written_firstMembers h gpus) hkey hcontrol
          ((e.prologMembers gpus).drop 7)
      have hmembers : (e.prologMembers gpus).take 6 ++ ("jobName".toList,
          quoted e.slurmJobName.toList) :: (e.prologMembers gpus).drop 7 =
            e.prologMembers gpus := by
        rw [quoted, ← replaceAll_eq_escape]
        rfl
      rw [hmembers] at hread
      rw [if_neg fun h : e.Reportable => hname h.name, unmarshal, hread]
  rw [jobMetadataBody, bodyOf, prologData, String.toList_ofList, hunmarshal]
  split_ifs <;> rfl

/-- The text of a job that has ended, read. -/
theorem stopJobBody_epilogData (h : e.Proper) :
    stopJobBody e.epilogData =
      if e.EndReportable then .decoded e.stop else .malformed e.epilogData := by
  have hdigits := h.digits
  simp only [List.forall_mem_cons] at hdigits
  have hwritten : List.Forall₂ Written e.epilogMembers
      [("exitCode".toList, wordToken e.slurmJobExitCode.toList),
        ("stopTime".toList, wordToken e.date.toList)] :=
    .cons (written_digits (by decide) hdigits.2.2.2.1)
      (.cons (written_digits (by decide) hdigits.2.2.2.2.1) .nil)
  have hassigns : List.Forall₂ (Assigns stopJobFields)
      [("exitCode".toList, wordToken e.slurmJobExitCode.toList),
        ("stopTime".toList, wordToken e.date.toList)]
      [.digits (fun s n => { s with exitCode := n }) e.slurmJobExitCode.toList,
        .digits (fun s n => { s with stopTime := n }) e.date.toList] :=
    .cons (assigns_digits (fun _ _ => rfl) hdigits.2.2.2.1)
      (.cons (assigns_digits (fun _ _ => rfl) hdigits.2.2.2.2.1) .nil)
  have hread : unmarshal stopJobFields {} (objectText 24 20 e.epilogMembers) =
      if e.EndReportable then some e.stop else none := by
    have hend : e.EndReportable ↔ ∀ cs ∈ [e.slurmJobExitCode.toList, e.date.toList],
        IsIntText cs := by
      simp [EndReportable]
    rw [if_congr hend rfl rfl]
    exact (unmarshal_objectText hwritten _).trans (setTokens_eq hassigns _)
  rw [stopJobBody, bodyOf, epilogData, String.toList_ofList, hread]
  split_ifs <;> rfl

end Reading

end Variables

/-! ## The requests -/

theorem wrap_bounds (n : ℤ) : Go.minInt ≤ wrap n ∧ wrap n ≤ Go.maxInt := by
  simp only [wrap, Go.minInt, Go.maxInt]
  omega

theorem gpusPerNode_bounds {e : Variables} {gpus : ℤ} (h : e.gpusPerNode = some gpus) :
    Go.minInt ≤ gpus ∧ gpus ≤ Go.maxInt := by
  unfold Variables.gpusPerNode at h
  split at h
  · cases h
    decide
  · unfold arithmetic at h
    split_ifs at h
    · exact Option.some.inj h ▸ wrap_bounds _
    · exact Option.some.inj h ▸ wrap_bounds _

section Requests

variable (tags : JsonText.Value → Option (List JobTag))
  (data : JsonText.Value → Option (List JobMetadataData))

/-- The request for a job that starts. -/
theorem request_prolog {e : Variables} (h : e.Proper) {gpus : ℤ}
    (hgpus : e.gpusPerNode = some gpus) :
    e.request tags data "prolog_slurmctld" = some (.jobStart
      (if e.Reportable then .decoded (e.job gpus) else .malformed (e.prologData gpus))) := by
  obtain ⟨hmin, hmax⟩ := gpusPerNode_bounds hgpus
  rw [Variables.request, hgpus, Option.bind_some, if_pos rfl,
    Variables.jobMetadataBody_prologData tags data h hmin hmax]

/-- The request for a job that has ended. -/
theorem request_epilog {e : Variables} (h : e.Proper) {gpus : ℤ}
    (hgpus : e.gpusPerNode = some gpus) :
    e.request tags data "epilog_slurmctld" = some (.jobStop e.slurmJobId
      (if e.EndReportable then .decoded e.stop else .malformed e.epilogData)) := by
  rw [Variables.request, hgpus, Option.bind_some, if_neg (by decide), if_pos rfl,
    Variables.stopJobBody_epilogData h]

/-- **A job arrives as it is**, at its start and at its end, exactly when it can be reported:
the numbers its text is made of were found, are not written with leading zeros and fit, and
no control character is in its name.  Otherwise the backend answers 400 and does nothing.
The number of GPUs is 0 when it is not found, and octal behind a zero; where that fails
nothing is sent. -/
theorem report_roundTrip {e : Variables} (h : e.Proper) :
    (e.gpusPerNode = none → ∀ context, e.request tags data context = none) ∧
    ∀ gpus, e.gpusPerNode = some gpus →
      e.request tags data "prolog_slurmctld" = some (.jobStart
        (if e.Reportable then .decoded (e.job gpus) else .malformed (e.prologData gpus))) ∧
      e.request tags data "epilog_slurmctld" = some (.jobStop e.slurmJobId
        (if e.EndReportable then .decoded e.stop else .malformed e.epilogData)) ∧
      ∀ (out : Surroundings) (b : Backend) (user : UserInfo),
        (¬ e.Reportable → ∃ text, (e.request tags data "prolog_slurmctld").map
          (handle out b user) = some (.errorText 400 text, b, none)) ∧
        (¬ e.EndReportable → ∃ text, (e.request tags data "epilog_slurmctld").map
          (handle out b user) = some (.errorText 400 text, b, none)) := by
  constructor
  · intro hnone context
    rw [Variables.request, hnone, Option.bind_none]
  · intro gpus hgpus
    refine ⟨request_prolog tags data h hgpus, request_epilog tags data h hgpus, ?_⟩
    intro out b user
    constructor
    · intro hreportable
      rw [request_prolog tags data h hgpus, if_neg hreportable]
      exact ⟨_, rfl⟩
    · intro hreportable
      rw [request_epilog tags data h hgpus, if_neg hreportable]
      exact ⟨_, rfl⟩

/-- A job on two nodes with quotes and a backslash in its name. -/
def quotedJob : Variables where
  slurmJobId := "7"
  slurmJobUser := "alice"
  slurmJobUid := "1000"
  slurmJobGroup := "users"
  slurmJobGid := "100"
  slurmJobAccount := "project"
  slurmJobName := "a \"b\" \\ c"
  slurmClusterName := "cluster"
  slurmJobPartition := "cpu"
  slurmJobExitCode := "0"
  jobDetails := "NumNodes=2 NumTasks=8 NtasksPerN:B:S:C=4:0 GRES=gpu:4(IDX:0-3)"
  nodelistArray := ["n1", "n2"]
  date := "1700000000"

/-- Its start arrives; with a line break in the name it is refused. -/
theorem report_roundTrip_quotedJob :
    quotedJob.request (fun _ => none) (fun _ => none) "prolog_slurmctld" =
        some (.jobStart (.decoded (quotedJob.job 4))) ∧
      ∃ text, ({ quotedJob with slurmJobName := "a\nb" }.request (fun _ => none) (fun _ => none)
          "prolog_slurmctld").map (handle silentSurroundings {} apiUser) =
        some (.errorText 400 text, {}, none) := by
  have hproper : quotedJob.Proper := ⟨by decide, by decide, by decide⟩
  have hproper' : { quotedJob with slurmJobName := "a\nb" }.Proper :=
    ⟨by decide, by decide, by decide⟩
  have hreportable : quotedJob.Reportable := by decide
  obtain ⟨-, hsent⟩ := report_roundTrip (fun _ => none) (fun _ => none) hproper
  obtain ⟨-, hrefused⟩ := report_roundTrip (fun _ => none) (fun _ => none) hproper'
  have hprolog := (hsent 4 (by decide)).1
  rw [if_pos hreportable] at hprolog
  exact ⟨hprolog, ((hrefused 4 (by decide)).2.2 silentSurroundings {} apiUser).1 (by decide)⟩

end Requests

end JobmonSlurm

end JobMon
