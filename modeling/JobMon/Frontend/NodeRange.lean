import JobMon.Lib.Regex
import JobMon.Lib.Delimited
import JobMon.Config.Restart
import JobMon.Influx.JobData

/-!
# The nodes of a virtual partition

The settings form takes a text for the nodes of a virtual partition, checks it
against a pattern, and saves what stands between its commas; `getPartition` compares
that with the names of a job's nodes.

* `validateSlurmNodeRange`, `setVirtualPartition` — `PartitionsView.tsx`.
* `validateSlurmNodeRange_iff` — the texts that are accepted.
* `slurmNodes` — the nodes such a text is meant for.
* `applied_iff` — the jobs the saved partition is applied to.
* `meansItsNodes_iff` — the accepted texts for which the two agree.
-/

namespace JobMon

open Keyed

namespace PartitionsView

/-! ## The form -/

/-- `\w`. -/
def isWord (c : Char) : Bool :=
  Go.isDigit c || ('a' ≤ c && c ≤ 'z') || ('A' ≤ c && c ≤ 'Z') || c = '_'

/-- `(?:\d|-|,)`. -/
def rangeChar : Regex Char := .alt (.cls Go.isDigit) (.alt (.cls (· = '-')) (.cls (· = ',')))

/-- `/\w*\[{1}(?:\d|-|,)+\]{1}|^(?:\d|-|,)+$/`. -/
def nodeRangePattern : Regex Char :=
  .alt
    (.seq (.star (.cls isWord)) (.seq (.cls (· = '[')) (.seq rangeChar.plus (.cls (· = ']')))))
    (.seq .bos (.seq rangeChar.plus .eos))

/-- `validateSlurmNodeRange`: the text of the error, empty without one.  The pattern
has no groups, so a match has one entry. -/
def validateSlurmNodeRange (s : String) : String :=
  match nodeRangePattern.exec s.toList with
  | some m => if m = s.toList then "" else "Not a valid node range format"
  | none => "Not a valid node range format"

/-- The form of a partition, as far as a virtual one has it. -/
structure VirtualPartitionForm where
  displayName : String
  /-- The parent partition. -/
  parent : String
  stringNodes : String
  metrics : List String := []

/-- What is saved for the nodes: `split(",")`, which a one-character separator makes
`strings.Split`, or nothing for an empty text. -/
def savedNodes (stringNodes : String) : List String :=
  if stringNodes ≠ "" then Go.split stringNodes ',' else []

/-- `setPartitionConfig`, for the form of a virtual partition that is not deleted,
called for the item `pName`, which may have been a partition of its own until now.
`none`: the parent is gone. -/
def setVirtualPartition (wasVirtual : Bool) (pName : String) (pConf : VirtualPartitionForm)
    (partitions : Map String PartitionConfig) : Option (Map String PartitionConfig) :=
  let partitions := if wasVirtual then partitions else partitions.erase pName
  if pConf.parent = "" then some partitions
  else
    match partitions.lookup pConf.parent with
    | none => none
    | some p =>
      let others :=
        if pConf.displayName ≠ pName then p.virtualPartitions.erase pName else p.virtualPartitions
      let saved : VirtualPartitionConfig :=
        { nodes := savedNodes pConf.stringNodes
          metrics := pConf.metrics }
      some (partitions.upsert (pConf.parent,
        { p with virtualPartitions := others.upsert (pConf.displayName, saved) }))

end PartitionsView

/-- The virtual partition `getPartition` applies to a job, if any. -/
def InfluxDB.appliedVirtualPartition (db : InfluxDB) (j : JobMetadata) :
    Option (String × VirtualPartitionConfig) :=
  ((db.partitionConfig.lookup j.partition).getD {}).virtualPartitions.rows.find? fun vp =>
    (Go.split j.nodeList '|').all fun n => Utils.contains vp.2.nodes n

theorem InfluxDB.getPartition_eq (db : InfluxDB) (j : JobMetadata) :
    db.getPartition j = match db.appliedVirtualPartition j with
      | some vp => vp.2.toBasePartitionConfig
      | none => ((db.partitionConfig.lookup j.partition).getD {}).toBasePartitionConfig := rfl

namespace PartitionsView

/-! ## Node sets -/

/-- A row of digits. -/
def IsNumber (l : List Char) : Prop := l ≠ [] ∧ ∀ c ∈ l, Go.isDigit c = true

instance (l : List Char) : Decidable (IsNumber l) :=
  decidable_of_iff (l ≠ [] ∧ l.all Go.isDigit = true) (by rw [IsNumber, List.all_eq_true])

/-- A number with at least `width` digits. -/
def padded (width n : ℕ) : List Char := List.leftpad width '0' (Nat.toDigits 10 n)

/-- The numbers of one entry: a number stands for itself, a range for the numbers from
its first to its last one, as wide as the first.  Anything else has none. -/
def entryNumbers (entry : List Char) : List (List Char) :=
  match entry.splitOn '-' with
  | [a] => if IsNumber a then [a] else []
  | [a, b] =>
    if IsNumber a ∧ IsNumber b then
      (List.range' (Go.digitsVal a) (Go.digitsVal b + 1 - Go.digitsVal a)).map (padded a.length)
    else []
  | _ => []

/-- The numbers of entries with commas between them. -/
def listNumbers (entries : List Char) : List (List Char) :=
  (entries.splitOn ',').flatMap entryNumbers

/-- The nodes a node range denotes: a prefix with numbers and ranges in brackets, or
numbers and ranges without a prefix. -/
def slurmNodes (text : String) : List String :=
  match text.toList.dropWhile isWord with
  | '[' :: rest =>
    (listNumbers (Delimited.upTo ']' rest)).map fun n =>
      String.ofList (text.toList.takeWhile isWord ++ n)
  | _ => (listNumbers text.toList).map String.ofList

example : slurmNodes "n[08-10,12]" = ["n08", "n09", "n10", "n12"] := by decide +kernel

/-! ## The texts that are accepted -/

/-- A character that the pattern allows in a list. -/
def isRangeChar (c : Char) : Bool := Go.isDigit c || (decide (c = '-') || decide (c = ','))

/-- A prefix and a list in brackets. -/
def Bracketed (pre entries text : List Char) : Prop :=
  text = pre ++ '[' :: (entries ++ [']']) ∧ (∀ c ∈ pre, isWord c = true) ∧ entries ≠ [] ∧
    ∀ c ∈ entries, isRangeChar c = true

/-- A list without brackets. -/
def Unbracketed (text : List Char) : Prop := text ≠ [] ∧ ∀ c ∈ text, isRangeChar c = true

theorem single_rangeChar (whole : List Char) : Regex.Single whole rangeChar isRangeChar :=
  Regex.single_alt Regex.single_cls (Regex.single_alt Regex.single_cls Regex.single_cls)

section Pattern

variable {whole s t pre entries : List Char}

theorem mem_bracketed_iff :
    t ∈ Regex.rests whole (.seq (.star (.cls isWord))
        (.seq (.cls (· = '[')) (.seq rangeChar.plus (.cls (· = ']'))))) s ↔
      ∃ pre entries, s = pre ++ '[' :: (entries ++ ']' :: t) ∧ (∀ c ∈ pre, isWord c = true) ∧
        entries ≠ [] ∧ ∀ c ∈ entries, isRangeChar c = true := by
  simp only [Regex.mem_seq_iff, Regex.mem_star_iff Regex.single_cls, Regex.mem_cls_iff,
    Regex.mem_plus_iff (single_rangeChar whole), decide_eq_true_eq]
  constructor
  · rintro ⟨u, ⟨pre, rfl, hpre⟩, v, ⟨c, rfl, rfl⟩, w, ⟨entries, rfl, hne, hall⟩, d, rfl, rfl⟩
    exact ⟨pre, entries, rfl, hpre, hne, hall⟩
  · rintro ⟨pre, entries, rfl, hpre, hne, hall⟩
    exact ⟨_, ⟨pre, rfl, hpre⟩, _, ⟨'[', rfl, rfl⟩, _, ⟨entries, rfl, hne, hall⟩, ']', rfl, rfl⟩

theorem mem_unbracketed_iff :
    t ∈ Regex.rests whole (.seq .bos (.seq rangeChar.plus .eos)) s ↔
      s.length = whole.length ∧ t = [] ∧ Unbracketed s := by
  simp only [Regex.mem_seq_iff, Regex.mem_bos_iff, Regex.mem_eos_iff,
    Regex.mem_plus_iff (single_rangeChar whole)]
  constructor
  · rintro ⟨u, ⟨hlen, rfl⟩, v, ⟨w, rfl, hne, hall⟩, rfl, rfl⟩
    rw [List.append_nil] at hlen ⊢
    exact ⟨hlen, rfl, hne, hall⟩
  · rintro ⟨hlen, rfl, hne, hall⟩
    exact ⟨s, ⟨hlen, rfl⟩, [], ⟨s, (List.append_nil s).symm, hne, hall⟩, rfl, rfl⟩

/-- The preferred way through a prefix and a list in brackets takes it all. -/
theorem head_bracketed (h : Bracketed pre entries s) :
    (Regex.rests whole (.seq (.star (.cls isWord))
      (.seq (.cls (· = '[')) (.seq rangeChar.plus (.cls (· = ']'))))) s).head? = some [] := by
  obtain ⟨rfl, hpre, hne, hall⟩ := h
  have hstop : ('[' :: (entries ++ [']'])).dropWhile isWord = '[' :: (entries ++ [']']) :=
    List.dropWhile_cons_of_neg (by decide)
  refine Regex.head_seq (Regex.head_star Regex.single_cls) ?_
  rw [List.dropWhile_append_of_pos hpre, hstop]
  refine Regex.head_seq (Regex.head_cls (by decide)) ?_
  refine Regex.head_seq (Regex.head_plus (single_rangeChar whole) hne hall ?_)
    (Regex.head_cls (by decide))
  exact List.dropWhile_cons_of_neg (by decide)

end Pattern

theorem not_isRangeChar_open : isRangeChar '[' = false := by decide

/-- **The accepted texts**: a list of digits, commas and dashes, alone or in brackets
behind a prefix of word characters. -/
theorem validateSlurmNodeRange_iff {text : String} :
    validateSlurmNodeRange text = "" ↔
      (∃ pre entries, Bracketed pre entries text.toList) ∨ Unbracketed text.toList := by
  have hexec : validateSlurmNodeRange text = "" ↔
      nodeRangePattern.exec text.toList = some text.toList := by
    unfold validateSlurmNodeRange
    split
    · rename_i m heq
      rw [heq, Option.some.injEq]
      split
      · rename_i hm
        exact iff_of_true rfl hm
      · rename_i hm
        exact iff_of_false (by decide) hm
    · rename_i heq
      rw [heq]
      exact iff_of_false (by decide) (by simp)
  rw [hexec, Regex.exec_eq_self_iff]
  constructor
  · intro h
    rcases Regex.mem_alt_iff.1 (List.mem_of_head? h) with hmem | hmem
    · obtain ⟨pre, entries, hs, hpre, hne, hall⟩ := mem_bracketed_iff.1 hmem
      exact Or.inl ⟨pre, entries, hs, hpre, hne, hall⟩
    · exact Or.inr (mem_unbracketed_iff.1 hmem).2.2
  · rintro (⟨pre, entries, h⟩ | h)
    · exact Regex.head_alt_left (head_bracketed h)
    · have hnone : Regex.rests text.toList (.seq (.star (.cls isWord))
          (.seq (.cls (· = '[')) (.seq rangeChar.plus (.cls (· = ']'))))) text.toList = [] := by
        refine List.eq_nil_iff_forall_not_mem.2 fun t ht => ?_
        obtain ⟨pre, entries, hs, -⟩ := mem_bracketed_iff.1 ht
        have hopen := h.2 '[' (by rw [hs]; simp)
        rw [not_isRangeChar_open] at hopen
        cases hopen
      have hmem := mem_unbracketed_iff.2 ⟨rfl, rfl, h⟩
      refine Regex.head_alt_right hnone ?_
      obtain ⟨t, ts, hts⟩ := List.exists_cons_of_ne_nil (List.ne_nil_of_mem hmem)
      have ht := (mem_unbracketed_iff.1 (show t ∈ _ by rw [hts]; exact List.mem_cons_self)).2.1
      rw [hts, List.head?_cons, ht]

/-! ## What a text denotes -/

theorem isNumber_padded (width n : ℕ) : IsNumber (padded width n) := by
  rw [padded, List.leftpad]
  constructor
  · exact List.append_ne_nil_of_right_ne_nil _ Nat.toDigits_ne_nil
  · intro c hc
    rcases List.mem_append.1 hc with hc | hc
    · rw [List.eq_of_mem_replicate hc]
      decide
    · refine Go.isDigit_of_mem_repr (n := n) ?_
      rw [Nat.repr, String.toList_ofList]
      exact hc

theorem isNumber_of_mem_entryNumbers {entry n : List Char} (h : n ∈ entryNumbers entry) :
    IsNumber n := by
  unfold entryNumbers at h
  split at h
  · split at h
    · rename_i ha
      rw [List.mem_singleton.1 h]
      exact ha
    · cases h
  · split at h
    · obtain ⟨k, -, rfl⟩ := List.mem_map.1 h
      exact isNumber_padded _ k
    · cases h
  · cases h

theorem isNumber_of_mem_listNumbers {entries n : List Char} (h : n ∈ listNumbers entries) :
    IsNumber n := by
  obtain ⟨entry, -, hn⟩ := List.mem_flatMap.1 h
  exact isNumber_of_mem_entryNumbers hn

theorem entryNumbers_of_isNumber {entry : List Char} (h : IsNumber entry) :
    entryNumbers entry = [entry] := by
  have hdash : '-' ∉ entry := fun hmem => absurd (h.2 '-' hmem) (by decide)
  have hsplit : entry.splitOn '-' = [entry] := List.splitOn_eq_singleton hdash
  simp only [entryNumbers, hsplit, if_pos h]

/-- A list in brackets denotes nodes without brackets in their names. -/
theorem open_not_mem_of_mem_slurmNodes {text n : String} (h : n ∈ slurmNodes text) :
    '[' ∉ n.toList := by
  have hnumber : ∀ l : List Char, IsNumber l → '[' ∉ l :=
    fun l hl hmem => absurd (hl.2 '[' hmem) (by decide)
  unfold slurmNodes at h
  split at h
  · obtain ⟨l, hl, rfl⟩ := List.mem_map.1 h
    rw [String.toList_ofList, List.mem_append, not_or]
    refine ⟨?_, hnumber l (isNumber_of_mem_listNumbers hl)⟩
    intro hmem
    exact absurd (List.mem_takeWhile_imp hmem) (by decide)
  · obtain ⟨l, hl, rfl⟩ := List.mem_map.1 h
    rw [String.toList_ofList]
    exact hnumber l (isNumber_of_mem_listNumbers hl)

/-- Without a bracket the text is the list. -/
theorem slurmNodes_of_no_bracket {text : String} (h : '[' ∉ text.toList) :
    slurmNodes text = (listNumbers text.toList).map String.ofList := by
  unfold slurmNodes
  split
  · rename_i rest heq
    exact absurd ((List.dropWhile_suffix isWord).subset (by rw [heq]; exact List.mem_cons_self)) h
  · rfl

/-- A list of numbers denotes what stands between its commas. -/
theorem mem_slurmNodes_of_numbers {text n : String}
    (h : ∀ part ∈ Go.split text ',', IsNumber part.toList) :
    n ∈ slurmNodes text ↔ n ∈ Go.split text ',' := by
  have hopen : '[' ∉ text.toList := by
    rw [Go.mem_toList_iff (by decide : '[' ≠ ',')]
    rintro ⟨part, hpart, hmem⟩
    exact absurd ((h part hpart).2 '[' hmem) (by decide)
  have hlist : listNumbers text.toList = text.toList.splitOn ',' := by
    have hentry : ∀ entry ∈ text.toList.splitOn ',', entryNumbers entry = [entry] := by
      intro entry hentry
      have hnumber := h (String.ofList entry) (List.mem_map_of_mem hentry)
      rw [String.toList_ofList] at hnumber
      exact entryNumbers_of_isNumber hnumber
    rw [listNumbers, List.flatMap_congr hentry, List.flatMap_singleton']
  rw [slurmNodes_of_no_bracket hopen, hlist, Go.split]

/-! ## The jobs it is applied to -/

/-- All other virtual partitions of the job's partition lack one of its nodes. -/
def NoOtherMatches (db : InfluxDB) (name : String) (j : JobMetadata) : Prop :=
  ∀ vp ∈ ((db.partitionConfig.lookup j.partition).getD {}).virtualPartitions.rows, vp.1 ≠ name →
    ∃ n ∈ Go.split j.nodeList '|', n ∉ vp.2.nodes

/-- However a virtual partition with this text is saved, and sent to a backend with
whatever configuration: it is applied to a job of its parent exactly when all nodes of
the job are among those the text denotes, if no other one matches. -/
def MeansItsNodes (text : String) : Prop :=
  ∀ (newUUID : ℕ → String) (r conf : Configuration) (wasVirtual : Bool) (pName : String)
    (pConf : VirtualPartitionForm) (partitions : Map String PartitionConfig) (j : JobMetadata),
    pConf.stringNodes = text → pConf.parent ≠ "" →
    setVirtualPartition wasVirtual pName pConf partitions = some conf.partitions →
    j.partition = pConf.parent →
    NoOtherMatches (InfluxDB.init (r.update newUUID conf)) pConf.displayName j →
    (((InfluxDB.init (r.update newUUID conf)).appliedVirtualPartition j).map Prod.fst =
        some pConf.displayName ↔
      ∀ n ∈ Go.split j.nodeList '|', n ∈ slurmNodes text)

/-- What is saved is found under its name. -/
theorem mem_of_setVirtualPartition {wasVirtual : Bool} {pName : String}
    {pConf : VirtualPartitionForm} {partitions saved : Map String PartitionConfig}
    (hparent : pConf.parent ≠ "")
    (h : setVirtualPartition wasVirtual pName pConf partitions = some saved) :
    ∃ pc, saved.lookup pConf.parent = some pc ∧
      ∃ vp ∈ pc.virtualPartitions.rows, vp.1 = pConf.displayName ∧
        vp.2.nodes = savedNodes pConf.stringNodes := by
  simp only [setVirtualPartition, if_neg hparent] at h
  split at h
  · cases h
  · cases h
    have hlookup := fun (m : Map String PartitionConfig) (p : String × PartitionConfig) =>
      (Map.lookup_upsert m p p.1).trans (if_pos rfl)
    have hrow := fun (m : Map String VirtualPartitionConfig) p =>
      Table.mem_of_get? ((Table.get?_upsert m p p.1).trans (if_pos rfl))
    exact ⟨_, hlookup _ _, _, hrow _ _, rfl, rfl⟩

/-- **The jobs a saved partition is applied to** are those whose nodes all stand
between its commas. -/
theorem applied_iff {newUUID : ℕ → String} {r conf : Configuration} {wasVirtual : Bool}
    {pName : String} {pConf : VirtualPartitionForm} {partitions : Map String PartitionConfig}
    {j : JobMetadata} (hparent : pConf.parent ≠ "")
    (hsaved : setVirtualPartition wasVirtual pName pConf partitions = some conf.partitions)
    (hj : j.partition = pConf.parent)
    (hothers : NoOtherMatches (InfluxDB.init (r.update newUUID conf)) pConf.displayName j) :
    ((InfluxDB.init (r.update newUUID conf)).appliedVirtualPartition j).map Prod.fst =
        some pConf.displayName ↔
      ∀ n ∈ Go.split j.nodeList '|', n ∈ savedNodes pConf.stringNodes := by
  obtain ⟨pc, hpc, vp, hvp, hname, hnodes⟩ := mem_of_setVirtualPartition hparent hsaved
  have hlookup :
      ((InfluxDB.init (r.update newUUID conf)).partitionConfig.lookup j.partition).getD {} =
        pc.removeMissingMetrics (Configuration.deletedGuids r ⟨conf, newUUID⟩) := by
    have hupdate := Configuration.lookup_update_partitions r ⟨conf, newUUID⟩ pConf.parent
    rw [hpc, Option.map_some] at hupdate
    rw [hj, InfluxDB.init, hupdate]
    rfl
  have hmatch : ∀ x : String × VirtualPartitionConfig,
      ((Go.split j.nodeList '|').all fun n => Utils.contains x.2.nodes n) = true ↔
        ∀ n ∈ Go.split j.nodeList '|', n ∈ x.2.nodes := by
    intro x
    simp only [List.all_eq_true, Utils.contains_eq_true_iff]
  rw [NoOtherMatches, hlookup] at hothers
  rw [InfluxDB.appliedVirtualPartition, hlookup, ← hnodes, ← hmatch vp, Option.map_eq_some_iff]
  constructor
  · rintro ⟨x, hx, hxname⟩
    have hsame : x = vp :=
      List.inj_on_of_nodup_map pc.virtualPartitions.nodup (List.mem_of_find?_eq_some hx) hvp
        (hxname.trans hname.symm)
    have hall := List.find?_some hx
    rwa [hsame] at hall
  · intro hall
    cases hfind : pc.virtualPartitions.rows.find? fun x =>
        (Go.split j.nodeList '|').all fun n => Utils.contains x.2.nodes n with
    | none => exact absurd hall (List.find?_eq_none.1 hfind vp hvp)
    | some x =>
      refine ⟨x, hfind, ?_⟩
      by_contra hne
      obtain ⟨n, hn, hmissing⟩ := hothers x (List.mem_of_find?_eq_some hfind) hne
      have hx := List.find?_some hfind
      exact hmissing ((hmatch x).1 hx n hn)

/-! ## When the two agree -/

/-- An accepted text is made of word characters, brackets, commas and dashes. -/
theorem pipe_not_mem_of_accepted {text : String} (h : validateSlurmNodeRange text = "") :
    '|' ∉ text.toList := by
  have hrange : ∀ l : List Char, (∀ c ∈ l, isRangeChar c = true) → '|' ∉ l :=
    fun l hl hmem => absurd (hl '|' hmem) (by decide)
  rcases validateSlurmNodeRange_iff.1 h with ⟨pre, entries, htext, hpre, -, hall⟩ | ⟨-, hall⟩
  · rw [htext]
    simp only [List.mem_append, List.mem_cons, List.not_mem_nil, or_false, not_or]
    exact ⟨fun hmem => absurd (hpre '|' hmem) (by decide), by decide, hrange entries hall,
      by decide⟩
  · exact hrange _ hall

/-- The form for a virtual partition of `p`. -/
def formWith (text : String) : VirtualPartitionForm :=
  { displayName := "v"
    parent := "p"
    stringNodes := text
    metrics := ["m"] }

/-- The configured partitions: `p`, with nothing but the virtual partition. -/
def partitionsWith (text : String) : Map String PartitionConfig :=
  let saved : VirtualPartitionConfig :=
    { nodes := savedNodes text
      metrics := ["m"] }
  ⟨[("p", { virtualPartitions := ⟨[("v", saved)], List.pairwise_singleton _ _⟩ })],
    List.pairwise_singleton _ _⟩

/-- The backend after an update with these partitions. -/
def dbWith (text : String) : InfluxDB :=
  InfluxDB.init (Configuration.update (fun _ => "u") {} { partitions := partitionsWith text })

theorem lookup_dbWith (text : String) :
    (dbWith text).partitionConfig.lookup "p" = (partitionsWith text).lookup "p" := rfl

/-- A text that means its nodes denotes what stands between its commas, as far as that
can be the name of one node. -/
theorem mem_slurmNodes_of_means {text part : String} (h : MeansItsNodes text)
    (hpipe : '|' ∉ part.toList) (hpart : part ∈ savedNodes text) : part ∈ slurmNodes text := by
  -- a job that runs on the node with just this name
  have hsplit : Go.split part '|' = [part] :=
    Go.split_eq_singleton (Go.containsChar_eq_false_iff.2 hpipe)
  have hsaved : setVirtualPartition true "v" (formWith text)
      ⟨[("p", {})], List.pairwise_singleton _ _⟩ = some (partitionsWith text) := rfl
  have hothers : NoOtherMatches (dbWith text) "v" { partition := "p", nodeList := part } := by
    intro vp hvp hne
    rw [lookup_dbWith] at hvp
    exact absurd (congrArg Prod.fst (List.mem_singleton.1 hvp)) hne
  have hiff := @applied_iff (fun _ => "u") {} { partitions := partitionsWith text } true "v"
    (formWith text) _ { partition := "p", nodeList := part } (by simp [formWith]) hsaved rfl hothers
  have hmeans := h (fun _ => "u") {} { partitions := partitionsWith text } true "v"
    (formWith text) _ { partition := "p", nodeList := part } rfl (by simp [formWith]) hsaved rfl
    hothers
  rw [hsplit, List.forall_mem_singleton] at hiff hmeans
  exact hmeans.1 (hiff.2 hpart)

/-- **The accepted texts that mean their nodes** are lists of plain numbers. -/
theorem meansItsNodes_iff {text : String} (h : validateSlurmNodeRange text = "") :
    MeansItsNodes text ↔ ∀ part ∈ Go.split text ',', IsNumber part.toList := by
  have hne : text ≠ "" := by
    rintro rfl
    exact absurd h (by decide +kernel)
  have hnodes : savedNodes text = Go.split text ',' := if_pos hne
  constructor
  · intro hmeans
    have hmem : ∀ part ∈ Go.split text ',', part ∈ slurmNodes text := by
      intro part hpart
      refine mem_slurmNodes_of_means hmeans ?_ (hnodes ▸ hpart)
      intro hpipe
      exact pipe_not_mem_of_accepted h ((Go.mem_toList_iff (by decide)).2 ⟨part, hpart, hpipe⟩)
    -- the part with the bracket, if there is one, is not a node
    have hopen : '[' ∉ text.toList := by
      intro hbracket
      obtain ⟨part, hpart, hin⟩ := (Go.mem_toList_iff (by decide : '[' ≠ ',')).1 hbracket
      exact open_not_mem_of_mem_slurmNodes (hmem part hpart) hin
    intro part hpart
    have hdenoted := hmem part hpart
    rw [slurmNodes_of_no_bracket hopen] at hdenoted
    obtain ⟨l, hl, rfl⟩ := List.mem_map.1 hdenoted
    rw [String.toList_ofList]
    exact isNumber_of_mem_listNumbers hl
  · intro hnumbers newUUID r conf wasVirtual pName pConf partitions j htext hparent hsaved hj
      hothers
    rw [applied_iff hparent hsaved hj hothers, htext, hnodes]
    exact forall₂_congr fun n _ => (mem_slurmNodes_of_numbers hnumbers).symm

/-- Three nodes are accepted, but the partition is not applied to a job on the first
of them. -/
theorem bracketed_range_not_applied :
    validateSlurmNodeRange "n[1-3]" = "" ∧ slurmNodes "n[1-3]" = ["n1", "n2", "n3"] ∧
      ((dbWith "n[1-3]").getPartition { partition := "p", nodeList := "n1" }).metrics = [] ∧
      ¬ MeansItsNodes "n[1-3]" := by
  refine ⟨by decide +kernel, by decide +kernel, by decide +kernel, ?_⟩
  intro h
  have hmem := @mem_slurmNodes_of_means "n[1-3]" "n[1-3]" h (by decide) (by decide)
  exact absurd hmem (by decide +kernel)

theorem meansItsNodes_twoNumbers :
    MeansItsNodes "07,08" ↔ ∀ part ∈ Go.split "07,08" ',', IsNumber part.toList :=
  meansItsNodes_iff (by decide +kernel)

end PartitionsView

end JobMon
