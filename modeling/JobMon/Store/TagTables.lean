import JobMon.Lib.Runs
import JobMon.Store.Tables

/-!
# The tables of tags

`AddTag` makes two inserts without a transaction, `RemoveTag` deletes the link and leaves
the tag.  Each of these statements may fail.

* `TagOp`, `tagStep` — the two operations, with the statements that fail.
* `TagTablesConsistent` — every link points to a tag, and every tag is linked.
* `addTagWith_cases` — the three ways `AddTag` ends.
* `TagTablesKept` — what is expected of a sequence of operations.
* `tagTablesKept_iff` — exactly the sequences that never leave a tag without a link meet
  it.
-/

namespace JobMon

open Keyed Runs

namespace Store

/-! ## Operations with failing statements -/

/-- `AddTag`, where either insert may fail; a statement that fails changes nothing. -/
def addTagWith (insertTagFails insertLinkFails : Bool) (s : Store) (id : ℤ) (tag : JobTag) :
    JobTag × Bool × Store :=
  if insertTagFails then (tag, false, s)
  else
    match s.insertTag tag with
    | (none, s') => (tag, false, s')
    | (some tag', s') =>
      if insertLinkFails then (tag', false, s')
      else
        match s'.jobToTags.insert { jobId := id, tagId := tag'.id } with
        | some t => (tag', true, { s' with jobToTags := t })
        | none => (tag', false, s')

/-- `RemoveTag`, where the delete may fail. -/
def removeTagWith (deleteFails : Bool) (s : Store) (id : ℤ) (tag : JobTag) : Bool × Store :=
  if deleteFails then (false, s) else (true, s.removeTag id tag)

/-- When no statement fails it is the operation of the store. -/
theorem addTagWith_false (s : Store) (id : ℤ) (tag : JobTag) :
    addTagWith false false s id tag = s.addTag id tag := rfl

/-- An operation on tags, and which of its statements fail. -/
inductive TagOp
  | addTag (id : ℤ) (tag : JobTag) (insertTagFails insertLinkFails : Bool)
  | removeTag (id : ℤ) (tag : JobTag) (deleteFails : Bool)

/-- What an operation makes of the tables. -/
def tagStep (s : Store) : TagOp → Option Store
  | .addTag id tag insertTagFails insertLinkFails =>
    some (addTagWith insertTagFails insertLinkFails s id tag).2.2
  | .removeTag id tag deleteFails => some (removeTagWith deleteFails s id tag).2

/-! ## Consistent tables -/

/-- Every link points to a tag, and every tag has a link. -/
structure TagTablesConsistent (s : Store) : Prop where
  links : s.LinksValid
  linked : ∀ tag ∈ s.jobTags.rows, ∃ l ∈ s.jobToTags.rows, l.tagId = tag.id

/-- Both tables are as they were. -/
def SameTagTables (s s' : Store) : Prop :=
  s'.jobTags = s.jobTags ∧ s'.jobToTags = s.jobToTags

/-- With valid links, nothing points to an ID that is not taken. -/
theorem tagId_ne_of_free {s : Store} (hs : s.LinksValid) {k : ℤ} (hfree : s.jobTags.get? k = none)
    {l : JobToTags} (hl : l ∈ s.jobToTags.rows) : l.tagId ≠ k := by
  rintro rfl
  exact hs l hl hfree

/-- **The ways `AddTag` ends**, with valid links: it creates nothing, it leaves a tag
without a link, or it creates both. -/
theorem addTagWith_cases {s : Store} (hs : s.LinksValid) (f g : Bool) (id : ℤ) (tag : JobTag) :
    ((addTagWith f g s id tag).2.1 = false ∧ s.SameTagTables (addTagWith f g s id tag).2.2 ∧
      (f = true ∨ s.jobTags.get? (s.newTagId tag) ≠ none)) ∨
    (f = false ∧ s.jobTags.get? (s.newTagId tag) = none ∧
      ∃ tag', tag'.id = s.newTagId tag ∧ (addTagWith f g s id tag).1 = tag' ∧
        (addTagWith f g s id tag).2.2.jobTags.rows = s.jobTags.rows ++ [tag'] ∧
        (g = true ∧ (addTagWith f g s id tag).2.1 = false ∧
            (addTagWith f g s id tag).2.2.jobToTags = s.jobToTags ∨
          g = false ∧ (addTagWith f g s id tag).2.1 = true ∧
            (addTagWith f g s id tag).2.2.jobToTags.rows =
              s.jobToTags.rows ++ [{ jobId := id, tagId := tag'.id }])) := by
  cases f with
  | true => exact .inl ⟨rfl, ⟨rfl, rfl⟩, .inl rfl⟩
  | false =>
    rcases insertTag_cases s tag with ⟨n, hins, htaken⟩ | ⟨n, tags, hins, hnew⟩
    · have heq : addTagWith false g s id tag = (tag, false, { s with nextTagId := n }) := by
        simp only [addTagWith, hins, Bool.false_eq_true, if_false]
      rw [heq]
      exact .inl ⟨rfl, ⟨rfl, rfl⟩, .inr htaken⟩
    · obtain ⟨hfree, hrows⟩ := Table.insert_eq_some_iff.1 hnew
      let tag' : JobTag := { tag with id := s.newTagId tag }
      refine .inr ⟨rfl, hfree, tag', rfl, ?_⟩
      cases g with
      | true =>
        have heq : addTagWith false true s id tag =
            (tag', false, { s with nextTagId := n, jobTags := tags }) := by
          simp only [addTagWith, hins, Bool.false_eq_true, if_false, if_true, tag']
        rw [heq]
        exact ⟨rfl, hrows, .inl ⟨rfl, rfl, rfl⟩⟩
      | false =>
        -- the second insert cannot find its key taken
        have hnone : s.jobToTags.get? (id, tag'.id) = none := by
          rw [Table.get?_eq_none_iff]
          intro l hmem hkey
          exact tagId_ne_of_free hs hfree hmem (congrArg Prod.snd hkey)
        obtain ⟨links, hlinks⟩ := Table.insert_of_free (t := s.jobToTags)
          (r := { jobId := id, tagId := tag'.id }) hnone
        have heq : addTagWith false false s id tag =
            (tag', true, { s with nextTagId := n, jobTags := tags, jobToTags := links }) := by
          simp only [addTagWith, hins, Bool.false_eq_true, if_false, tag'] at hlinks ⊢
          rw [hlinks]
        rw [heq]
        exact ⟨rfl, hrows, .inr ⟨rfl, rfl, (Table.insert_eq_some_iff.1 hlinks).2⟩⟩

/-! ## One operation -/

/-- The operation leaves no tag without a link: an `AddTag` that has created the tag links
it, and a `RemoveTag` that succeeds takes a link away from a tag that has another one. -/
def KeepsTagTables (s : Store) : TagOp → Prop
  | .addTag _ tag insertTagFails insertLinkFails =>
    insertLinkFails = true → insertTagFails = true ∨ s.jobTags.get? (s.newTagId tag) ≠ none
  | .removeTag id tag deleteFails =>
    deleteFails = true ∨ s.jobToTags.get? (id, tag.id) = none ∨
      ∃ l ∈ s.jobToTags.rows, l.tagId = tag.id ∧ l.jobId ≠ id

/-- A link that is still there after `RemoveTag`. -/
theorem mem_removeTag_iff {s : Store} {id : ℤ} {tag : JobTag} {l : JobToTags} :
    l ∈ (s.removeTag id tag).jobToTags.rows ↔ l ∈ s.jobToTags.rows ∧ l.key ≠ (id, tag.id) := by
  show l ∈ s.jobToTags.rows.filter _ ↔ _
  rw [List.mem_filter, decide_eq_true_eq]

/-- The tables stay consistent when the operation leaves no tag without a link. -/
theorem tagTablesConsistent_step {s s' : Store} {op : TagOp} (hs : s.TagTablesConsistent)
    (h : s.tagStep op = some s') (hop : s.KeepsTagTables op) : s'.TagTablesConsistent := by
  cases op with
  | addTag id tag f g =>
    cases h
    rcases addTagWith_cases hs.links f g id tag with
      ⟨-, ⟨htags, hlinks⟩, -⟩ | ⟨hf, hfree, tag', hid, -, hrows, hlink⟩
    · constructor
      · intro l hl
        rw [htags]
        exact hs.links l (hlinks ▸ hl)
      · intro tag' htag'
        rw [hlinks]
        exact hs.linked tag' (htags ▸ htag')
    · rcases hlink with ⟨hg, -, -⟩ | ⟨-, -, hlink⟩
      · exact absurd hfree ((hop hg).resolve_left (by simp [hf]))
      · constructor
        · intro l hl
          rw [Ne, Table.get?_eq_none_iff, hrows]
          rw [hlink, List.mem_append, List.mem_singleton] at hl
          intro hall
          rcases hl with hl | rfl
          · obtain ⟨t, ht⟩ := Option.ne_none_iff_exists'.1 (hs.links l hl)
            obtain ⟨hmem, hkey⟩ := Table.get?_eq_some_iff.1 ht
            exact hall t (List.mem_append_left _ hmem) hkey
          · exact hall tag' (by simp) rfl
        · intro tag₀ htag₀
          rw [hrows, List.mem_append, List.mem_singleton] at htag₀
          rw [hlink]
          rcases htag₀ with htag₀ | rfl
          · obtain ⟨l, hl, heq⟩ := hs.linked tag₀ htag₀
            exact ⟨l, List.mem_append_left _ hl, heq⟩
          · exact ⟨_, List.mem_append_right _ List.mem_cons_self, rfl⟩
  | removeTag id tag f =>
    cases h
    cases f with
    | true => exact hs
    | false =>
      refine ⟨linksValid_removeTag hs.links id tag, fun tag₀ htag₀ => ?_⟩
      obtain ⟨l, hl, heq⟩ := hs.linked tag₀ htag₀
      by_cases hkey : l.key = (id, tag.id)
      · rcases hop.resolve_left (by simp) with hnone | ⟨l', hl', heq', hne⟩
        · exact absurd hkey (Table.get?_eq_none_iff.1 hnone l hl)
        · refine ⟨l', mem_removeTag_iff.2 ⟨hl', ?_⟩, ?_⟩
          · exact fun hkey' => hne (congrArg Prod.fst hkey')
          · rw [heq', ← heq]
            exact (congrArg Prod.snd hkey).symm
      · exact ⟨l, mem_removeTag_iff.2 ⟨hl, hkey⟩, heq⟩

/-- And only then. -/
theorem keepsTagTables_of_consistent {s s' : Store} {op : TagOp} (hs : s.TagTablesConsistent)
    (h : s.tagStep op = some s') (hs' : s'.TagTablesConsistent) : s.KeepsTagTables op := by
  cases op with
  | addTag id tag f g =>
    cases h
    rcases addTagWith_cases hs.links f g id tag with
      ⟨-, -, hnot⟩ | ⟨-, hfree, tag', hid, -, hrows, hlink⟩
    · exact fun _ => hnot
    · rcases hlink with ⟨-, -, hlinks⟩ | ⟨hg, -, -⟩
      · -- the new tag would have to be linked already
        obtain ⟨l, hl, heq⟩ := hs'.linked tag' (by rw [hrows]; simp)
        rw [hlinks] at hl
        exact absurd (heq.trans hid) (tagId_ne_of_free hs.links hfree hl)
      · rintro rfl
        cases hg
  | removeTag id tag f =>
    cases h
    cases f with
    | true => exact .inl rfl
    | false =>
      right
      cases hlink : s.jobToTags.get? (id, tag.id) with
      | none => exact .inl rfl
      | some l₀ =>
        obtain ⟨hmem, hkey⟩ := Table.get?_eq_some_iff.1 hlink
        have htagId : l₀.tagId = tag.id := congrArg Prod.snd hkey
        obtain ⟨tag₀, htag₀⟩ := Option.ne_none_iff_exists'.1 (hs.links l₀ hmem)
        obtain ⟨htagMem, hid⟩ := Table.get?_eq_some_iff.1 htag₀
        obtain ⟨l, hl, heq⟩ := hs'.linked tag₀ htagMem
        obtain ⟨hl, hne⟩ := mem_removeTag_iff.1 hl
        have hlId : l.tagId = tag.id := heq.trans (hid.trans htagId)
        refine .inr ⟨l, hl, hlId, fun hjob => hne ?_⟩
        rw [JobToTags.key, hjob, hlId]

/-- An `AddTag` that leaves no tag without a link fails without a trace. -/
theorem sameTagTables_of_failed {s : Store} (hs : s.LinksValid) {id : ℤ} {tag : JobTag}
    {f g : Bool} (hop : s.KeepsTagTables (.addTag id tag f g))
    (hfailed : (addTagWith f g s id tag).2.1 = false) :
    s.SameTagTables (addTagWith f g s id tag).2.2 := by
  rcases addTagWith_cases hs f g id tag with
    ⟨-, hsame, -⟩ | ⟨hf, hfree, tag', -, -, -, hlink⟩
  · exact hsame
  · rcases hlink with ⟨hg, -, -⟩ | ⟨-, hok, -⟩
    · exact absurd hfree ((hop hg).resolve_left (by simp [hf]))
    · rw [hok] at hfailed
      cases hfailed

/-- The tag that was just added has one link, so it may not be removed. -/
theorem not_keepsTagTables_removeTag {s : Store} (hs : s.LinksValid) {id : ℤ} {tag : JobTag}
    {f g : Bool} (hok : (addTagWith f g s id tag).2.1 = true) :
    ¬(addTagWith f g s id tag).2.2.KeepsTagTables
      (.removeTag id (addTagWith f g s id tag).1 false) := by
  intro hop
  rcases addTagWith_cases hs f g id tag with
    ⟨hfailed, -, -⟩ | ⟨-, hfree, tag', hid, hreturned, -, hlink⟩
  · rw [hok] at hfailed
    cases hfailed
  · rcases hlink with ⟨-, hfailed, -⟩ | ⟨-, -, hlink⟩
    · rw [hok] at hfailed
      cases hfailed
    · rw [hreturned] at hop
      rcases hop with hfails | hnone | ⟨l, hl, htag, hjob⟩
      · cases hfails
      · rw [Table.get?_eq_none_iff, hlink] at hnone
        exact absurd rfl (hnone { jobId := id, tagId := tag'.id } (by simp))
      · rw [hlink, List.mem_append, List.mem_singleton] at hl
        rcases hl with hl | rfl
        · exact absurd (htag.trans hid) (tagId_ne_of_free hs hfree hl)
        · exact absurd rfl hjob

/-! ## Sequences of operations -/

/-- What is expected of a sequence: the tables are consistent all the way, an `AddTag`
that fails leaves them as they are, and removing the tag that was just added restores
them. -/
structure TagTablesKept (s : Store) (ops : List TagOp) : Prop where
  consistent : Throughout (StepOf tagStep) s ops TagTablesConsistent
  failed : ∀ pre id tag f g t, pre ++ [.addTag id tag f g] <+: ops →
    Run (StepOf tagStep) s pre t → (addTagWith f g t id tag).2.1 = false →
      t.SameTagTables (addTagWith f g t id tag).2.2
  restored : ∀ pre id tag f g t,
    pre ++ [.addTag id tag f g, .removeTag id (addTagWith f g t id tag).1 false] <+: ops →
      Run (StepOf tagStep) s pre t → (addTagWith f g t id tag).2.1 = true →
        t.SameTagTables
          ((addTagWith f g t id tag).2.2.removeTag id (addTagWith f g t id tag).1)

/-- **Exactly the sequences that never leave a tag without a link** are as expected, from
empty tables. -/
theorem tagTablesKept_iff {s t : Store} {ops : List TagOp} (htags : s.jobTags = Table.empty)
    (hlinks : s.jobToTags = Table.empty) (h : Run (StepOf tagStep) s ops t) :
    s.TagTablesKept ops ↔ Run (Guarded KeepsTagTables (StepOf tagStep)) s ops t := by
  have h0 : s.TagTablesConsistent := by
    constructor
    · intro l hl
      rw [hlinks] at hl
      cases hl
    · intro tag htag
      rw [htags] at htag
      cases htag
  have hiff := throughout_iff_guarded (G := KeepsTagTables) h h0 (fun _ => id)
    (fun _ _ _ hs hstep hs' => keepsTagTables_of_consistent hs hstep hs')
    (fun _ _ _ hs hstep hop => tagTablesConsistent_step hs hstep hop)
  constructor
  · intro hkept
    exact hiff.1 hkept.consistent
  · intro hguarded
    have hall := hiff.2 hguarded
    refine ⟨hall, ?_, ?_⟩
    · intro pre id tag f g u hpre hrun hfailed
      have hu := hall pre u ((List.prefix_append pre _).trans hpre) hrun
      exact sameTagTables_of_failed hu.links (hguarded.guard_of_prefix hpre hrun) hfailed
    · intro pre id tag f g u hpre hrun hok
      have hu := hall pre u ((List.prefix_append pre _).trans hpre) hrun
      have hpre' : (pre ++ [.addTag id tag f g]) ++
          [.removeTag id (addTagWith f g u id tag).1 false] <+: ops := by
        rw [List.append_assoc]
        exact hpre
      have hnext : Run (StepOf tagStep) s (pre ++ [.addTag id tag f g])
          (addTagWith f g u id tag).2.2 := hrun.snoc rfl
      exact absurd (hguarded.guard_of_prefix hpre' hnext)
        (not_keepsTagTables_removeTag hu.links hok)

/-- Tagging a job twice, where the first link cannot be written because the first insert
fails already. -/
theorem tagTablesKept_retry :
    TagTablesKept {} [.addTag 1 { name := "slow" } true false,
      .addTag 1 { name := "slow" } false false] := by
  refine (tagTablesKept_iff rfl rfl (run_exec_iff.2 rfl)).2 ?_
  apply @Run.snoc _ _ _ _ [_]
  · apply @Run.snoc _ _ _ _ []
    · exact Run.nil
    · exact ⟨by rintro ⟨⟩, rfl⟩
  · exact ⟨by rintro ⟨⟩, rfl⟩

/-- A tag that was added and removed again stays in the table of tags. -/
def addAndRemove : List TagOp :=
  [.addTag 1 { name := "slow" } false false, .removeTag 1 { id := 1, name := "slow" } false]

/-- The tables that it leaves. -/
def afterAddAndRemove : Store :=
  { jobTags := Table.empty.upsert { id := 1, name := "slow" }, nextTagId := 2 }

theorem addAndRemove_not_kept :
    ¬∀ (s t : Store) (ops : List TagOp), s.jobTags = Table.empty → s.jobToTags = Table.empty →
      Run (StepOf tagStep) s ops t → s.TagTablesKept ops := by
  intro h
  have hrun : Run (StepOf tagStep) {} addAndRemove afterAddAndRemove :=
    run_exec_iff.2 (by decide +kernel)
  have hkept := h {} afterAddAndRemove addAndRemove rfl rfl hrun
  have hconsistent := hkept.consistent addAndRemove _ List.prefix_rfl hrun
  obtain ⟨l, hl, -⟩ := hconsistent.linked { id := 1, name := "slow" } List.mem_cons_self
  cases hl

end Store

end JobMon
