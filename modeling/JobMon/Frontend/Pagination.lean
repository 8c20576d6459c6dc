import JobMon.Lib.Pages
import JobMon.Frontend.JobFilter

/-!
# The pages of a list

`Jobs`, `JobList` and `SearchResultList` show a list page by page.  The page is kept in
the storage of the session and corrected while it is rendered, which renders it again.

* `pages`, `correction` — the number of pages, and what rendering sets the page to.
* `Jobs.correction`, `JobList.slice`, `SearchResultList.correction`,
  `SearchResultList.resultsSliced` — the two lists.
* `correction_eq` — a page is corrected exactly when it is not one of the list.
* `exists_settled` — at most two corrections lead to a page that stays.
* `stable_and_complete` — so for both lists, whose pages make up the list.
-/

namespace JobMon

open JobFilterForm (Number)

namespace Pagination

variable {α β : Type}

/-! ## Rendering -/

/-- `clamp`, of integers. -/
def clamp (val min' max' : ℤ) : ℤ := min (max val min') max'

/-- `length / limit`. -/
def pages (length limit : ℕ) : Number :=
  if limit = 0 then (if length = 0 then .nan else .infinity false) else .finite (length / limit)

/-- `0 < _`. -/
def positive : Number → Bool
  | .finite q => 0 < q
  | .infinity negative => !negative
  | .nan => false

/-- What rendering sets the page to, if anything.  Both corrections look at the page as
it was; the second one sets it last. -/
def correction (pages : Number) (page : ℤ) : Option ℤ :=
  let clamped :=
    match pages with
    | .finite q =>
      if page < 0 ∨ q.ceil < page then some (clamp page 0 q.ceil) else none
    | _ => none
  let repaired := if page = 0 ∧ positive pages then some 1 else none
  repaired.or clamped

/-- The page after rendering. -/
def rerender (correction : ℤ → Option ℤ) (page : ℤ) : ℤ := (correction page).getD page

end Pagination

/-- The page correction of `Jobs`. -/
def Jobs.correction {α : Type} (joblistLimit : ℕ) (mutableJobs : List α) (page : ℤ) : Option ℤ :=
  Pagination.correction (Pagination.pages mutableJobs.length joblistLimit) page

/-- `slice` of `JobList`. -/
def JobList.slice {α : Type} (limit : ℕ) (jobs : List α) (page : ℤ) : List α :=
  if limit ≠ 0 then Pages.slice jobs (limit * (page - 1)) (limit * (page - 1) + limit) else jobs

namespace SearchResultList

variable {α : Type}

/-- `limit`. -/
def limit : ℕ := 50

/-- The page correction of `SearchResultList`. -/
def correction (results : List α) (page : ℤ) : Option ℤ :=
  Pagination.correction (Pagination.pages results.length limit) page

/-- `resultsSliced`. -/
def resultsSliced (results : List α) (page : ℤ) : List α :=
  Pages.slice results (limit * (page - 1)) (limit * (page - 1) + limit)

end SearchResultList

namespace Pagination

/-! ## What is to be shown -/

/-- The last page, `Math.ceil(pages)`. -/
def lastPage (length limit : ℕ) : ℤ := ((length : ℚ) / limit).ceil

/-- At most two corrections lead from `page` to `final`, which is not corrected. -/
def SettlesAt (correction : ℤ → Option ℤ) (page final : ℤ) : Prop :=
  ∃ k ≤ 2, (rerender correction)^[k] page = final ∧ correction final = none ∧
    ∀ i < k, correction ((rerender correction)^[i] page) ≠ none

/-- `page` is one of a list. -/
def InRange (length limit : ℕ) (page : ℤ) : Prop :=
  if length = 0 then page = 0 else 1 ≤ page ∧ page ≤ lastPage length limit

/-- The pages from the first to the last one make up the list. -/
def Complete (limit : ℕ) (l : List α) (shown : ℤ → List α) : Prop :=
  (List.range (lastPage l.length limit).toNat).flatMap (fun k : ℕ => shown (k + 1)) = l ∧
    ∀ page, 1 ≤ page → page ≤ lastPage l.length limit →
      shown page ≠ [] ∧ (shown page).length ≤ limit

variable {length limit : ℕ} {page : ℤ}

theorem lastPage_eq (h : 0 < limit) : lastPage length limit = (Pages.pageCount limit length : ℤ) :=
  Pages.ceil_div_eq_pageCount h

theorem lastPage_nonneg (length : ℕ) (h : 0 < limit) : 0 ≤ lastPage length limit := by
  rw [lastPage_eq h]
  exact Nat.cast_nonneg _

theorem lastPage_pos_iff (length : ℕ) (h : 0 < limit) :
    0 < lastPage length limit ↔ length ≠ 0 := by
  rw [lastPage_eq h, Nat.cast_pos, Pages.lt_pageCount_iff h]
  omega

/-! ## The corrections -/

/-- **Which pages are corrected**, and to what. -/
theorem correction_eq (h : 0 < limit) (page : ℤ) :
    correction (pages length limit) page =
      if page < 0 then some 0
      else if lastPage length limit < page then some (lastPage length limit)
      else if page = 0 ∧ length ≠ 0 then some 1
      else none := by
  have hpages : pages length limit = .finite (length / limit) := if_neg (by omega)
  have hpos : positive (pages length limit) = true ↔ length ≠ 0 := by
    rw [hpages, ← lastPage_pos_iff length h, lastPage, Rat.lt_ceil_iff]
    simp [positive]
  have hlast := lastPage_nonneg length h
  simp only [correction, hpos]
  rw [hpages]
  simp only [← lastPage.eq_1, clamp]
  by_cases hneg : page < 0
  · simp [hneg, hneg.ne, hlast, max_eq_right hneg.le]
  · by_cases hover : lastPage length limit < page
    · have hne : page ≠ 0 := by omega
      simp [hneg, hover, hne]
      omega
    · simp [hneg, hover]

theorem correction_eq_none_iff (h : 0 < limit) :
    correction (pages length limit) page = none ↔ InRange length limit page := by
  have hlast := lastPage_nonneg length h
  have hpos := lastPage_pos_iff length h
  rw [correction_eq h, InRange]
  split_ifs <;> simp <;> omega

theorem rerender_eq_of_some {correction : ℤ → Option ℤ} {page page' : ℤ}
    (h : correction page = some page') : rerender correction page = page' := by
  simp [rerender, h]

/-- A page that is not corrected stays. -/
theorem settlesAt_self {correction : ℤ → Option ℤ} {page : ℤ} (h : correction page = none) :
    SettlesAt correction page page :=
  ⟨0, by omega, rfl, h, fun i hi => absurd hi (Nat.not_lt_zero i)⟩

/-- One correction. -/
theorem settlesAt_of_some {correction : ℤ → Option ℤ} {page final : ℤ}
    (h : correction page = some final) (hfinal : correction final = none) :
    SettlesAt correction page final := by
  refine ⟨1, by omega, rerender_eq_of_some h, hfinal, ?_⟩
  intro i hi
  obtain rfl : i = 0 := by omega
  simp [h]

/-- Two corrections. -/
theorem settlesAt_of_some_some {correction : ℤ → Option ℤ} {page page' final : ℤ}
    (h : correction page = some page') (h' : correction page' = some final)
    (hfinal : correction final = none) : SettlesAt correction page final := by
  refine ⟨2, Nat.le_refl _, ?_, hfinal, ?_⟩
  · simp [rerender_eq_of_some h, rerender_eq_of_some h']
  · intro i hi
    obtain rfl | rfl : i = 0 ∨ i = 1 := by omega
    · simp [h]
    · simp [rerender_eq_of_some h, h']

/-- **Every page settles**: after at most two corrections it is one of the list. -/
theorem exists_settled (h : 0 < limit) (length : ℕ) (page : ℤ) :
    ∃ final, SettlesAt (correction (pages length limit)) page final ∧
      InRange length limit final := by
  have hlast := lastPage_nonneg length h
  have hpos := lastPage_pos_iff length h
  -- the page that is reached from a page that is not one of the list
  have hfirst : InRange length limit (if length = 0 then 0 else 1) := by
    rw [InRange]
    split_ifs <;> omega
  by_cases hneg : page < 0
  · have hzero : correction (pages length limit) page = some 0 := by
      rw [correction_eq h, if_pos hneg]
    by_cases hlen : length = 0
    · rw [if_pos hlen] at hfirst
      exact ⟨0, settlesAt_of_some hzero ((correction_eq_none_iff h).2 hfirst), hfirst⟩
    · have hone : correction (pages length limit) 0 = some 1 := by
        simp [correction_eq h, hlen, hlast]
      rw [if_neg hlen] at hfirst
      exact ⟨1, settlesAt_of_some_some hzero hone ((correction_eq_none_iff h).2 hfirst), hfirst⟩
  · by_cases hover : lastPage length limit < page
    · have hcorr : correction (pages length limit) page = some (lastPage length limit) := by
        rw [correction_eq h, if_neg hneg, if_pos hover]
      have hin : InRange length limit (lastPage length limit) := by
        rw [InRange]
        split_ifs <;> omega
      exact ⟨_, settlesAt_of_some hcorr ((correction_eq_none_iff h).2 hin), hin⟩
    · by_cases hzero : page = 0 ∧ length ≠ 0
      · have hcorr : correction (pages length limit) page = some 1 := by
          rw [correction_eq h, if_neg hneg, if_neg hover, if_pos hzero]
        rw [if_neg hzero.2] at hfirst
        exact ⟨1, settlesAt_of_some hcorr ((correction_eq_none_iff h).2 hfirst), hfirst⟩
      · have hnone : correction (pages length limit) page = none := by
          rw [correction_eq h, if_neg hneg, if_neg hover, if_neg hzero]
        exact ⟨page, settlesAt_self hnone, (correction_eq_none_iff h).1 hnone⟩

/-! ## The slices -/

/-- The slice that is shown on a page is that page. -/
theorem slice_succ (limit : ℕ) (l : List α) (k : ℕ) :
    Pages.slice l (limit * ((k : ℤ) + 1 - 1)) (limit * ((k : ℤ) + 1 - 1) + limit) =
      Pages.page limit l k := by
  have hstart : (limit : ℤ) * ((k : ℤ) + 1 - 1) = (limit * k : ℕ) := by push_cast; ring
  rw [hstart, Pages.slice_natCast, Pages.page]

theorem complete_of_eq_page (h : 0 < limit) {l : List α} {shown : ℤ → List α}
    (hshown : ∀ k : ℕ, shown (k + 1) = Pages.page limit l k) : Complete limit l shown := by
  constructor
  · simp only [hshown, lastPage_eq h, Int.toNat_natCast]
    exact Pages.flatMap_page_pageCount h l
  · intro page hone hlast
    obtain ⟨k, rfl⟩ : ∃ k : ℕ, page = k + 1 := ⟨(page - 1).toNat, by omega⟩
    rw [lastPage_eq h] at hlast
    rw [hshown]
    exact ⟨(Pages.page_ne_nil_iff h).2 (by omega), Pages.length_page_le limit l k⟩

theorem complete_jobList (h : 0 < limit) (jobs : List α) :
    Complete limit jobs (JobList.slice limit jobs) := by
  refine complete_of_eq_page h fun k => ?_
  rw [JobList.slice, if_pos (by omega), slice_succ]

theorem complete_searchResultList (results : List α) :
    Complete SearchResultList.limit results (SearchResultList.resultsSliced results) :=
  complete_of_eq_page (by decide) fun k => by rw [SearchResultList.resultsSliced, slice_succ]

/-- **Both lists are stable and complete**: every page settles at one of the list, and
the pages make up the list. -/
theorem stable_and_complete (jobs : List α) (results : List β) (joblistLimit : ℕ)
    (h : 0 < joblistLimit) (page : ℤ) :
    ((∃ final, SettlesAt (Jobs.correction joblistLimit jobs) page final ∧
        InRange jobs.length joblistLimit final) ∧
      Complete joblistLimit jobs (JobList.slice joblistLimit jobs)) ∧
    (∃ final, SettlesAt (SearchResultList.correction results) page final ∧
        InRange results.length SearchResultList.limit final) ∧
      Complete SearchResultList.limit results (SearchResultList.resultsSliced results) := by
  exact ⟨⟨exists_settled h jobs.length page, complete_jobList h jobs⟩,
    exists_settled (by decide) results.length page, complete_searchResultList results⟩

/-- Three jobs, two on a page, and a page that is far too high. -/
theorem stable_and_complete_threeJobs :
    ((∃ final, SettlesAt (Jobs.correction 2 ["1", "2", "3"]) 7 final ∧
        InRange 3 2 final) ∧
      Complete 2 ["1", "2", "3"] (JobList.slice 2 ["1", "2", "3"])) ∧
    (∃ final, SettlesAt (SearchResultList.correction ["a"]) 7 final ∧
        InRange 1 SearchResultList.limit final) ∧
      Complete SearchResultList.limit ["a"] (SearchResultList.resultsSliced ["a"]) :=
  stable_and_complete ["1", "2", "3"] ["a"] 2 (by decide) 7

end Pagination

end JobMon
