import Mathlib.Logic.Function.Basic
import JobMon.Frontend.PartitionSettings

/-!
# Deleting a metric in the settings

`components/settings/MetricsView.tsx`: the state `lConfig` holds an array of metrics, which
are objects; a click on `Delete` in the form of a metric sets the state more than once, each
time from the state of the current render, and writes to its array or to the metric in it.

* `Memory`, `LocalConfig` — arrays and objects have addresses, and the state has the address
  of an array.
* `setMetricConfig`, `removeCategoryFromMetric`, `confirmDelete` — the updates of one click,
  the last of which wins.
* `deleted` — the configuration there is to be.
* `deleteMetric_iff` — **when deleting takes effect**: exactly when the metric belongs to
  another category, too, and is in the array only once.
-/

namespace JobMon

namespace Settings

/-! ## The state -/

/-- `Configuration` of `types/config.ts`. -/
structure Configuration where
  metrics : List MetricConfig := []
  metricCategories : List String := []
  partitions : Partitions := Keyed.Table.empty
  deriving DecidableEq

/-- The metrics there are, by their addresses, and the arrays of metrics, by theirs. -/
structure Memory where
  objects : ℕ → MetricConfig
  arrays : List (List ℕ)

namespace Memory

variable (memory : Memory)

/-- The array at an address. -/
def array (address : ℕ) : List ℕ := memory.arrays[address]?.getD []

/-- An assignment to an object. -/
def setObject (address : ℕ) (m : MetricConfig) : Memory :=
  { memory with objects := Function.update memory.objects address m }

/-- An assignment to an array. -/
def setArray (address : ℕ) (items : List ℕ) : Memory :=
  { memory with arrays := memory.arrays.set address items }

/-- A new array, the last one. -/
def alloc (items : List ℕ) : Memory := { memory with arrays := memory.arrays ++ [items] }

end Memory

/-- `Categories.filter(c1 => c1 != c)`, assigned to the categories. -/
def withoutCategory (m : MetricConfig) (c : String) : MetricConfig :=
  { m with categories := m.categories.filter fun c1 => c1 ≠ c }

/-- The state `lConfig`: its array of metrics is an address. -/
structure LocalConfig where
  metrics : ℕ
  metricCategories : List String := []
  partitions : Partitions := Keyed.Table.empty

/-- The configuration a state stands for. -/
def Memory.read (memory : Memory) (lConfig : LocalConfig) : Configuration where
  metrics := (memory.array lConfig.metrics).map memory.objects
  metricCategories := lConfig.metricCategories
  partitions := lConfig.partitions

/-! ## A click -/

/-- What a click has done so far: the memory, and the states it has set. -/
structure Click where
  memory : Memory
  updates : List LocalConfig := []

def setLConfig (curConfig : LocalConfig) (s : Click) : Click :=
  { s with updates := s.updates ++ [curConfig] }

/-- `setMetricConfig` of the metric at `i`; `{...lConfig}` has the array of `lConfig`. -/
def setMetricConfig (lConfig : LocalConfig) (i m : ℕ) (del : Bool) (s : Click) : Click :=
  let metrics := s.memory.array lConfig.metrics
  if del then
    let curConfig := { lConfig with metrics := s.memory.arrays.length }
    setLConfig curConfig { s with memory := s.memory.alloc (metrics.eraseIdx i) }
  else
    setLConfig lConfig { s with memory := s.memory.setArray lConfig.metrics (metrics.set i m) }

/-- `removeCategoryFromMetric`. -/
def removeCategoryFromMetric (lConfig : LocalConfig) (m : ℕ) (c : String) (s : Click) : Click :=
  let metrics := s.memory.array lConfig.metrics
  match metrics.idxOf? m with
  | none => s
  | some indexOfMetric =>
    let address := metrics.getD indexOfMetric m
    let metric := withoutCategory (s.memory.objects address) c
    setLConfig lConfig { s with memory := s.memory.setObject address metric }

/-- The click on `Delete` in the form of the metric at `i`. -/
def confirmDelete (lConfig : LocalConfig) (i metricConfig : ℕ) (currentCategory : String)
    (s : Click) : Click :=
  let categories := (s.memory.objects metricConfig).categories
  let s :=
    if currentCategory ∈ categories ∧ categories.length = 1 then
      setMetricConfig lConfig i metricConfig true s
    else removeCategoryFromMetric lConfig metricConfig currentCategory s
  setMetricConfig lConfig i metricConfig false s

/-- The memory and the state after the click; the state that was set last wins. -/
def deleteMetric (memory : Memory) (lConfig : LocalConfig) (i : ℕ) (currentCategory : String) :
    Memory × LocalConfig :=
  match (memory.array lConfig.metrics)[i]? with
  | none => (memory, lConfig)
  | some metricConfig =>
    let s := confirmDelete lConfig i metricConfig currentCategory { memory }
    (s.memory, s.updates.getLast?.getD lConfig)

/-! ## What is to be done -/

/-- The configuration without the metric at `i` if `c` is its only category, or with `c`
removed from its categories. -/
def deleted (config : Configuration) (i : ℕ) (c : String) : Configuration :=
  match config.metrics[i]? with
  | none => config
  | some m =>
    if ∀ c' ∈ m.categories, c' = c then { config with metrics := config.metrics.eraseIdx i }
    else
      { config with metrics := config.metrics.set i (withoutCategory m c) }

section Delete

variable {memory : Memory} {lConfig : LocalConfig} {i m : ℕ} {c : String}

theorem address_lt (hm : (memory.array lConfig.metrics)[i]? = some m) :
    lConfig.metrics < memory.arrays.length := by
  by_contra h
  rw [Memory.array, List.getElem?_eq_none (not_lt.1 h)] at hm
  cases hm

theorem array_setArray {address : ℕ} (h : address < memory.arrays.length) (items : List ℕ) :
    (memory.setArray address items).array address = items := by
  rw [Memory.array, Memory.setArray, List.getElem?_set_self h, Option.getD_some]

theorem array_setObject (address : ℕ) (metric : MetricConfig) (address' : ℕ) :
    (memory.setObject address metric).array address' = memory.array address' := rfl

theorem array_alloc {address : ℕ} (h : address < memory.arrays.length) (items : List ℕ) :
    (memory.alloc items).array address = memory.array address := by
  rw [Memory.array, Memory.alloc, List.getElem?_append_left h, Memory.array]

/-- Writing a metric to where it is changes nothing. -/
theorem set_self {items : List ℕ} (h : items[i]? = some m) : items.set i m = items := by
  obtain ⟨hi, rfl⟩ := List.getElem?_eq_some_iff.1 h
  exact List.set_getElem_self hi

theorem idxOf_mem {items : List ℕ} (h : items[i]? = some m) :
    ∃ index, items.idxOf? m = some index ∧ items.getD index m = m := by
  cases hindex : items.idxOf? m with
  | none => exact absurd (List.mem_of_getElem? h) (List.idxOf?_eq_none_iff.1 hindex)
  | some index =>
    obtain ⟨hlt, heq, -⟩ := List.idxOf?_eq_some_iff.1 hindex
    refine ⟨index, rfl, ?_⟩
    rw [List.getD_eq_getElem?_getD, List.getElem?_eq_getElem hlt, Option.getD_some]
    simpa using heq

/-- The metric of a single category: the array without it is made, but the array there was
is set again. -/
theorem read_deleteMetric_single (hm : (memory.array lConfig.metrics)[i]? = some m)
    (hsingle : c ∈ (memory.objects m).categories ∧ (memory.objects m).categories.length = 1) :
    (deleteMetric memory lConfig i c).1.read (deleteMetric memory lConfig i c).2 =
      memory.read lConfig := by
  have hlt := address_lt hm
  have hlt' : lConfig.metrics <
      (memory.alloc ((memory.array lConfig.metrics).eraseIdx i)).arrays.length := by
    rw [Memory.alloc, List.length_append]
    exact Nat.lt_add_right _ hlt
  simp only [deleteMetric, hm, confirmDelete, if_pos hsingle, setMetricConfig, setLConfig, if_true,
    Bool.false_eq_true, if_false, List.getLast?_append, List.getLast?_singleton, Option.some_or,
    Option.getD_some]
  rw [Memory.read, array_setArray hlt', array_alloc hlt, set_self hm]
  rfl

/-- Any other metric: the category is removed from the object. -/
theorem read_deleteMetric (hm : (memory.array lConfig.metrics)[i]? = some m)
    (hsingle : ¬(c ∈ (memory.objects m).categories ∧ (memory.objects m).categories.length = 1)) :
    (deleteMetric memory lConfig i c).1.read (deleteMetric memory lConfig i c).2 =
      (memory.setObject m (withoutCategory (memory.objects m) c)).read lConfig := by
  have hlt : lConfig.metrics <
      (memory.setObject m (withoutCategory (memory.objects m) c)).arrays.length := address_lt hm
  obtain ⟨index, hindex, haddress⟩ := idxOf_mem hm
  simp only [deleteMetric, hm, confirmDelete, if_neg hsingle, setMetricConfig, setLConfig,
    removeCategoryFromMetric, hindex, haddress, Bool.false_eq_true, if_false,
    List.getLast?_append, List.getLast?_singleton, Option.some_or, Option.getD_some]
  rw [Memory.read, array_setArray hlt, array_setObject, set_self hm]
  rfl

theorem withoutCategory_ne {metric : MetricConfig} (h : c ∈ metric.categories) :
    withoutCategory metric c ≠ metric := by
  intro heq
  rw [← heq] at h
  simp [withoutCategory] at h

/-- Changing an object changes an array in one place exactly when the object is there only
once. -/
theorem map_update_eq_set_iff {f : ℕ → MetricConfig} {items : List ℕ} {metric : MetricConfig}
    (hm : items[i]? = some m) (hne : metric ≠ f m) :
    items.map (Function.update f m metric) = (items.map f).set i metric ↔
      ∀ j, items[j]? = some m → j = i := by
  constructor
  · intro h j hj
    by_contra hji
    have hget := congrArg (fun l => l[j]?) h
    simp [List.getElem?_set_ne (Ne.symm hji), hj] at hget
    exact hne hget
  · intro honce
    refine List.ext_getElem? fun j => ?_
    rw [List.getElem?_map, List.getElem?_set, List.getElem?_map, List.length_map]
    by_cases hij : i = j
    · subst hij
      rw [if_pos rfl, if_pos (List.getElem?_eq_some_iff.1 hm).1, hm, Option.map_some,
        Function.update_self]
    · rw [if_neg hij]
      cases hj : items[j]? with
      | none => rfl
      | some m' =>
        have hne' : m' ≠ m := by
          rintro rfl
          exact hij (honce j hj).symm
        rw [Option.map_some, Option.map_some, Function.update_of_ne hne']

/-- Deleting never shortens the array. -/
theorem length_deleteMetric (hm : (memory.array lConfig.metrics)[i]? = some m) :
    ((deleteMetric memory lConfig i c).1.read (deleteMetric memory lConfig i c).2).metrics.length =
      (memory.array lConfig.metrics).length := by
  by_cases hsingle : c ∈ (memory.objects m).categories ∧ (memory.objects m).categories.length = 1
  · rw [read_deleteMetric_single hm hsingle, Memory.read, List.length_map]
  · rw [read_deleteMetric hm hsingle, Memory.read, List.length_map, array_setObject]

/-- **When deleting a metric takes effect**: exactly when it belongs to another category,
too, and is in the array only once.  A metric of no other category stays. -/
theorem deleteMetric_iff (hm : (memory.array lConfig.metrics)[i]? = some m)
    (hcategory : c ∈ (memory.objects m).categories) :
    (deleteMetric memory lConfig i c).1.read (deleteMetric memory lConfig i c).2 =
        deleted (memory.read lConfig) i c ↔
      (∃ c' ∈ (memory.objects m).categories, c' ≠ c) ∧
        ∀ j, (memory.array lConfig.metrics)[j]? = some m → j = i := by
  have hget : (memory.read lConfig).metrics[i]? = some (memory.objects m) := by
    rw [Memory.read, List.getElem?_map, hm, Option.map_some]
  by_cases honly : ∀ c' ∈ (memory.objects m).categories, c' = c
  · -- the metric is to be removed, but the array keeps its length
    refine iff_of_false (fun h => ?_) fun ⟨⟨c', hc', hne⟩, _⟩ => hne (honly c' hc')
    have hlt : i < (memory.array lConfig.metrics).length := (List.getElem?_eq_some_iff.1 hm).1
    have hlength := length_deleteMetric (c := c) hm
    rw [h, deleted, hget] at hlength
    simp only [if_pos honly, Memory.read, List.length_eraseIdx, List.length_map, if_pos hlt]
      at hlength
    omega
  · have hother : ∃ c' ∈ (memory.objects m).categories, c' ≠ c := by
      simpa using honly
    have hsingle : ¬(c ∈ (memory.objects m).categories ∧
        (memory.objects m).categories.length = 1) := by
      rintro ⟨-, hlength⟩
      obtain ⟨c', hc'⟩ := List.length_eq_one_iff.1 hlength
      rw [hc'] at hcategory honly
      refine honly fun other hother => ?_
      rw [List.mem_singleton.1 hother, List.mem_singleton.1 hcategory]
    rw [read_deleteMetric hm hsingle, deleted, hget]
    simp only [if_neg honly]
    rw [← map_update_eq_set_iff hm (withoutCategory_ne hcategory), and_iff_right hother]
    refine ⟨fun h => congrArg Configuration.metrics h, fun h => ?_⟩
    rw [Memory.read, array_setObject, Memory.setObject, h]
    rfl

end Delete

/-! ## A configuration that was loaded -/

/-- The memory once a configuration is loaded: each metric is an object of its own. -/
def load (config : Configuration) : Memory × LocalConfig :=
  ({ objects := fun address => config.metrics.getD address {}
     arrays := [List.range config.metrics.length] },
    { metrics := 0
      metricCategories := config.metricCategories
      partitions := config.partitions })

theorem read_load (config : Configuration) : (load config).1.read (load config).2 = config := by
  have hmetrics : (List.range config.metrics.length).map (fun address =>
      config.metrics.getD address {}) = config.metrics := by
    refine List.ext_getElem (by simp) fun j hj hj' => ?_
    simp [List.getD_eq_getElem?_getD, hj']
  rw [Memory.read]
  exact congrArg (Configuration.mk · config.metricCategories config.partitions) hmetrics

/-- In a configuration that was loaded each metric is there once. -/
theorem deleteMetric_load (config : Configuration) {i : ℕ} {metric : MetricConfig}
    (hmetric : config.metrics[i]? = some metric) {c : String} (hcategory : c ∈ metric.categories) :
    (deleteMetric (load config).1 (load config).2 i c).1.read
          (deleteMetric (load config).1 (load config).2 i c).2 = deleted config i c ↔
      ∃ c' ∈ metric.categories, c' ≠ c := by
  have hlt : i < config.metrics.length := (List.getElem?_eq_some_iff.1 hmetric).1
  have harray : (load config).1.array (load config).2.metrics = List.range config.metrics.length :=
    rfl
  have hobject : (load config).1.objects i = metric := by
    simp only [load, List.getD_eq_getElem?_getD, hmetric, Option.getD_some]
  have hm : ((load config).1.array (load config).2.metrics)[i]? = some i := by
    rw [harray, List.getElem?_range hlt]
  have honce : ∀ j, ((load config).1.array (load config).2.metrics)[j]? = some i → j = i := by
    intro j hj
    rw [harray] at hj
    obtain ⟨_, hj⟩ := List.getElem?_eq_some_iff.1 hj
    rwa [List.getElem_range] at hj
  have hiff := deleteMetric_iff hm (c := c) (by rwa [hobject])
  rw [hobject, read_load] at hiff
  rw [hiff]
  exact and_iff_left honce

/-- Two metrics, each of one category. -/
def cpuAndMemory : Configuration :=
  { metrics :=
      [{ guid := "1", displayName := "CPU load", categories := ["CPU"] },
        { guid := "2", displayName := "Memory used", categories := ["Memory", "Node"] }]
    metricCategories := ["CPU", "Memory", "Node"] }

/-- The metric of a single category is still there. -/
theorem cpuAndMemory_notDeleted :
    (deleteMetric (load cpuAndMemory).1 (load cpuAndMemory).2 0 "CPU").1.read
        (deleteMetric (load cpuAndMemory).1 (load cpuAndMemory).2 0 "CPU").2 = cpuAndMemory ∧
      deleted cpuAndMemory 0 "CPU" =
        { cpuAndMemory with metrics := cpuAndMemory.metrics.drop 1 } ∧
      (deleteMetric (load cpuAndMemory).1 (load cpuAndMemory).2 0 "CPU").1.read
        (deleteMetric (load cpuAndMemory).1 (load cpuAndMemory).2 0 "CPU").2 ≠
          deleted cpuAndMemory 0 "CPU" := by
  decide +kernel

/-- The other one leaves the category. -/
theorem deleteMetric_iff_cpuAndMemory :
    (deleteMetric (load cpuAndMemory).1 (load cpuAndMemory).2 1 "Memory").1.read
          (deleteMetric (load cpuAndMemory).1 (load cpuAndMemory).2 1 "Memory").2 =
        deleted ((load cpuAndMemory).1.read (load cpuAndMemory).2) 1 "Memory" ↔
      (∃ c' ∈ ((load cpuAndMemory).1.objects 1).categories, c' ≠ "Memory") ∧
        ∀ j, ((load cpuAndMemory).1.array (load cpuAndMemory).2.metrics)[j]? = some 1 → j = 1 :=
  deleteMetric_iff (m := 1) (by decide) (by decide)

end Settings

end JobMon
