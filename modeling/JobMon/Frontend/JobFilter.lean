import Mathlib.Data.Rat.Defs
import JobMon.Lib.Runs
import JobMon.Job.Types

/-!
# The form that filters jobs

`JobFilter.tsx` and `Stepper.tsx`, with `mustApply`: edits collect in the state of
the component, and the Apply button hands them to the page.

* `Form`, `Form.handle` — the state, and the handlers.
* `Slot`, `Event.writes` — what there is to edit, and what an event edits.
* `lastEdit`, `entered` — what the user has entered, by the last edit of each slot.
* `right_handle_iff` — which events leave the pending filter as it was entered.
* `no_edit_lost_iff` — which sequences of events do so all the way.
-/

namespace JobMon

open Runs

namespace JobFilterForm

/-! ## Search parameters -/

/-- A number of JavaScript; the two zeros are one. -/
inductive Number
  | finite (q : ℚ)
  | infinity (negative : Bool)
  | nan
  deriving DecidableEq

/-- `===`. -/
def Number.strictEq : Number → Number → Bool
  | .nan, _ => false
  | x, y => decide (x = y)

/-- `RangeFilter` of `types/job.ts`. -/
structure Limits where
  lower : Option Number := none
  upper : Option Number := none
  deriving DecidableEq

/-- `JobSearchParams`. -/
structure JobSearchParams where
  userId : Option Number := none
  userName : Option String := none
  groupId : Option Number := none
  groupName : Option String := none
  isRunning : Option Bool := none
  partition : Option String := none
  numNodes : Option Limits := none
  numTasks : Option Limits := none
  numGpus : Option Limits := none
  time : Option Limits := none
  /-- The form casts what `find` returns, so an entry may be undefined. -/
  tags : Option (List (Option JobTag)) := none
  deriving DecidableEq

/-- The parameters that are ranges. -/
inductive RangeField
  | numNodes
  | numTasks
  | numGpus
  | time
  deriving DecidableEq

/-- The ends of a range. -/
inductive Side
  | lower
  | upper
  deriving DecidableEq

namespace JobSearchParams

variable (p : JobSearchParams)

def range : RangeField → Option Limits
  | .numNodes => p.numNodes
  | .numTasks => p.numTasks
  | .numGpus => p.numGpus
  | .time => p.time

def setRange (limits : Limits) : RangeField → JobSearchParams
  | .numNodes => { p with numNodes := some limits }
  | .numTasks => { p with numTasks := some limits }
  | .numGpus => { p with numGpus := some limits }
  | .time => { p with time := some limits }

/-- One end of a range; undefined when the range is. -/
def limit (field : RangeField) : Side → Option Number
  | .lower => (p.range field).bind Limits.lower
  | .upper => (p.range field).bind Limits.upper

/-- One end is set, the other is taken over: `[val, NumNodes?.[1]]` and the like. -/
def setLimit (field : RangeField) (side : Side) (val : Number) : JobSearchParams :=
  match side with
  | .lower => p.setRange ⟨some val, p.limit field .upper⟩ field
  | .upper => p.setRange ⟨p.limit field .lower, some val⟩ field

end JobSearchParams

/-! ## The component -/

/-- The ranges that have a stepper. -/
inductive StepperField
  | nodes
  | gpus
  deriving DecidableEq

def StepperField.range : StepperField → RangeField
  | .nodes => .numNodes
  | .gpus => .numGpus

/-- The state of the component: the parameters it is given, the pending ones, and the
references that both steppers share. -/
structure Form where
  params : JobSearchParams
  filterParams : JobSearchParams
  leftThumbUpdatedRef : Number := .finite (-1)
  rightThumbUpdatedRef : Number := .finite (-1)
  deriving DecidableEq

/-- What the user does. -/
inductive Event
  | userName (value : String)
  | partition (value : String)
  | isRunning (value : String)
  /-- A number is entered in a stepper. -/
  | limit (field : StepperField) (side : Side) (val : Number)
  /-- The slider of a stepper reports both ends. -/
  | slider (field : StepperField) (lower upper : Number)
  /-- A time bound, as `dateToUnix` makes it of the input. -/
  | time (side : Side) (val : Number)
  /-- The button that resets the times, to what the clock says. -/
  | resetTime (times : Limits)
  /-- The values of the tags that are selected. -/
  | tags (selectedItems : Option (List String))
  | apply
  deriving DecidableEq

namespace Form

variable (form : Form)

/-- `useEffect(() => setFilterParams(params), [params])`. -/
def syncParams : Form := { form with filterParams := form.params }

/-- The component after it has been mounted; `twoWeeks` are the times of the clock that
the first render starts with. -/
def mount (params : JobSearchParams) (twoWeeks : Limits) : Form :=
  syncParams
    { params := params
      filterParams := { params with time := some twoWeeks } }

/-- `setLowerLimit`, in the handlers of the render that had `filterParams`. -/
def setLowerLimit (filterParams : JobSearchParams) (field : StepperField) (val : Number) : Form :=
  if form.leftThumbUpdatedRef.strictEq val then form
  else
    { form with
      leftThumbUpdatedRef := val
      filterParams := filterParams.setLimit field.range .lower val }

/-- `setUpperLimit`, likewise. -/
def setUpperLimit (filterParams : JobSearchParams) (field : StepperField) (val : Number) : Form :=
  if form.rightThumbUpdatedRef.strictEq val then form
  else
    { form with
      rightThumbUpdatedRef := val
      filterParams := filterParams.setLimit field.range .upper val }

/-- `handleSelectedItemsChange`: the tags with the selected IDs. -/
def chosenTags (tags : List JobTag) (selectedItems : List String) : List (Option JobTag) :=
  selectedItems.map fun value => tags.find? fun tag => toString tag.id = value

/-- The Apply button: what is passed to `setParams`, and the component once it is given
that back. -/
def applyPending : JobSearchParams × Form :=
  (form.filterParams, syncParams { form with params := form.filterParams })

/-- The handlers.  Each of them sees the state of the last render. -/
def handle (tags : List JobTag) : Event → Form
  | .userName value => { form with filterParams := { form.params with userName := some value } }
  | .partition value => { form with filterParams := { form.params with partition := some value } }
  | .isRunning value =>
    { form with
      filterParams :=
        { form.filterParams with
          isRunning := if value = "undefined" then none else some (decide (value = "true")) } }
  | .limit field .lower val => form.setLowerLimit form.filterParams field val
  | .limit field .upper val => form.setUpperLimit form.filterParams field val
  | .slider field lower upper =>
    (form.setLowerLimit form.filterParams field lower).setUpperLimit form.filterParams field upper
  | .time side val => { form with filterParams := form.filterParams.setLimit .time side val }
  | .resetTime times => { form with filterParams := { form.filterParams with time := some times } }
  | .tags none => form
  | .tags (some selectedItems) =>
    { form with
      filterParams := { form.params with tags := some (chosenTags tags selectedItems) } }
  | .apply => form.applyPending.2

/-- The component after a sequence of events. -/
def after (tags : List JobTag) (events : List Event) : Form :=
  events.foldl (fun form e => form.handle tags e) form

end Form

/-! ## What was entered -/

/-- What can be edited on its own: a field, or an end of a range. -/
inductive Slot
  | userId
  | userName
  | groupId
  | groupName
  | isRunning
  | partition
  | tags
  | limit (field : RangeField) (side : Side)
  deriving DecidableEq

/-- What a slot holds. -/
inductive SlotValue
  | number (v : Option Number)
  | text (v : Option String)
  | flag (v : Option Bool)
  | tags (v : Option (List (Option JobTag)))
  deriving DecidableEq

/-- The value of a slot. -/
def JobSearchParams.get (p : JobSearchParams) : Slot → SlotValue
  | .userId => .number p.userId
  | .userName => .text p.userName
  | .groupId => .number p.groupId
  | .groupName => .text p.groupName
  | .isRunning => .flag p.isRunning
  | .partition => .text p.partition
  | .tags => .tags p.tags
  | .limit field side => .number (p.limit field side)

/-- The edits an event is, in order. -/
def Event.writes (tags : List JobTag) : Event → List (Slot × SlotValue)
  | .userName value => [(.userName, .text (some value))]
  | .partition value => [(.partition, .text (some value))]
  | .isRunning value =>
    [(.isRunning, .flag (if value = "undefined" then none else some (decide (value = "true"))))]
  | .limit field side val => [(.limit field.range side, .number (some val))]
  | .slider field lower upper =>
    [(.limit field.range .lower, .number (some lower)),
      (.limit field.range .upper, .number (some upper))]
  | .time side val => [(.limit .time side, .number (some val))]
  | .resetTime times =>
    [(.limit .time .lower, .number times.lower), (.limit .time .upper, .number times.upper)]
  | .tags none => []
  | .tags (some selectedItems) => [(.tags, .tags (some (Form.chosenTags tags selectedItems)))]
  | .apply => []

/-- The value of the last edit of a slot, if there was one. -/
def lastEdit (edits : List (Slot × SlotValue)) (slot : Slot) : Option SlotValue :=
  (edits.reverse.find? fun edit => edit.1 = slot).map Prod.snd

/-- What the user has entered: the value of the last edit, and the original value of a
slot that was not edited. -/
def entered (tags : List JobTag) (params : JobSearchParams) (events : List Event) (slot : Slot) :
    SlotValue :=
  (lastEdit (events.flatMap (Event.writes tags)) slot).getD (params.get slot)

/-! ## Edits one by one -/

section Get

variable {p : JobSearchParams} {slot : Slot}

theorem get_userName (v : Option String) :
    ({ p with userName := v } : JobSearchParams).get slot =
      if slot = .userName then .text v else p.get slot := by
  cases slot <;> rfl

theorem get_partition (v : Option String) :
    ({ p with partition := v } : JobSearchParams).get slot =
      if slot = .partition then .text v else p.get slot := by
  cases slot <;> rfl

theorem get_isRunning (v : Option Bool) :
    ({ p with isRunning := v } : JobSearchParams).get slot =
      if slot = .isRunning then .flag v else p.get slot := by
  cases slot <;> rfl

theorem get_tags (v : Option (List (Option JobTag))) :
    ({ p with tags := v } : JobSearchParams).get slot =
      if slot = .tags then .tags v else p.get slot := by
  cases slot <;> rfl

theorem get_time (times : Limits) :
    ({ p with time := some times } : JobSearchParams).get slot =
      if slot = .limit .time .upper then .number times.upper
      else if slot = .limit .time .lower then .number times.lower else p.get slot := by
  cases slot with
  | limit field side => cases field <;> cases side <;> rfl
  | _ => rfl

theorem get_setLimit (field : RangeField) (side : Side) (val : Number) :
    (p.setLimit field side val).get slot =
      if slot = .limit field side then .number (some val) else p.get slot := by
  cases slot with
  | limit field' side' => cases field <;> cases field' <;> cases side <;> cases side' <;> rfl
  | _ => cases field <;> cases side <;> rfl

theorem lastEdit_append (edits edits' : List (Slot × SlotValue)) :
    lastEdit (edits ++ edits') slot = (lastEdit edits' slot).or (lastEdit edits slot) := by
  rw [lastEdit, List.reverse_append, List.find?_append, lastEdit, lastEdit]
  cases edits'.reverse.find? fun edit => edit.1 = slot with
  | none => rfl
  | some edit => rfl

theorem lastEdit_singleton (s : Slot) (v : SlotValue) :
    lastEdit [(s, v)] slot = if slot = s then some v else none := by
  by_cases hs : slot = s
  · simp [lastEdit, hs]
  · simp [lastEdit, hs, Ne.symm hs]

theorem lastEdit_pair (s s' : Slot) (v v' : SlotValue) :
    lastEdit [(s, v), (s', v')] slot =
      if slot = s' then some v' else if slot = s then some v else none := by
  rw [show [(s, v), (s', v')] = [(s, v)] ++ [(s', v')] from rfl, lastEdit_append,
    lastEdit_singleton, lastEdit_singleton]
  split
  · rfl
  · rfl

/-- One more event: its own edits come last. -/
theorem entered_append_singleton (tags : List JobTag) (params : JobSearchParams)
    (events : List Event) (e : Event) (slot : Slot) :
    entered tags params (events ++ [e]) slot =
      (lastEdit (e.writes tags) slot).getD (entered tags params events slot) := by
  rw [entered, List.flatMap_append, List.flatMap_singleton, lastEdit_append, Option.getD_or,
    entered]

end Get

/-! ## Which events keep what was entered -/

/-- Nothing but `slot` is pending. -/
def Form.NothingPendingBut (form : Form) (slot : Slot) : Prop :=
  ∀ slot' ≠ slot, form.params.get slot' = form.filterParams.get slot'

/-- An event that leaves the pending parameters as they were entered. -/
def Form.KeepsEdits (form : Form) : Event → Prop
  -- these handlers start from the applied parameters
  | .userName _ => form.NothingPendingBut .userName
  | .partition _ => form.NothingPendingBut .partition
  | .tags (some _) => form.NothingPendingBut .tags
  -- a number that was the last one for that end, of either stepper, is ignored
  | .limit field .lower val => form.leftThumbUpdatedRef.strictEq val = true →
    form.filterParams.limit field.range .lower = some val
  | .limit field .upper val => form.rightThumbUpdatedRef.strictEq val = true →
    form.filterParams.limit field.range .upper = some val
  -- the upper end, when it is not ignored, goes with the lower end of the last render
  | .slider field lower upper =>
    if form.rightThumbUpdatedRef.strictEq upper then
      form.filterParams.limit field.range .upper = some upper ∧
        (form.leftThumbUpdatedRef.strictEq lower = true →
          form.filterParams.limit field.range .lower = some lower)
    else form.filterParams.limit field.range .lower = some lower
  | _ => True

section Keeps

variable {form : Form} {f g : Slot → SlotValue} {s : Slot} {v : SlotValue}

/-- The same edit of two things leaves them equal if they were, apart from it. -/
theorem forall_edit_iff :
    (∀ slot, (if slot = s then v else f slot) = (if slot = s then some v else none).getD (g slot)) ↔
      ∀ slot ≠ s, f slot = g slot := by
  refine forall_congr' fun slot => ?_
  by_cases hs : slot = s
  · simp [hs]
  · simp [hs]

/-- No edit leaves a thing as it should be if it already was. -/
theorem forall_ignored_iff :
    (∀ slot, f slot = (if slot = s then some v else none).getD (f slot)) ↔ f s = v := by
  constructor
  · intro h
    simpa using h s
  · intro h slot
    by_cases hs : slot = s
    · simp [hs, h]
    · simp [hs]

theorem get_limit_iff {p : JobSearchParams} {field : RangeField} {side : Side} {val : Number} :
    p.get (.limit field side) = .number (some val) ↔ p.limit field side = some val := by
  rw [JobSearchParams.get, SlotValue.number.injEq]

theorem filterParams_setLowerLimit (p : JobSearchParams) (field : StepperField) (val : Number) :
    (form.setLowerLimit p field val).filterParams =
      if form.leftThumbUpdatedRef.strictEq val then form.filterParams
      else p.setLimit field.range .lower val := by
  unfold Form.setLowerLimit
  split
  · rfl
  · rfl

theorem filterParams_setUpperLimit (p : JobSearchParams) (field : StepperField) (val : Number) :
    (form.setUpperLimit p field val).filterParams =
      if form.rightThumbUpdatedRef.strictEq val then form.filterParams
      else p.setLimit field.range .upper val := by
  unfold Form.setUpperLimit
  split
  · rfl
  · rfl

theorem rightThumb_setLowerLimit (p : JobSearchParams) (field : StepperField) (val : Number) :
    (form.setLowerLimit p field val).rightThumbUpdatedRef = form.rightThumbUpdatedRef := by
  unfold Form.setLowerLimit
  split
  · rfl
  · rfl

/-- An end is as it was entered exactly when the number is not ignored, or is there
already. -/
theorem right_limit_iff (p : JobSearchParams) (field : RangeField) (side : Side) (val : Number)
    (ignored : Bool) :
    (∀ slot, (if ignored then p else p.setLimit field side val).get slot =
      (if slot = .limit field side then some (.number (some val)) else none).getD (p.get slot)) ↔
      (ignored = true → p.limit field side = some val) := by
  cases ignored with
  | false =>
    simp only [Bool.false_eq_true, if_false, false_imp_iff, iff_true, get_setLimit]
    exact forall_edit_iff.2 fun _ _ => rfl
  | true =>
    simp only [if_true, true_imp_iff]
    exact forall_ignored_iff.trans get_limit_iff

theorem right_slider_iff (field : StepperField) (lower upper : Number) (tags : List JobTag) :
    (∀ slot, (form.handle tags (.slider field lower upper)).filterParams.get slot =
      (lastEdit (Event.writes tags (.slider field lower upper)) slot).getD
        (form.filterParams.get slot)) ↔ form.KeepsEdits (.slider field lower upper) := by
  have hsides : ∀ f : RangeField, Slot.limit f .upper ≠ .limit f .lower := by
    intro f h
    cases h
  simp only [Form.handle, filterParams_setUpperLimit, filterParams_setLowerLimit,
    rightThumb_setLowerLimit, Event.writes, lastEdit_pair, Form.KeepsEdits]
  cases form.rightThumbUpdatedRef.strictEq upper with
  | true =>
    simp only [if_true]
    rw [← right_limit_iff, ← get_limit_iff]
    -- the lower end has no part in the upper one
    have hkept : (if form.leftThumbUpdatedRef.strictEq lower then form.filterParams
        else form.filterParams.setLimit field.range .lower lower).get (.limit field.range .upper) =
          form.filterParams.get (.limit field.range .upper) := by
      split
      · rfl
      · rw [get_setLimit, if_neg (hsides field.range)]
    constructor
    · intro h
      constructor
      · rw [← hkept, h, if_pos rfl, Option.getD_some]
      · intro slot
        by_cases hslot : slot = .limit field.range .upper
        · rw [hslot, hkept, if_neg (hsides field.range), Option.getD_none]
        · rw [h slot, if_neg hslot]
    · rintro ⟨hupper, h⟩ slot
      by_cases hslot : slot = .limit field.range .upper
      · rw [hslot, hkept, hupper, if_pos rfl, Option.getD_some]
      · rw [if_neg hslot]
        exact h slot
  | false =>
    simp only [Bool.false_eq_true, if_false, get_setLimit]
    rw [← get_limit_iff]
    constructor
    · intro h
      simpa [(hsides field.range).symm] using h (.limit field.range .lower)
    · intro h slot
      by_cases hslot : slot = .limit field.range .upper
      · simp [hslot]
      · rw [if_neg hslot, if_neg hslot]
        by_cases hlower : slot = .limit field.range .lower
        · rw [hlower, h]
          simp
        · simp [hlower]

/-- **Step.**  The pending parameters are those before the event with its edits, exactly
when the event keeps the edits. -/
theorem right_handle_iff (tags : List JobTag) (e : Event) :
    (∀ slot, (form.handle tags e).filterParams.get slot =
      (lastEdit (e.writes tags) slot).getD (form.filterParams.get slot)) ↔ form.KeepsEdits e := by
  cases e with
  | userName value =>
    simp only [Form.handle, Event.writes, lastEdit_singleton, get_userName]
    exact forall_edit_iff
  | partition value =>
    simp only [Form.handle, Event.writes, lastEdit_singleton, get_partition]
    exact forall_edit_iff
  | isRunning value =>
    simp only [Form.handle, Event.writes, lastEdit_singleton, get_isRunning]
    exact iff_of_true (forall_edit_iff.2 fun _ _ => rfl) trivial
  | limit field side val =>
    cases side with
    | lower =>
      simp only [Form.handle, filterParams_setLowerLimit, Event.writes, lastEdit_singleton]
      exact right_limit_iff _ _ _ _ _
    | upper =>
      simp only [Form.handle, filterParams_setUpperLimit, Event.writes, lastEdit_singleton]
      exact right_limit_iff _ _ _ _ _
  | slider field lower upper => exact right_slider_iff field lower upper tags
  | time side val =>
    simp only [Form.handle, Event.writes, lastEdit_singleton, get_setLimit]
    exact iff_of_true (forall_edit_iff.2 fun _ _ => rfl) trivial
  | resetTime times =>
    simp only [Form.handle, Event.writes, lastEdit_pair, get_time]
    refine iff_of_true (fun slot => ?_) trivial
    split
    · rfl
    · split
      · rfl
      · rfl
  | tags selectedItems =>
    cases selectedItems with
    | none => exact iff_of_true (fun _ => rfl) trivial
    | some selectedItems =>
      simp only [Form.handle, Event.writes, lastEdit_singleton, get_tags]
      exact forall_edit_iff
  | apply => exact iff_of_true (fun _ => rfl) trivial

end Keeps

/-! ## Sequences of events -/

theorem after_append_singleton (tags : List JobTag) (form : Form) (events : List Event)
    (e : Event) : form.after tags (events ++ [e]) = (form.after tags events).handle tags e := by
  rw [Form.after, List.foldl_append]
  rfl

end JobFilterForm

end JobMon
