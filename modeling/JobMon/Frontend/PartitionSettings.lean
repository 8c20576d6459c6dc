import JobMon.Frontend.JobFilter
import JobMon.Frontend.MetricDataCharts
import JobMon.Frontend.NodeRange

/-!
# Saving a partition in the settings

`components/settings/PartitionsView.tsx`: the configuration of the partitions is shown as
one item for each physical partition and one for each virtual partition in it, and an item
is saved or deleted with `setPartitionConfig`.  The values of its form are those the item
was first shown with, apart from what is entered.

* `createPartitionItem`, `setPartitionConfig` — the items, and what is done with one; `none`
  is a `TypeError`.
* `Entered.errors`, `submit` — the checks of the form, and what a button of it does.
* `Place`, `entryAt` — a configuration as entries at places.
* `OnlyTouched` — what saving or deleting one partition is to do.
* `onlyTouched_iff` — **when it does**: exactly when the parent that is chosen for a virtual
  partition is the one it has, and the form of a physical partition was opened with the
  virtual partitions that are in it now.
-/

namespace JobMon

open Keyed Charts

open JobFilterForm (Number)
open PartitionsView (validateSlurmNodeRange)

namespace Settings

/-! ## The configuration -/

/-- `VirtualPartitionConfig`; `none` is null. -/
structure VirtualPartitionConfig where
  metrics : Option (List String) := none
  nodes : Option (List String) := none
  deriving DecidableEq

/-- `PartitionConfig`; `none` is null, or a key that a partition does not have which was
just added. -/
structure PartitionConfig where
  maxTime : Option Number := none
  metrics : Option (List String) := none
  virtualPartitions : Option (Map String VirtualPartitionConfig) := none
  deriving DecidableEq

/-- `Partitions` of the configuration. -/
abbrev Partitions := Map String PartitionConfig

/-! ## The items -/

/-- `ExtendedPartitionConfig` or `ExtendedVirtualPartitionConfig`, as far as saving reads
it; `none` is a key that is absent, or null. -/
structure ExtendedConfig where
  displayName : String
  isVirtual : Bool
  parent : Option String := none
  stringNodes : Option String := none
  metrics : Option (List String) := none
  maxTime : Option Number := none
  virtualPartitions : Option (Map String VirtualPartitionConfig) := none

/-- A text that is tested as a condition. -/
def truthy (text : Option String) : Option String := text.filter fun s => s ≠ ""

/-- The configuration of an item, `partitionConfig` in `createPartitionItem`. -/
def createPartitionItem (partitions : Partitions) (pName : String) (parent : Option String) :
    Option ExtendedConfig :=
  match truthy parent with
  | some parent =>
    (partitions.lookup parent).bind fun p =>
      (p.virtualPartitions.bind fun vps => vps.lookup pName).map fun vp =>
        { displayName := pName
          isVirtual := true
          parent := some parent
          stringNodes := some ((vp.nodes.map fun nodes => ",".intercalate nodes).getD "")
          metrics := vp.metrics }
  | none =>
    let p := (partitions.lookup pName).getD {}
    some
      { displayName := pName
        isVirtual := false
        metrics := p.metrics
        maxTime := p.maxTime
        virtualPartitions := p.virtualPartitions }

/-- What the fields of the form hold when it is submitted; the time is there if the item
has one, or if one was entered. -/
structure Entered where
  displayName : String
  isVirtual : Bool
  parent : String
  stringNodes : String := ""
  metrics : Option (List String) := none
  maxTime : Option Number := none

/-- `validateNotEmpty`. -/
def validateNotEmpty (value : String) : String :=
  if 0 < value.length then "" else "Value is required"

/-- `validateNumber`, of the number a text is; a field that holds nothing is none. -/
def validateNumber (value : Option Number) : String :=
  if value.getD .nan = .nan then "Not a number" else ""

/-- The errors of the fields that are shown. -/
def Entered.errors (e : Entered) : List String :=
  [validateNotEmpty e.displayName,
    if e.isVirtual then validateSlurmNodeRange e.stringNodes else validateNumber e.maxTime].filter
      fun error => error ≠ ""

/-- The values that are submitted: what has no field keeps its initial value. -/
def Entered.values (e : Entered) (initialValues : ExtendedConfig) : ExtendedConfig :=
  { initialValues with
    displayName := e.displayName
    isVirtual := e.isVirtual
    parent := some e.parent
    stringNodes := some e.stringNodes
    metrics := e.metrics
    maxTime := e.maxTime }

/-- What `setPartitionConfig` leaves: the partitions, and the item that is open. -/
structure Saved where
  partitions : Partitions
  accIndex : Option ℤ
  deriving DecidableEq

/-- `findIndex`, of one text. -/
def findIndex (keys : List String) (key : String) : ℤ :=
  match keys.findIdx? fun v => v = key with
  | some i => i
  | none => -1

/-- The nodes that are saved, `Nodes`. -/
def nodesOf (stringNodes : Option String) : Option (List String) :=
  (truthy stringNodes).map fun s => Go.split s ','

/-- `setPartitionConfig`, of the item `pName`. -/
def setPartitionConfig (partitions : Partitions) (accIndex : Option ℤ) (pName : String)
    (partitionConfig pConf : ExtendedConfig) (del : Bool) : Option Saved := do
  -- the virtual state has changed: the previous entry is deleted
  let partitions : Partitions ←
    if partitionConfig.isVirtual ≠ pConf.isVirtual then
      if pConf.isVirtual then some (partitions.erase pName)
      else
        match truthy pConf.parent with
        | some parent =>
          (partitions.lookup parent).map fun p =>
            partitions.upsert (parent,
              { p with virtualPartitions := p.virtualPartitions.map fun vps => vps.erase pName })
        | none => some partitions
    else some partitions
  if pConf.isVirtual then
    match truthy pConf.parent with
    | none => some ⟨partitions, accIndex⟩
    | some parent =>
      (partitions.lookup parent).map fun p =>
        match del, p.virtualPartitions with
        | true, some vps =>
          ⟨partitions.upsert (parent, { p with virtualPartitions := some (vps.erase pName) }), none⟩
        | _, vps =>
          let vps := vps.getD Table.empty
          let vps := if pConf.displayName ≠ pName then vps.erase pName else vps
          let vps := vps.upsert (pConf.displayName,
            { nodes := nodesOf pConf.stringNodes, metrics := pConf.metrics })
          let partitions := partitions.upsert (parent, { p with virtualPartitions := some vps })
          let pIndex := findIndex (objectKeys partitions) parent
          let vIndex := findIndex (objectKeys vps) pConf.displayName
          ⟨partitions, some (pIndex + vIndex + 1)⟩
  else if del then some ⟨partitions.erase pName, accIndex⟩
  else
    let partitions :=
      if pConf.displayName ≠ pName then partitions.erase pName else partitions
    some ⟨partitions.upsert (pConf.displayName,
      { maxTime := some (pConf.maxTime.getD (.finite 0))
        metrics := pConf.metrics
        virtualPartitions := pConf.virtualPartitions }), accIndex⟩

/-- What is done with an item. -/
inductive Request
  | save (e : Entered)
  | delete

/-! ## Entries and places -/

/-- Where an entry is: a physical partition, or a virtual one in it. -/
structure Place where
  partition : String
  virtual : Option String := none
  deriving DecidableEq

/-- The name of the partition at a place. -/
def Place.name (place : Place) : String := place.virtual.getD place.partition

/-- What is configured for one partition, apart from those in it. -/
inductive Entry
  | physical (maxTime : Option Number) (metrics : Option (List String))
  | virtual (config : VirtualPartitionConfig)
  deriving DecidableEq

/-- The entry of a partition, or of a virtual one in it. -/
def PartitionConfig.entry (p : PartitionConfig) : Option String → Option Entry
  | none => some (.physical p.maxTime p.metrics)
  | some v => (p.virtualPartitions.bind fun vps => vps.lookup v).map .virtual

def entryAt (partitions : Partitions) (place : Place) : Option Entry :=
  (partitions.lookup place.partition).bind fun p => p.entry place.virtual

/-- The item at a place is saved or deleted.  `opened` are the partitions the form has its
initial values from, which it takes when the item is first shown: it is not reinitialized
when the item changes. -/
def submit (opened partitions : Partitions) (accIndex : Option ℤ) (place : Place)
    (request : Request) : Option Saved :=
  let parent := if place.virtual = none then none else some place.partition
  (createPartitionItem partitions place.name parent).bind fun partitionConfig =>
    match request with
    | .save e =>
      if e.errors = [] then
        (createPartitionItem opened place.name parent).bind fun initialValues =>
          setPartitionConfig partitions accIndex place.name partitionConfig
            (e.values initialValues) false
      else some ⟨partitions, accIndex⟩
    | .delete =>
      setPartitionConfig partitions accIndex place.name partitionConfig partitionConfig true

/-! ## What is to be done -/

/-- Where a partition is saved, and what is entered for it. -/
def Entered.place (e : Entered) : Place :=
  if e.isVirtual then ⟨e.parent, some e.displayName⟩ else ⟨e.displayName, none⟩

def Entered.entry (e : Entered) : Entry :=
  if e.isVirtual then .virtual { nodes := nodesOf (some e.stringNodes), metrics := e.metrics }
  else .physical (some (e.maxTime.getD (.finite 0))) e.metrics

/-- The entry there is to be for the partition afterwards. -/
def Request.saved : Request → Option (Place × Entry)
  | .save e => some (e.place, e.entry)
  | .delete => none

/-- `place` is `outer` or inside it. -/
def Place.Within (place outer : Place) : Prop :=
  place = outer ∨ outer.virtual = none ∧ place.partition = outer.partition

/-- Only the partition at `old` was saved or deleted.  What is inside a physical partition
belongs to it. -/
structure OnlyTouched (before after : Partitions) (old : Place) (saved : Option (Place × Entry)) :
    Prop where
  /-- Under its old and its new name there is the one entry, or none once it is deleted. -/
  edited : ∀ place, place.name = old.name ∨ (∃ new ∈ saved, place.name = new.1.name) →
    entryAt after place = (saved.filter fun new => new.1 = place).map Prod.snd
  /-- A physical partition keeps what is inside it, under its new name. -/
  inside : ∀ new ∈ saved, new.1.virtual = none → ∀ v,
    entryAt after ⟨new.1.partition, some v⟩ =
      if old.virtual = none then entryAt before ⟨old.partition, some v⟩ else none
  /-- Everything else is unchanged. -/
  others : ∀ place, ¬ place.Within old → (∀ new ∈ saved, ¬ place.Within new.1) →
    entryAt after place = entryAt before place

/-- Every other partition still has its entry somewhere. -/
def LosesNothing (before after : Partitions) (old : Place) : Prop :=
  ∀ place entry, place.name ≠ old.name → entryAt before place = some entry →
    ∃ place', place'.name = place.name ∧ entryAt after place' = some entry

/-- The places that have entries. -/
def places (partitions : Partitions) : List Place :=
  partitions.rows.flatMap fun r =>
    ⟨r.1, none⟩ :: ((r.2.virtualPartitions.map fun vps => vps.rows).getD []).map fun v =>
      ⟨r.1, some v.1⟩

/-- The names of partitions are pairwise distinct, and none is empty: the form refuses an
empty name, and an empty parent is none. -/
structure WellNamed (partitions : Partitions) : Prop where
  distinct : ((places partitions).map Place.name).Nodup
  nonempty : "" ∉ (places partitions).map Place.name

/-- The form can be submitted: its fields have no errors, the name is the old one or an
unused one, and the parent is another physical partition. -/
structure Entered.Allowed (partitions : Partitions) (old : Place) (e : Entered) : Prop where
  accepted : e.errors = []
  unused : e.displayName = old.name ∨ e.displayName ∉ (places partitions).map Place.name
  parent : e.isVirtual = true ∨ old.virtual ≠ none →
    (entryAt partitions ⟨e.parent, none⟩).isSome ∧ (⟨e.parent, none⟩ : Place) ≠ old

def Request.Allowed (partitions : Partitions) (old : Place) : Request → Prop
  | .save e => e.Allowed partitions old
  | .delete => True

/-- A virtual partition is saved with the parent it has in the form. -/
def Request.KeepsParent (old : Place) : Request → Prop
  | .save e => old.virtual ≠ none → e.parent = old.partition
  | .delete => True

/-- The form of a physical partition was opened with what is inside it now: there is no field
for that. -/
def Request.KeepsHidden (opened partitions : Partitions) (old : Place) : Request → Prop
  | .save e => old.virtual = none → e.isVirtual = false →
      ∀ v, entryAt opened ⟨old.partition, some v⟩ = entryAt partitions ⟨old.partition, some v⟩
  | .delete => True

/-- What is inside a physical partition stays there. -/
def Request.KeepsInside (partitions : Partitions) (old : Place) (request : Request) : Prop :=
  old.virtual = none → (∃ new ∈ request.saved, new.1.virtual = none) ∨
    ∀ v, entryAt partitions ⟨old.partition, some v⟩ = none

/-! ## Entries -/

section Entries

variable {partitions : Partitions} {place : Place}

theorem isSome_entryAt_physical {a : String} :
    (entryAt partitions ⟨a, none⟩).isSome ↔ ∃ p, partitions.lookup a = some p := by
  cases h : partitions.lookup a with
  | none => simp [entryAt, h]
  | some p => simp [entryAt, h, PartitionConfig.entry]

theorem isSome_entryAt_virtual {a v : String} : (entryAt partitions ⟨a, some v⟩).isSome ↔
    ∃ p vps vp, partitions.lookup a = some p ∧ p.virtualPartitions = some vps ∧
      vps.lookup v = some vp := by
  cases h : partitions.lookup a with
  | none => simp [entryAt, h]
  | some p =>
    cases hvps : p.virtualPartitions with
    | none => simp [entryAt, h, PartitionConfig.entry, hvps]
    | some vps => simp [entryAt, h, PartitionConfig.entry, hvps, Option.isSome_iff_exists]

/-- A virtual partition is inside one that is there. -/
theorem isSome_entryAt_partition (h : (entryAt partitions place).isSome) :
    (entryAt partitions ⟨place.partition, none⟩).isSome := by
  rw [isSome_entryAt_physical]
  rw [entryAt, Option.isSome_iff_exists] at h
  obtain ⟨entry, hentry⟩ := h
  obtain ⟨p, hp, -⟩ := Option.bind_eq_some_iff.1 hentry
  exact ⟨p, hp⟩

theorem mem_places_iff : place ∈ places partitions ↔ (entryAt partitions place).isSome := by
  obtain ⟨a, w⟩ := place
  simp only [places, List.mem_flatMap, List.mem_cons, List.mem_map]
  cases w with
  | none =>
    rw [isSome_entryAt_physical]
    simp [Map.lookup_eq_some_iff]
  | some v =>
    rw [isSome_entryAt_virtual]
    constructor
    · rintro ⟨⟨b, p⟩, hr, h | ⟨⟨v', vp⟩, hv, h⟩⟩
      · simp at h
      · cases hvps : p.virtualPartitions with
        | none => simp [hvps] at hv
        | some vps =>
          obtain ⟨rfl, rfl⟩ : b = a ∧ v' = v := by simpa using h
          exact ⟨p, vps, vp, Map.lookup_eq_some_iff.2 hr, hvps,
            Map.lookup_eq_some_iff.2 (by simpa [hvps] using hv)⟩
    · rintro ⟨p, vps, vp, hp, hvps, hvp⟩
      refine ⟨(a, p), Map.lookup_eq_some_iff.1 hp, Or.inr ⟨(v, vp), ?_, rfl⟩⟩
      simpa [hvps] using Map.lookup_eq_some_iff.1 hvp

theorem entryAt_erase (partition : String) :
    entryAt (partitions.erase partition) place =
      if place.partition = partition then none else entryAt partitions place := by
  rw [entryAt, Map.lookup_erase]
  split_ifs
  · rfl
  · rfl

theorem entryAt_upsert (partition : String) (p : PartitionConfig) :
    entryAt (partitions.upsert (partition, p)) place =
      if place.partition = partition then p.entry place.virtual else entryAt partitions place := by
  rw [entryAt, Map.lookup_upsert]
  split_ifs
  · rfl
  · rfl

theorem entryAt_of_lookup {p : PartitionConfig} (h : partitions.lookup place.partition = some p) :
    entryAt partitions place = p.entry place.virtual := by
  rw [entryAt, h, Option.bind_some]

/-- What deleting a virtual partition in `parent` does. -/
theorem entryAt_deleted {parent : String} {p : PartitionConfig}
    (hp : partitions.lookup parent = some p) (v : String) :
    entryAt (partitions.upsert (parent,
        { p with virtualPartitions := p.virtualPartitions.map fun vps => vps.erase v })) place =
      if place = ⟨parent, some v⟩ then none else entryAt partitions place := by
  obtain ⟨a, w⟩ := place
  rw [entryAt_upsert]
  by_cases ha : a = parent
  · subst ha
    rw [if_pos rfl, entryAt_of_lookup hp]
    cases w with
    | none => simp [PartitionConfig.entry]
    | some w =>
      cases hvps : p.virtualPartitions with
      | none => simp [PartitionConfig.entry, hvps]
      | some vps =>
        by_cases hw : w = v
        · simp [PartitionConfig.entry, hw, Map.lookup_erase]
        · simp [PartitionConfig.entry, hvps, hw, Map.lookup_erase]
  · simp [ha]

/-- The partitions once `name` is saved in `parent`, which had the name `pName`. -/
def withVirtual (partitions : Partitions) (parent : String) (p : PartitionConfig)
    (pName name : String) (vp : VirtualPartitionConfig) : Partitions :=
  let vps := p.virtualPartitions.getD Table.empty
  partitions.upsert (parent, { p with
    virtualPartitions :=
      some ((if name ≠ pName then vps.erase pName else vps).upsert (name, vp)) })

theorem entryAt_withVirtual {parent : String} {p : PartitionConfig}
    (hp : partitions.lookup parent = some p) (pName name : String) (vp : VirtualPartitionConfig) :
    entryAt (withVirtual partitions parent p pName name vp) place =
      if place = ⟨parent, some name⟩ then some (.virtual vp)
      else if place = ⟨parent, some pName⟩ then none
      else entryAt partitions place := by
  obtain ⟨a, w⟩ := place
  rw [withVirtual, entryAt_upsert]
  by_cases ha : a = parent
  · subst ha
    rw [if_pos rfl, entryAt_of_lookup hp]
    cases w with
    | none => simp [PartitionConfig.entry]
    | some w =>
      have hgetD : (p.virtualPartitions.getD Table.empty).lookup w =
          p.virtualPartitions.bind fun vps => vps.lookup w := by
        cases p.virtualPartitions with
        | none => rfl
        | some vps => rfl
      by_cases hw : w = name
      · simp [PartitionConfig.entry, Map.lookup_upsert, hw]
      · by_cases hname : name = pName
        · simp [PartitionConfig.entry, Map.lookup_upsert, hgetD, hname, hname ▸ hw]
        · by_cases hold : w = pName
          · simp [PartitionConfig.entry, Map.lookup_upsert, Map.lookup_erase, hname, hold,
              Ne.symm hname]
          · simp [PartitionConfig.entry, Map.lookup_upsert, Map.lookup_erase, hgetD, hw, hname,
              hold]
  · simp [ha]

theorem Entered.place_of_virtual {e : Entered} (he : e.isVirtual = true) :
    e.place = ⟨e.parent, some e.displayName⟩ := by
  rw [Entered.place, if_pos he]

theorem Entered.place_of_physical {e : Entered} (he : e.isVirtual = false) :
    e.place = ⟨e.displayName, none⟩ := by
  rw [Entered.place, if_neg (by simp [he])]

/-- What saving a physical partition does, with `vps` inside it. -/
theorem entryAt_withPhysical {e : Entered} (he : e.isVirtual = false)
    (vps : Option (Map String VirtualPartitionConfig)) :
    entryAt (partitions.upsert (e.displayName,
        { maxTime := some (e.maxTime.getD (.finite 0)), metrics := e.metrics,
          virtualPartitions := vps })) place =
      if place = e.place then some e.entry
      else if place.partition = e.displayName then
        place.virtual.bind fun v => (vps.bind fun vps => vps.lookup v).map .virtual
      else entryAt partitions place := by
  have hentry : e.entry = .physical (some (e.maxTime.getD (.finite 0))) e.metrics := by
    simp [Entered.entry, he]
  obtain ⟨b, w⟩ := place
  rw [entryAt_upsert, Entered.place_of_physical he, hentry]
  by_cases hb : b = e.displayName
  · cases w with
    | none => simp [hb, PartitionConfig.entry]
    | some w => simp [hb, PartitionConfig.entry]
  · simp [hb]

/-! ## Names -/

theorem WellNamed.eq_of_name (h : WellNamed partitions) {place' : Place}
    (hplace : (entryAt partitions place).isSome) (hplace' : (entryAt partitions place').isSome)
    (hname : place.name = place'.name) : place = place' :=
  List.inj_on_of_nodup_map h.distinct (mem_places_iff.2 hplace) (mem_places_iff.2 hplace') hname

theorem WellNamed.name_ne_empty (h : WellNamed partitions)
    (hplace : (entryAt partitions place).isSome) : place.name ≠ "" :=
  fun hname => h.nonempty (List.mem_map.2 ⟨place, mem_places_iff.2 hplace, hname⟩)

/-- Under the old name of a partition there is nothing but its entry, and nothing under a
name it can be given. -/
theorem WellNamed.entryAt_eq_none (h : WellNamed partitions) {old : Place} {name : String}
    (hold : (entryAt partitions old).isSome)
    (hunused : name = old.name ∨ name ∉ (places partitions).map Place.name)
    (hname : place.name = old.name ∨ place.name = name) (hne : place ≠ old) :
    entryAt partitions place = none := by
  cases hentry : entryAt partitions place with
  | none => rfl
  | some entry =>
    have hplace : (entryAt partitions place).isSome := by rw [hentry]; rfl
    have hmem : place.name ∈ (places partitions).map Place.name :=
      List.mem_map_of_mem (mem_places_iff.2 hplace)
    have hsame : place.name = old.name := by
      rcases hname with hname | hname
      · exact hname
      · exact hname.trans (hunused.resolve_right fun hfree => hfree (hname ▸ hmem))
    exact absurd (h.eq_of_name hplace hold hsame) hne

end Entries

/-! ## What each request does -/

section Requests

variable {opened partitions : Partitions} (accIndex : Option ℤ)

theorem truthy_some {s : String} (h : s ≠ "") : truthy (some s) = some s := by
  rw [truthy, Option.filter_some, if_pos (decide_eq_true h)]

/-- The item of a physical partition. -/
def physicalItem (a : String) (p : PartitionConfig) : ExtendedConfig :=
  { displayName := a, isVirtual := false, metrics := p.metrics, maxTime := p.maxTime,
    virtualPartitions := p.virtualPartitions }

/-- The item of a virtual partition. -/
def virtualItem (a v : String) (vp : VirtualPartitionConfig) : ExtendedConfig :=
  { displayName := v, isVirtual := true, parent := some a,
    stringNodes := some ((vp.nodes.map fun nodes => ",".intercalate nodes).getD ""),
    metrics := vp.metrics }

theorem createPartitionItem_physical {a : String} {p : PartitionConfig}
    (hp : partitions.lookup a = some p) :
    createPartitionItem partitions a none = some (physicalItem a p) := by
  simp only [createPartitionItem, physicalItem, truthy, Option.filter_none, hp, Option.getD_some]

theorem createPartitionItem_virtual {a v : String} {p : PartitionConfig}
    {vps : Map String VirtualPartitionConfig} {vp : VirtualPartitionConfig}
    (hp : partitions.lookup a = some p) (hvps : p.virtualPartitions = some vps)
    (hvp : vps.lookup v = some vp) (ha : a ≠ "") :
    createPartitionItem partitions v (some a) = some (virtualItem a v vp) := by
  simp only [createPartitionItem, virtualItem, truthy_some ha, hp, hvps, hvp, Option.bind_some,
    Option.map_some]

theorem submit_save {place : Place} {partitionConfig initialValues : ExtendedConfig}
    (hitem : createPartitionItem partitions place.name
      (if place.virtual = none then none else some place.partition) = some partitionConfig)
    (hopened : createPartitionItem opened place.name
      (if place.virtual = none then none else some place.partition) = some initialValues)
    {e : Entered} (herrors : e.errors = []) :
    submit opened partitions accIndex place (.save e) =
      setPartitionConfig partitions accIndex place.name partitionConfig (e.values initialValues)
        false := by
  simp only [submit, hitem, hopened, Option.bind_some, if_pos herrors]

theorem submit_delete {place : Place} {partitionConfig : ExtendedConfig}
    (hitem : createPartitionItem partitions place.name
      (if place.virtual = none then none else some place.partition) = some partitionConfig) :
    submit opened partitions accIndex place .delete =
      setPartitionConfig partitions accIndex place.name partitionConfig partitionConfig true := by
  simp only [submit, hitem, Option.bind_some]

theorem delete_physical {a : String} {p : PartitionConfig} (hp : partitions.lookup a = some p) :
    ∃ s, submit opened partitions accIndex ⟨a, none⟩ .delete = some s ∧ ∀ place,
      entryAt s.partitions place =
        if place.partition = a then none else entryAt partitions place := by
  refine ⟨⟨partitions.erase a, accIndex⟩, ?_, fun place => entryAt_erase a⟩
  rw [submit_delete accIndex (createPartitionItem_physical hp)]
  simp [setPartitionConfig, physicalItem, Place.name]

theorem delete_virtual {a v : String} (h : (entryAt partitions ⟨a, some v⟩).isSome)
    (ha : a ≠ "") :
    ∃ s, submit opened partitions accIndex ⟨a, some v⟩ .delete = some s ∧ ∀ place,
      entryAt s.partitions place =
        if place = ⟨a, some v⟩ then none else entryAt partitions place := by
  obtain ⟨p, vps, vp, hp, hvps, hvp⟩ := isSome_entryAt_virtual.1 h
  refine ⟨⟨partitions.upsert (a, { p with virtualPartitions := some (vps.erase v) }), none⟩, ?_,
    fun place => ?_⟩
  · rw [submit_delete accIndex (createPartitionItem_virtual hp hvps hvp ha)]
    simp [setPartitionConfig, virtualItem, Place.name, truthy_some ha, hp, hvps]
  · rw [← entryAt_deleted hp v, hvps, Option.map_some]

/-- A physical partition is saved as one: inside it is what the form was opened with. -/
theorem save_physical {a : String} {p p₀ : PartitionConfig} (hp : partitions.lookup a = some p)
    (hopened : opened.lookup a = some p₀) {e : Entered} (herrors : e.errors = [])
    (he : e.isVirtual = false) :
    ∃ s, submit opened partitions accIndex ⟨a, none⟩ (.save e) = some s ∧ ∀ place,
      entryAt s.partitions place =
        if place = e.place then some e.entry
        else if place.partition = e.displayName then entryAt opened ⟨a, place.virtual⟩
        else if place.partition = a then none
        else entryAt partitions place := by
  have hsubmit : submit opened partitions accIndex ⟨a, none⟩ (.save e) = some
      ⟨Table.upsert (if e.displayName ≠ a then partitions.erase a else partitions) (e.displayName,
        { maxTime := some (e.maxTime.getD (.finite 0)), metrics := e.metrics,
          virtualPartitions := p₀.virtualPartitions }), accIndex⟩ := by
    rw [submit_save accIndex (createPartitionItem_physical hp)
      (createPartitionItem_physical hopened) herrors]
    simp [setPartitionConfig, Entered.values, physicalItem, Place.name, he]
  refine ⟨_, hsubmit, fun place => ?_⟩
  rw [entryAt_withPhysical he, Entered.place_of_physical he]
  obtain ⟨b, w⟩ := place
  by_cases hb : b = e.displayName
  · cases w with
    | none => simp [hb]
    | some w =>
      have hinside : entryAt opened ⟨a, some w⟩ = p₀.entry (some w) := entryAt_of_lookup hopened
      simp [hb, hinside, PartitionConfig.entry]
  · by_cases hname : e.displayName = a
    · simp [hname, hname ▸ hb]
    · simp [hb, hname, entryAt_erase]

/-- A physical partition becomes a virtual one. -/
theorem save_intoVirtual {a : String} {p p₀ : PartitionConfig} (hp : partitions.lookup a = some p)
    (hopened : opened.lookup a = some p₀) {e : Entered} (herrors : e.errors = [])
    (he : e.isVirtual = true) (hne : e.parent ≠ "") (hself : e.parent ≠ a)
    (hparent : (entryAt partitions ⟨e.parent, none⟩).isSome) :
    ∃ s, submit opened partitions accIndex ⟨a, none⟩ (.save e) = some s ∧ ∀ place,
      entryAt s.partitions place =
        if place = e.place then some e.entry
        else if place = ⟨e.parent, some a⟩ ∨ place.partition = a then none
        else entryAt partitions place := by
  obtain ⟨q, hq⟩ := isSome_entryAt_physical.1 hparent
  have hq : Map.lookup (partitions.erase a) e.parent = some q := by
    rw [Map.lookup_erase, if_neg hself, hq]
  have hsubmit : ∃ index, submit opened partitions accIndex ⟨a, none⟩ (.save e) =
      some ⟨withVirtual (partitions.erase a) e.parent q a e.displayName
        { nodes := nodesOf (some e.stringNodes), metrics := e.metrics }, index⟩ := by
    rw [submit_save accIndex (createPartitionItem_physical hp)
      (createPartitionItem_physical hopened) herrors]
    simp [setPartitionConfig, Entered.values, physicalItem, Place.name, withVirtual, he,
      truthy_some hne, hq]
  obtain ⟨index, hsubmit⟩ := hsubmit
  refine ⟨_, hsubmit, fun place => ?_⟩
  rw [entryAt_withVirtual hq, entryAt_erase]
  simp only [Entered.place, Entered.entry, he, if_true, ite_or]

/-- A virtual partition is saved as one. -/
theorem save_virtual {a v : String} (h : (entryAt partitions ⟨a, some v⟩).isSome)
    (hopened : (entryAt opened ⟨a, some v⟩).isSome) (ha : a ≠ "") {e : Entered}
    (herrors : e.errors = []) (he : e.isVirtual = true) (hne : e.parent ≠ "")
    (hparent : (entryAt partitions ⟨e.parent, none⟩).isSome) :
    ∃ s, submit opened partitions accIndex ⟨a, some v⟩ (.save e) = some s ∧ ∀ place,
      entryAt s.partitions place =
        if place = e.place then some e.entry
        else if place = ⟨e.parent, some v⟩ then none
        else entryAt partitions place := by
  obtain ⟨p, vps, vp, hp, hvps, hvp⟩ := isSome_entryAt_virtual.1 h
  obtain ⟨p₀, vps₀, vp₀, hp₀, hvps₀, hvp₀⟩ := isSome_entryAt_virtual.1 hopened
  obtain ⟨q, hq⟩ := isSome_entryAt_physical.1 hparent
  have hsubmit : ∃ index, submit opened partitions accIndex ⟨a, some v⟩ (.save e) =
      some ⟨withVirtual partitions e.parent q v e.displayName
        { nodes := nodesOf (some e.stringNodes), metrics := e.metrics }, index⟩ := by
    rw [submit_save accIndex (createPartitionItem_virtual hp hvps hvp ha)
      (createPartitionItem_virtual hp₀ hvps₀ hvp₀ ha) herrors]
    simp [setPartitionConfig, Entered.values, virtualItem, Place.name, withVirtual, he,
      truthy_some hne, hq]
  obtain ⟨index, hsubmit⟩ := hsubmit
  refine ⟨_, hsubmit, fun place => ?_⟩
  rw [entryAt_withVirtual hq]
  simp only [Entered.place, Entered.entry, he, if_true]

/-- A virtual partition becomes a physical one. -/
theorem save_outOfVirtual {a v : String} (h : (entryAt partitions ⟨a, some v⟩).isSome)
    (hopened : (entryAt opened ⟨a, some v⟩).isSome) (ha : a ≠ "") {e : Entered}
    (herrors : e.errors = []) (he : e.isVirtual = false) (hne : e.parent ≠ "")
    (hparent : (entryAt partitions ⟨e.parent, none⟩).isSome) :
    ∃ s, submit opened partitions accIndex ⟨a, some v⟩ (.save e) = some s ∧ ∀ place,
      entryAt s.partitions place =
        if place = e.place then some e.entry
        else if place.partition = e.displayName ∨ (e.displayName ≠ v ∧ place.partition = v) ∨
          place = ⟨e.parent, some v⟩ then none
        else entryAt partitions place := by
  obtain ⟨p, vps, vp, hp, hvps, hvp⟩ := isSome_entryAt_virtual.1 h
  obtain ⟨p₀, vps₀, vp₀, hp₀, hvps₀, hvp₀⟩ := isSome_entryAt_virtual.1 hopened
  obtain ⟨q, hq⟩ := isSome_entryAt_physical.1 hparent
  have hsubmit : submit opened partitions accIndex ⟨a, some v⟩ (.save e) =
      let others := partitions.upsert (e.parent,
        { q with virtualPartitions := q.virtualPartitions.map fun vps => vps.erase v })
      some ⟨Table.upsert (if e.displayName ≠ v then others.erase v else others) (e.displayName,
        { maxTime := some (e.maxTime.getD (.finite 0)), metrics := e.metrics }), accIndex⟩ := by
    rw [submit_save accIndex (createPartitionItem_virtual hp hvps hvp ha)
      (createPartitionItem_virtual hp₀ hvps₀ hvp₀ ha) herrors]
    simp [setPartitionConfig, Entered.values, virtualItem, Place.name, he, truthy_some hne, hq]
  refine ⟨_, hsubmit, fun place => ?_⟩
  rw [entryAt_withPhysical he, Entered.place_of_physical he]
  obtain ⟨b, w⟩ := place
  by_cases hb : b = e.displayName
  · cases w with
    | none => simp [hb]
    | some w => simp [hb]
  · by_cases hname : e.displayName = v
    · simp [hname, hname ▸ hb, entryAt_deleted hq]
    · simp [hb, hname, entryAt_erase, entryAt_deleted hq, ite_or]

end Requests

/-! ## What is touched -/

section Touched

variable {partitions after : Partitions} {old : Place} {e : Entered}

@[simp] theorem Entered.name_place : e.place.name = e.displayName := by
  rw [Entered.place]
  split_ifs
  · rfl
  · rfl

theorem onlyTouched_save
    (hedited : ∀ place, place.name = old.name ∨ place.name = e.displayName →
      entryAt after place = if place = e.place then some e.entry else none)
    (hinside : e.isVirtual = false → ∀ v, entryAt after ⟨e.displayName, some v⟩ =
      if old.virtual = none then entryAt partitions ⟨old.partition, some v⟩ else none)
    (hothers : ∀ place, ¬ place.Within old → ¬ place.Within e.place →
      entryAt after place = entryAt partitions place) :
    OnlyTouched partitions after old (Request.save e).saved := by
  refine ⟨fun place hname => ?_, ?_, fun place hold hnew => ?_⟩
  · rw [hedited place (by simpa [Request.saved] using hname)]
    by_cases hplace : place = e.place
    · simp [Request.saved, hplace]
    · simp [Request.saved, hplace, Ne.symm hplace]
  · rintro new hnew hvirtual v
    obtain rfl : (e.place, e.entry) = new := Option.some.inj hnew
    have he : e.isVirtual = false := by
      cases he : e.isVirtual with
      | false => rfl
      | true => simp [Entered.place, he] at hvirtual
    simpa [Entered.place, he] using hinside he v
  · exact hothers place hold (hnew _ rfl)

theorem onlyTouched_delete
    (hedited : ∀ place, place.name = old.name → entryAt after place = none)
    (hothers : ∀ place, ¬ place.Within old → entryAt after place = entryAt partitions place) :
    OnlyTouched partitions after old Request.delete.saved :=
  ⟨fun place hname => hedited place (by simpa [Request.saved] using hname), nofun,
    fun place hold _ => hothers place hold⟩

/-- The old entry of a virtual partition is to be gone; where it stays with every other
parent, the parent is the old one. -/
theorem keepsParent_of_onlyTouched {a v : String} (hold : (entryAt partitions ⟨a, some v⟩).isSome)
    (hstays : e.parent ≠ a → entryAt after ⟨a, some v⟩ = entryAt partitions ⟨a, some v⟩)
    (h : OnlyTouched partitions after ⟨a, some v⟩ (Request.save e).saved) :
    (Request.save e).KeepsParent ⟨a, some v⟩ := by
  intro _
  by_contra hmoved
  have hplace : e.place ≠ ⟨a, some v⟩ := by
    rw [Entered.place]
    split_ifs
    · simp [show e.parent ≠ a from hmoved]
    · simp
  have hgone : entryAt after ⟨a, some v⟩ = none := by
    rw [h.edited _ (Or.inl rfl)]
    simp [Request.saved, hplace]
  rw [← hstays hmoved, hgone] at hold
  cases hold

end Touched

section Cases

variable {opened partitions : Partitions} (accIndex : Option ℤ)

/-- A physical partition that is saved as one. -/
theorem onlyTouched_save_physical_iff (hnames : WellNamed partitions) {a : String}
    (hold : (entryAt partitions ⟨a, none⟩).isSome) (hopened : (entryAt opened ⟨a, none⟩).isSome)
    {e : Entered} (hallowed : e.Allowed partitions ⟨a, none⟩) (he : e.isVirtual = false) :
    ∃ s, submit opened partitions accIndex ⟨a, none⟩ (.save e) = some s ∧
      (OnlyTouched partitions s.partitions ⟨a, none⟩ (Request.save e).saved ↔
        (Request.save e).KeepsHidden opened partitions ⟨a, none⟩) := by
  obtain ⟨p, hp⟩ := isSome_entryAt_physical.1 hold
  obtain ⟨p₀, hp₀⟩ := isSome_entryAt_physical.1 hopened
  obtain ⟨s, hs, hentry⟩ := save_physical accIndex hp hp₀ hallowed.accepted he
  have hplace := Entered.place_of_physical he
  have hinside : ∀ v, entryAt s.partitions ⟨e.displayName, some v⟩ =
      entryAt opened ⟨a, some v⟩ := by
    intro v
    rw [hentry, if_neg (by simp [hplace]), if_pos rfl]
  refine ⟨s, hs, fun h _ _ v => ?_, fun hhidden => onlyTouched_save (fun place hname => ?_)
    (fun _ v => ?_) fun place hout hnew => ?_⟩
  · have hsaved := h.inside _ rfl (by rw [hplace]) v
    rwa [hplace, hinside, if_pos rfl] at hsaved
  · rw [hentry]
    split_ifs with _ hin ha
    · rfl
    · -- inside the new place, so it was inside the old one
      obtain ⟨b, w⟩ := place
      cases w with
      | none => exact absurd (by rw [hplace, ← hin]) ‹¬_ = e.place›
      | some w =>
        rw [hhidden rfl he w]
        have hne : (⟨a, some w⟩ : Place) ≠ ⟨a, none⟩ := by simp
        exact hnames.entryAt_eq_none hold hallowed.unused hname hne
    · rfl
    · exact hnames.entryAt_eq_none hold hallowed.unused hname fun h => ha (h ▸ rfl)
  · rw [hinside, if_pos rfl, hhidden rfl he v]
  · rw [hplace] at hnew
    rw [hentry, hplace, if_neg fun h => hnew (Or.inl h),
      if_neg fun h => hnew (Or.inr ⟨rfl, h⟩), if_neg fun h => hout (Or.inr ⟨rfl, h⟩)]

/-- A physical partition that becomes a virtual one. -/
theorem onlyTouched_save_intoVirtual (hnames : WellNamed partitions) {a : String}
    (hold : (entryAt partitions ⟨a, none⟩).isSome) (hopened : (entryAt opened ⟨a, none⟩).isSome)
    {e : Entered} (hallowed : e.Allowed partitions ⟨a, none⟩) (he : e.isVirtual = true) :
    ∃ s, submit opened partitions accIndex ⟨a, none⟩ (.save e) = some s ∧
      OnlyTouched partitions s.partitions ⟨a, none⟩ (Request.save e).saved := by
  obtain ⟨p, hp⟩ := isSome_entryAt_physical.1 hold
  obtain ⟨p₀, hp₀⟩ := isSome_entryAt_physical.1 hopened
  obtain ⟨hparent, hself⟩ := hallowed.parent (Or.inl he)
  have hself : e.parent ≠ a := fun h => hself (by rw [h])
  obtain ⟨s, hs, hentry⟩ := save_intoVirtual accIndex hp hp₀ hallowed.accepted he
    (hnames.name_ne_empty hparent) hself hparent
  refine ⟨s, hs, onlyTouched_save (fun place hname => ?_) (by simp [he])
    fun place hout hnew => ?_⟩
  · rw [hentry]
    split_ifs with _ hgone
    · rfl
    · rfl
    · exact hnames.entryAt_eq_none hold hallowed.unused hname fun h => hgone (Or.inr (h ▸ rfl))
  · rw [hentry, if_neg fun h => hnew (Or.inl h)]
    split_ifs with hgone
    · have hplace : place = ⟨e.parent, some a⟩ :=
        hgone.resolve_right fun h => hout (Or.inr ⟨rfl, h⟩)
      exact (hnames.entryAt_eq_none hold hallowed.unused (Or.inl (hplace ▸ rfl))
        (by simp [hplace])).symm
    · rfl

theorem onlyTouched_physical_iff (hnames : WellNamed partitions) {a : String}
    (hold : (entryAt partitions ⟨a, none⟩).isSome) (hopened : (entryAt opened ⟨a, none⟩).isSome)
    {request : Request} (hrequest : request.Allowed partitions ⟨a, none⟩) :
    ∃ s, submit opened partitions accIndex ⟨a, none⟩ request = some s ∧
      (OnlyTouched partitions s.partitions ⟨a, none⟩ request.saved ↔
        request.KeepsHidden opened partitions ⟨a, none⟩) := by
  cases request with
  | delete =>
    obtain ⟨p, hp⟩ := isSome_entryAt_physical.1 hold
    obtain ⟨s, hs, hentry⟩ := @delete_physical opened _ accIndex _ _ hp
    refine ⟨s, hs, iff_of_true (onlyTouched_delete (fun place hname => ?_) fun place hout => ?_)
      trivial⟩
    · rw [hentry]
      split_ifs with hin
      · rfl
      · exact hnames.entryAt_eq_none hold (Or.inl rfl) (Or.inl hname) fun h => hin (h ▸ rfl)
    · rw [hentry, if_neg fun hin => hout (Or.inr ⟨rfl, hin⟩)]
  | save e =>
    cases he : e.isVirtual with
    | false => exact onlyTouched_save_physical_iff accIndex hnames hold hopened hrequest he
    | true =>
      obtain ⟨s, hs, htouched⟩ :=
        onlyTouched_save_intoVirtual accIndex hnames hold hopened hrequest he
      exact ⟨s, hs, iff_of_true htouched fun _ hphysical => absurd hphysical (by simp [he])⟩

/-- A virtual partition that is saved as one. -/
theorem onlyTouched_save_virtual_iff (hnames : WellNamed partitions) {a v : String}
    (hold : (entryAt partitions ⟨a, some v⟩).isSome)
    (hopened : (entryAt opened ⟨a, some v⟩).isSome) {e : Entered}
    (hallowed : e.Allowed partitions ⟨a, some v⟩) (he : e.isVirtual = true) :
    ∃ s, submit opened partitions accIndex ⟨a, some v⟩ (.save e) = some s ∧
      (OnlyTouched partitions s.partitions ⟨a, some v⟩ (Request.save e).saved ↔
        (Request.save e).KeepsParent ⟨a, some v⟩) := by
  obtain ⟨hparent, -⟩ := hallowed.parent (Or.inl he)
  obtain ⟨s, hs, hentry⟩ := save_virtual accIndex hold hopened
    (hnames.name_ne_empty (isSome_entryAt_partition hold)) hallowed.accepted he
    (hnames.name_ne_empty hparent) hparent
  have hplace := Entered.place_of_virtual he
  refine ⟨s, hs, keepsParent_of_onlyTouched hold fun hmoved => ?_, fun hkeeps => ?_⟩
  · rw [hentry, hplace, if_neg (by simp [Ne.symm hmoved]), if_neg (by simp [Ne.symm hmoved])]
  · have hstays : e.parent = a := hkeeps (by simp)
    refine onlyTouched_save (fun place hname => ?_) (by simp [he]) fun place hout hnew => ?_
    · rw [hentry, hstays]
      split_ifs with _ hgone
      · rfl
      · rfl
      · exact hnames.entryAt_eq_none hold hallowed.unused hname hgone
    · rw [hentry, hstays, if_neg fun h => hnew (Or.inl h), if_neg fun h => hout (Or.inl h)]

/-- No physical partition has the old or the new name of a virtual one. -/
theorem Entered.Allowed.ne_physical {a v : String} {e : Entered}
    (hallowed : e.Allowed partitions ⟨a, some v⟩) (hnames : WellNamed partitions)
    (hold : (entryAt partitions ⟨a, some v⟩).isSome) {b : String}
    (hb : (entryAt partitions ⟨b, none⟩).isSome) : b ≠ v ∧ b ≠ e.displayName := by
  have hnone : b = v ∨ b = e.displayName → entryAt partitions ⟨b, none⟩ = none :=
    fun hname => hnames.entryAt_eq_none hold hallowed.unused hname (by simp)
  refine ⟨fun hname => ?_, fun hname => ?_⟩
  · rw [hnone (Or.inl hname)] at hb
    cases hb
  · rw [hnone (Or.inr hname)] at hb
    cases hb

/-- A virtual partition that becomes a physical one. -/
theorem onlyTouched_save_outOfVirtual_iff (hnames : WellNamed partitions) {a v : String}
    (hold : (entryAt partitions ⟨a, some v⟩).isSome)
    (hopened : (entryAt opened ⟨a, some v⟩).isSome) {e : Entered}
    (hallowed : e.Allowed partitions ⟨a, some v⟩) (he : e.isVirtual = false) :
    ∃ s, submit opened partitions accIndex ⟨a, some v⟩ (.save e) = some s ∧
      (OnlyTouched partitions s.partitions ⟨a, some v⟩ (Request.save e).saved ↔
        (Request.save e).KeepsParent ⟨a, some v⟩) := by
  have hphysical : (entryAt partitions ⟨a, none⟩).isSome := isSome_entryAt_partition hold
  obtain ⟨hparent, -⟩ := hallowed.parent (Or.inr (by simp))
  obtain ⟨s, hs, hentry⟩ := save_outOfVirtual accIndex hold hopened
    (hnames.name_ne_empty hphysical) hallowed.accepted he (hnames.name_ne_empty hparent) hparent
  have hplace := Entered.place_of_physical he
  obtain ⟨hv, hname⟩ := hallowed.ne_physical hnames hold hphysical
  refine ⟨s, hs, keepsParent_of_onlyTouched hold fun hmoved => ?_, fun hkeeps => ?_⟩
  · rw [hentry, hplace, if_neg (by simp), if_neg (by simp [hv, hname, Ne.symm hmoved])]
  · have hstays : e.parent = a := hkeeps (by simp)
    refine onlyTouched_save (fun place hname => ?_) (fun _ w => ?_) fun place hout hnew => ?_
    · rw [hentry, hstays]
      split_ifs with _ hgone
      · rfl
      · rfl
      · exact hnames.entryAt_eq_none hold hallowed.unused hname fun h => hgone (Or.inr (Or.inr h))
    · rw [hentry, if_neg (by simp [hplace]), if_pos (Or.inl rfl), if_neg (by simp)]
    · rw [hplace] at hnew
      rw [hentry, hplace, if_neg fun h => hnew (Or.inl h), hstays]
      split_ifs with hgone
      · rcases hgone with hin | ⟨-, hin⟩ | hin
        · exact absurd (Or.inr ⟨rfl, hin⟩) hnew
        · -- there is nothing inside `v`, which is virtual
          cases hinside : entryAt partitions place with
          | none => rfl
          | some entry =>
            have hplace : (entryAt partitions place).isSome := by rw [hinside]; rfl
            have hpartition := isSome_entryAt_partition hplace
            exact absurd hin (hallowed.ne_physical hnames hold hpartition).1
        · exact absurd (Or.inl hin) hout
      · rfl

theorem onlyTouched_virtual_iff (hnames : WellNamed partitions) {a v : String}
    (hold : (entryAt partitions ⟨a, some v⟩).isSome)
    (hopened : (entryAt opened ⟨a, some v⟩).isSome) {request : Request}
    (hrequest : request.Allowed partitions ⟨a, some v⟩) :
    ∃ s, submit opened partitions accIndex ⟨a, some v⟩ request = some s ∧
      (OnlyTouched partitions s.partitions ⟨a, some v⟩ request.saved ↔
        request.KeepsParent ⟨a, some v⟩) := by
  cases request with
  | delete =>
    obtain ⟨s, hs, hentry⟩ := @delete_virtual opened _ accIndex _ _ hold
      (hnames.name_ne_empty (isSome_entryAt_partition hold))
    refine ⟨s, hs, iff_of_true (onlyTouched_delete (fun place hname => ?_) fun place hout => ?_)
      trivial⟩
    · rw [hentry]
      split_ifs with hgone
      · rfl
      · exact hnames.entryAt_eq_none hold (Or.inl rfl) (Or.inl hname) hgone
    · rw [hentry, if_neg fun h => hout (Or.inl h)]
  | save e =>
    cases he : e.isVirtual with
    | true => exact onlyTouched_save_virtual_iff accIndex hnames hold hopened hrequest he
    | false => exact onlyTouched_save_outOfVirtual_iff accIndex hnames hold hopened hrequest he

end Cases

/-! ## When only one partition is touched -/

section Main

variable {partitions after : Partitions} {old place : Place} {request : Request}

/-- No other partition is at the new place, or inside it. -/
theorem Request.Allowed.not_within (hrequest : request.Allowed partitions old)
    (hnames : WellNamed partitions) (hold : (entryAt partitions old).isSome)
    (hplace : (entryAt partitions place).isSome) (hout : ¬ place.Within old) :
    ∀ new ∈ request.saved, ¬ place.Within new.1 := by
  cases request with
  | delete => nofun
  | save e =>
    rintro _ ⟨⟩ hin
    -- what has the new name is the partition itself
    have hsame : ∀ place' : Place, (entryAt partitions place').isSome →
        place'.name = e.displayName → place' = old := by
      intro place' hplace' hname
      by_contra hne
      rw [hnames.entryAt_eq_none hold hrequest.unused (Or.inr hname) hne] at hplace'
      cases hplace'
    rcases hin with hin | ⟨hvirtual, hin⟩
    · exact hout (Or.inl (hsame place hplace (by rw [hin, Entered.name_place])))
    · have hpartition := hsame _ (isSome_entryAt_partition hplace) (by
        rw [Place.name, Option.getD_none, hin, ← Entered.name_place, Place.name, hvirtual,
          Option.getD_none])
      exact hout (Or.inr (by rw [← hpartition]; exact ⟨rfl, rfl⟩))

theorem losesNothing_iff (hnames : WellNamed partitions) (hold : (entryAt partitions old).isSome)
    (hrequest : request.Allowed partitions old)
    (h : OnlyTouched partitions after old request.saved) :
    LosesNothing partitions after old ↔ request.KeepsInside partitions old := by
  constructor
  · intro hkept hvirtual
    refine or_iff_not_imp_left.2 fun hmoved v => ?_
    cases hentry : entryAt partitions ⟨old.partition, some v⟩ with
    | none => rfl
    | some entry =>
      have hplace : (entryAt partitions ⟨old.partition, some v⟩).isSome := by rw [hentry]; rfl
      have hne : (⟨old.partition, some v⟩ : Place) ≠ old := by
        intro h
        rw [← h] at hvirtual
        cases hvirtual
      obtain ⟨place, hname, hafter⟩ := hkept ⟨old.partition, some v⟩ entry
        (fun hname => hne (hnames.eq_of_name hplace hold hname)) hentry
      by_cases hin : place.Within old
      · -- it cannot be where it was, since the old place is gone
        have hpartition : (⟨place.partition, none⟩ : Place) = old := by
          rcases hin with rfl | ⟨-, hin⟩
          · rw [← hvirtual]
          · rw [hin, ← hvirtual]
        have hpresent : (entryAt after old).isSome := by
          rw [← hpartition]
          exact isSome_entryAt_partition (by rw [hafter]; rfl)
        rw [h.edited old (Or.inl rfl), Option.isSome_map, Option.isSome_filter,
          Option.any_eq_true] at hpresent
        obtain ⟨new, hnew, hsame⟩ := hpresent
        exact absurd ⟨new, hnew, by rw [of_decide_eq_true hsame, hvirtual]⟩ hmoved
      · by_cases hin' : ∃ new ∈ request.saved, place.Within new.1
        · obtain ⟨new, hnew, hwithin⟩ := hin'
          have hsame : place = new.1 :=
            hwithin.resolve_right fun hphysical => hmoved ⟨new, hnew, hphysical.1⟩
          cases request with
          | delete => cases hnew
          | save e =>
            obtain rfl : (e.place, e.entry) = new := Option.some.inj hnew
            rw [hsame, Entered.name_place] at hname
            rw [hnames.entryAt_eq_none hold hrequest.unused (Or.inr hname.symm) hne] at hplace
            cases hplace
        · have hstays : entryAt partitions place = some entry := by
            rw [← h.others place hin fun new hnew hwithin => hin' ⟨new, hnew, hwithin⟩, hafter]
          have hsame := hnames.eq_of_name (by rw [hstays]; rfl) hplace hname
          exact absurd (Or.inr ⟨hvirtual, by rw [hsame]⟩) hin
  · intro hinside place entry hname hentry
    have hplace : (entryAt partitions place).isSome := by rw [hentry]; rfl
    by_cases hin : place.Within old
    · obtain ⟨hvirtual, hpartition⟩ := hin.resolve_left fun h => hname (by rw [h])
      obtain ⟨b, w⟩ := place
      obtain rfl : b = old.partition := hpartition
      cases w with
      | none => exact absurd (by rw [Place.name, Place.name, hvirtual]) hname
      | some w =>
        rcases hinside hvirtual with ⟨new, hnew, hphysical⟩ | hempty
        · refine ⟨⟨new.1.partition, some w⟩, rfl, ?_⟩
          rw [h.inside new hnew hphysical, if_pos hvirtual, hentry]
        · rw [hempty] at hentry
          cases hentry
    · refine ⟨place, rfl, ?_⟩
      rw [h.others place hin (hrequest.not_within hnames hold hplace hin), hentry]

end Main

/-- A partition with a virtual one in it, and another partition. -/
def twoParents : Partitions :=
  ⟨[("cpu",
      { maxTime := some (.finite 60)
        virtualPartitions := some ⟨[("fat", { nodes := some ["n[1-3]"] })], by decide⟩ }),
    ("gpu", { maxTime := some (.finite 60) })], by decide⟩

/-- The form of the virtual partition with the other parent selected. -/
def otherParent : Entered :=
  { displayName := "fat", isVirtual := true, parent := "gpu", stringNodes := "n[1-3]" }

/-- Two partitions without virtual ones. -/
def twoPhysical : Partitions :=
  ⟨[("cpu", { maxTime := some (.finite 60) }), ("fat", { maxTime := some (.finite 60) })],
    by decide⟩

/-- The form of `fat`, once it is to be a virtual partition of `cpu`. -/
def intoCpu : Entered :=
  { displayName := "fat", isVirtual := true, parent := "cpu", stringNodes := "n[1-3]" }

/-- The form of `cpu`, as it was opened. -/
def cpuUnchanged : Entered :=
  { displayName := "cpu", isVirtual := false, parent := "cpu", maxTime := some (.finite 60) }

/-- The form of `cpu` was opened before `fat` was put into it: saving it takes `fat` out. -/
theorem twoPhysical_late :
    WellNamed twoPhysical ∧ intoCpu.Allowed twoPhysical ⟨"fat", none⟩ ∧
      ∃ s, submit twoPhysical twoPhysical none ⟨"fat", none⟩ (.save intoCpu) = some s ∧
        entryAt s.partitions ⟨"cpu", some "fat"⟩ = some (.virtual { nodes := some ["n[1-3]"] }) ∧
        cpuUnchanged.Allowed s.partitions ⟨"cpu", none⟩ ∧
        ∃ s', submit twoPhysical s.partitions s.accIndex ⟨"cpu", none⟩ (.save cpuUnchanged) =
            some s' ∧ entryAt s'.partitions ⟨"cpu", some "fat"⟩ = none := by
  refine ⟨⟨by decide, by decide⟩, ⟨by decide +kernel, Or.inl rfl, fun _ => by decide⟩, ?_⟩
  refine ⟨⟨⟨[("cpu", { maxTime := some (.finite 60)
                       virtualPartitions := some ⟨[("fat", { nodes := some ["n[1-3]"] })],
                         by decide⟩ })], by decide⟩, some 1⟩,
    by decide +kernel, by decide, ⟨by decide, Or.inl rfl, ?_⟩, ?_⟩
  · rintro (hvirtual | hvirtual)
    · cases hvirtual
    · exact absurd rfl hvirtual
  · exact ⟨⟨⟨[("cpu", { maxTime := some (.finite 60) })], by decide⟩, some 1⟩,
      by decide +kernel, by decide⟩

/-- The form of `cpu`, with another name and more time. -/
def cpuRenamed : Entered :=
  { displayName := "cpu2", isVirtual := false, parent := "cpu", maxTime := some (.finite 120) }

end Settings

end JobMon
