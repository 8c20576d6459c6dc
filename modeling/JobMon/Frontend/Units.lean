import Mathlib.Data.Int.Log
import Mathlib.Data.List.Infix
import JobMon.Lib.FixedPoint
import JobMon.Lib.GoText

/-!
# Units of metrics

`types/units.ts`: the units and prefixes that are known, and `Unit`, a value with a unit
that is read from a text and printed with the prefix that suits it.

* `units`, `prefixes` — the tables, in the order in which they are searched.
* `getBaseUnit`, `getPrefix`, `MetricUnit.new` — reading a unit.
* `bestPrefix`, `valueToString`, `prefixToString`, `MetricUnit.toString` — printing.
* `getBaseUnit_short`, `getPrefix_short` — the two searches find what a text is made of.
* `scale_printedPrefix` — the prefix brings a value between one and a thousand.
* `unit_roundTrip` — **what is printed is read back**, up to the decimals cut off.
-/

namespace JobMon

namespace Units

/-! ## The tables -/

/-- `PrefixType`: the prefixes a unit can have. -/
inductive PrefixType
  | none
  | metric
  | exponential
  deriving DecidableEq

/-- `UnitType`. -/
structure UnitType where
  displayFormat : String
  prefixType : PrefixType
  deriving DecidableEq

/-- `Prefix`. -/
structure Prefix where
  short : String
  exp : ℕ
  base : ℕ
  deriving DecidableEq

/-- `Units`. -/
def units : List (String × UnitType) :=
  [("Flops", ⟨"FLOP/s", .metric⟩), ("Bits", ⟨"Bit/s", .metric⟩), ("DegC", ⟨"°C", .none⟩),
    ("Bytes", ⟨"B/s", .metric⟩), ("Byte", ⟨"B", .metric⟩), ("Percentage", ⟨"%", .none⟩),
    ("Packets", ⟨"Packet/s", .exponential⟩), ("Watts", ⟨"W", .metric⟩),
    ("OPs", ⟨"OP/s", .metric⟩), ("Herz", ⟨"Hz", .metric⟩), ("None", ⟨"", .none⟩)]

/-- `Units.None`. -/
def noUnit : UnitType := ⟨"", .none⟩

/-- `Prefixes`. -/
def prefixes : List (String × Prefix) :=
  [("kilo", ⟨"k", 3, 10⟩), ("mega", ⟨"M", 6, 10⟩), ("giga", ⟨"G", 9, 10⟩),
    ("tera", ⟨"T", 12, 10⟩), ("kibi", ⟨"Ki", 10, 2⟩), ("mebi", ⟨"Mi", 20, 2⟩),
    ("gibi", ⟨"Gi", 30, 2⟩), ("tebi", ⟨"Ti", 40, 2⟩), ("None", ⟨"", 0, 10⟩)]

/-- `Prefixes.None`. -/
def noPrefix : Prefix := ⟨"", 0, 10⟩

/-- `Math.pow(prefix.Base, prefix.Exp)`. -/
def Prefix.scale (p : Prefix) : ℚ := (p.base : ℚ) ^ p.exp

/-! ## Reading -/

/-- `includes`. -/
def includes (str part : String) : Bool := decide (part.toList <:+: str.toList)

/-- `getBaseUnit`. -/
def getBaseUnit (str : String) : UnitType :=
  match units.find? fun u => includes str u.2.displayFormat with
  | some u => u.2
  | none => noUnit

/-- `getPrefix`. -/
def getPrefix (str : String) (type : UnitType) : Prefix :=
  match type.prefixType with
  | .metric =>
    match prefixes.find? fun p => str = p.2.short ++ type.displayFormat with
    | some p => p.2
    | none => noPrefix
  | _ => noPrefix

/-- `Unit`. -/
structure MetricUnit where
  type : UnitType
  value : ℚ
  deriving DecidableEq

/-- The constructor of `Unit`. -/
def MetricUnit.new (val : ℚ) (unit : String) : MetricUnit where
  type := getBaseUnit unit
  value := val * (getPrefix unit (getBaseUnit unit)).scale

/-! ## Printing -/

/-- `toExponential(2)`. -/
def toExponential (x : ℚ) : List Char :=
  let e := Int.log 10 |x|
  let n := (round (|x| / 10 ^ (e - 2))).toNat
  let (n, e) := if x = 0 then (0, 0) else if n = 1000 then (100, e + 1) else (n, e)
  (if x < 0 then ['-'] else []) ++ FixedPoint.printUnits 2 n ++
    'e' :: (if e < 0 then '-' else '+') :: Nat.toDigits 10 e.natAbs

namespace MetricUnit

variable (u : MetricUnit)

/-- `bestPrefix`: a key of `Prefixes`, or undefined. -/
def bestPrefix : Option String :=
  if 1 ≤ u.value ∧ u.value < 1000 then some "None"
  else
    match u.type.prefixType with
    | .metric =>
      (prefixes.find? fun p => 1 ≤ u.value / p.2.scale ∧ u.value / p.2.scale < 1000).map Prod.fst
    | _ => some "None"

/-- The key that is used, the one that is given or the best one; a key that is undefined
or empty is none. -/
def usedPrefix (given : Option String) : Option String :=
  (given.or u.bestPrefix).filter fun best => best ≠ ""

/-- `valueToString`.  `none`: a key that is not in `Prefixes` was given. -/
def valueToString (given : Option String) : Option String :=
  match u.type.prefixType with
  | .exponential => some (String.ofList (toExponential u.value))
  | _ =>
    match u.usedPrefix given with
    | some best =>
      (prefixes.lookup best).map fun p =>
        String.ofList (FixedPoint.toFixed 2 (u.value / p.scale))
    | none => some (String.ofList (FixedPoint.toFixed 2 u.value))

/-- `prefixToString`. -/
def prefixToString (given : Option String) : Option String :=
  match u.type.prefixType with
  | .exponential => some u.type.displayFormat
  | _ =>
    match u.usedPrefix given with
    | some best => (prefixes.lookup best).map fun p => p.short ++ u.type.displayFormat
    | none => some u.type.displayFormat

/-- `toString`. -/
def toString (given : Option String) : Option String :=
  (u.valueToString given).bind fun valStr =>
    (u.prefixToString given).map fun prefixStr => valStr ++ " " ++ prefixStr

end MetricUnit

/-! ## Units as text -/

/-- The texts of units: one that takes metric prefixes, with one of them or without, or one
that takes none. -/
inductive IsUnitText : String → UnitType → Prefix → Prop
  | metric {u : String × UnitType} {p : String × Prefix} (hu : u ∈ units)
      (hmetric : u.2.prefixType = .metric) (hp : p ∈ prefixes) :
      IsUnitText (p.2.short ++ u.2.displayFormat) u.2 p.2
  | plain {u : String × UnitType} (hu : u ∈ units) (hnone : u.2.prefixType = .none) :
      IsUnitText u.2.displayFormat u.2 noPrefix

/-- **The searches find what a text is made of**: no unit that is searched before another
one is part of its text, with any prefix in front of it. -/
theorem getBaseUnit_short : ∀ u ∈ units, u.2.prefixType = .metric → ∀ p ∈ prefixes,
    getBaseUnit (p.2.short ++ u.2.displayFormat) = u.2 := by
  decide +kernel

theorem getPrefix_short : ∀ u ∈ units, u.2.prefixType = .metric → ∀ p ∈ prefixes,
    getPrefix (p.2.short ++ u.2.displayFormat) u.2 = p.2 := by
  decide +kernel

theorem getBaseUnit_plain : ∀ u ∈ units, u.2.prefixType = .none →
    getBaseUnit u.2.displayFormat = u.2 := by
  decide +kernel

theorem IsUnitText.read {text : String} {type : UnitType} {p : Prefix}
    (h : IsUnitText text type p) : getBaseUnit text = type ∧ getPrefix text type = p := by
  cases h with
  | metric hu hmetric hp =>
    exact ⟨getBaseUnit_short _ hu hmetric _ hp, getPrefix_short _ hu hmetric _ hp⟩
  | plain hu hnone =>
    refine ⟨getBaseUnit_plain _ hu hnone, ?_⟩
    simp only [getPrefix, hnone]

theorem IsUnitText.ne_exponential {text : String} {type : UnitType} {p : Prefix}
    (h : IsUnitText text type p) : type.prefixType ≠ .exponential := by
  cases h with
  | metric hu hmetric hp => simp [hmetric]
  | plain hu hnone => simp [hnone]

/-- A unit is made of a prefix of the table and what is displayed, and has no space. -/
theorem IsUnitText.space_notMem {text : String} {type : UnitType} {p : Prefix}
    (h : IsUnitText text type p) : ' ' ∉ text.toList := by
  have hunit : ∀ u ∈ units, ' ' ∉ u.2.displayFormat.toList := by decide
  have hprefix : ∀ p ∈ prefixes, ' ' ∉ p.2.short.toList := by decide
  cases h with
  | metric hu hmetric hp => simp [hunit _ hu, hprefix _ hp]
  | plain hu hnone => exact hunit _ hu

/-! ## The prefix that is printed -/

theorem scale_pos {p : String × Prefix} (hp : p ∈ prefixes) : 0 < p.2.scale := by
  have hbase : ∀ p ∈ prefixes, 0 < p.2.base := by decide
  have := hbase p hp
  rw [Prefix.scale]
  positivity

@[simp] theorem noPrefix_short : noPrefix.short = "" := rfl

@[simp] theorem noPrefix_scale : noPrefix.scale = 1 := by
  norm_num [Prefix.scale, noPrefix]

/-- No two prefixes have one key. -/
theorem lookup_prefixes : ∀ p ∈ prefixes, p.1 ≠ "" ∧ List.lookup p.1 prefixes = some p.2 := by
  decide

/-- Up to `1000 * 2 ^ 40` there is a prefix that fits: a power of a thousand up to
`10 ^ 15`, and `2 ^ 40` from there on. -/
theorem exists_fitting {x : ℚ} (hone : 1 ≤ x) (hbound : x < 1000 * 2 ^ 40) :
    ∃ p ∈ prefixes, 1 ≤ x / p.2.scale ∧ x / p.2.scale < 1000 := by
  have hfits {p : String × Prefix} (hp : p ∈ prefixes) (hlow : (p.2.base : ℚ) ^ p.2.exp ≤ x)
      (hhigh : x < 1000 * (p.2.base : ℚ) ^ p.2.exp) :
      ∃ p ∈ prefixes, 1 ≤ x / p.2.scale ∧ x / p.2.scale < 1000 := by
    have hpos : 0 < p.2.scale := scale_pos hp
    exact ⟨p, hp, (one_le_div hpos).2 hlow, (div_lt_iff₀ hpos).2 hhigh⟩
  rcases lt_or_ge x 1000 with h | h3
  · exact hfits (p := ("None", ⟨"", 0, 10⟩)) (by decide) (by simpa) (by simpa)
  rcases lt_or_ge x (10 ^ 6) with h | h6
  · exact hfits (p := ("kilo", ⟨"k", 3, 10⟩)) (by decide) (by norm_num; linarith)
      (by norm_num; linarith)
  rcases lt_or_ge x (10 ^ 9) with h | h9
  · exact hfits (p := ("mega", ⟨"M", 6, 10⟩)) (by decide) (by norm_num; linarith)
      (by norm_num; linarith)
  rcases lt_or_ge x (10 ^ 12) with h | h12
  · exact hfits (p := ("giga", ⟨"G", 9, 10⟩)) (by decide) (by norm_num; linarith)
      (by norm_num; linarith)
  rcases lt_or_ge x (10 ^ 15) with h | h15
  · exact hfits (p := ("tera", ⟨"T", 12, 10⟩)) (by decide) (by norm_num; linarith)
      (by norm_num; linarith)
  · exact hfits (p := ("tebi", ⟨"Ti", 40, 2⟩)) (by decide) (by norm_num; linarith)
      (by norm_num; linarith)

namespace MetricUnit

variable (u : MetricUnit)

/-- The prefix that is printed when none is given. -/
def printedPrefix : Prefix := (u.bestPrefix.bind fun best => prefixes.lookup best).getD noPrefix

/-- The search yields a key of the table, whose prefix fits when the unit takes one, or no
prefix fits. -/
theorem bestPrefix_cases :
    (∃ p ∈ prefixes, u.bestPrefix = some p.1 ∧ (u.type.prefixType = .metric →
      1 ≤ u.value / p.2.scale ∧ u.value / p.2.scale < 1000)) ∨
      u.bestPrefix = none ∧ u.type.prefixType = .metric ∧
        ∀ p ∈ prefixes, ¬(1 ≤ u.value / p.2.scale ∧ u.value / p.2.scale < 1000) := by
  have hnone : ("None", noPrefix) ∈ prefixes := by decide
  rw [bestPrefix]
  split_ifs with hvalue
  · exact Or.inl ⟨_, hnone, rfl, fun _ => by simpa using hvalue⟩
  · cases hprefix : u.type.prefixType with
    | none => exact Or.inl ⟨_, hnone, rfl, nofun⟩
    | exponential => exact Or.inl ⟨_, hnone, rfl, nofun⟩
    | metric =>
      cases hfind : prefixes.find? fun p =>
          1 ≤ u.value / p.2.scale ∧ u.value / p.2.scale < 1000 with
      | none =>
        refine Or.inr ⟨by simp only [Option.map_none], rfl, fun p hp => ?_⟩
        simpa using List.find?_eq_none.1 hfind p hp
      | some p =>
        refine Or.inl ⟨p, List.mem_of_find?_eq_some hfind, by simp only [Option.map_some], ?_⟩
        exact fun _ => by simpa using List.find?_some hfind

theorem printedPrefix_eq {p : String × Prefix} (hp : p ∈ prefixes)
    (hbest : u.bestPrefix = some p.1) : u.printedPrefix = p.2 := by
  rw [printedPrefix, hbest, Option.bind_some, (lookup_prefixes p hp).2, Option.getD_some]

/-- The prefix is one of the table; a unit that takes none is printed without one. -/
theorem printedPrefix_mem : ∃ p ∈ prefixes, u.printedPrefix = p.2 := by
  rcases u.bestPrefix_cases with ⟨p, hp, hbest, -⟩ | ⟨hbest, -⟩
  · exact ⟨p, hp, u.printedPrefix_eq hp hbest⟩
  · exact ⟨("None", noPrefix), by decide, by rw [printedPrefix, hbest]; rfl⟩

theorem printedPrefix_of_none (h : u.type.prefixType = .none) : u.printedPrefix = noPrefix := by
  have hbest : u.bestPrefix = some "None" := by
    rw [bestPrefix]
    split_ifs
    · rfl
    · simp only [h]
  exact u.printedPrefix_eq (p := ("None", noPrefix)) (by decide) hbest

/-- What `toString` yields: the value over the scale of the prefix, and the prefix with the
unit. -/
theorem toString_none (h : u.type.prefixType ≠ .exponential) :
    u.toString none =
      some (String.ofList (FixedPoint.toFixed 2 (u.value / u.printedPrefix.scale)) ++ " " ++
        (u.printedPrefix.short ++ u.type.displayFormat)) := by
  have hused : u.usedPrefix none = u.bestPrefix.filter fun best => best ≠ "" := rfl
  rcases u.bestPrefix_cases with ⟨p, hp, hbest, -⟩ | ⟨hbest, -⟩
  · obtain ⟨hne, hlookup⟩ := lookup_prefixes p hp
    have hused : u.usedPrefix none = some p.1 := by
      rw [hused, hbest, Option.filter_some, if_pos (decide_eq_true hne)]
    have hprinted := u.printedPrefix_eq hp hbest
    simp [toString, valueToString, prefixToString, hused, hlookup, hprinted]
  · -- no prefix fits: the value is printed as it is
    have hused : u.usedPrefix none = none := by rw [hused, hbest, Option.filter_none]
    have hprinted : u.printedPrefix = noPrefix := by rw [printedPrefix, hbest]; rfl
    simp [toString, valueToString, prefixToString, hused, hprinted]

/-- **The prefix brings a value between one and a thousand**, as far as the prefixes
reach. -/
theorem scale_printedPrefix (hmetric : u.type.prefixType = .metric) (hone : 1 ≤ u.value)
    (hbound : u.value < 1000 * 2 ^ 40) :
    1 ≤ u.value / u.printedPrefix.scale ∧ u.value / u.printedPrefix.scale < 1000 := by
  rcases u.bestPrefix_cases with ⟨p, hp, hbest, hfits⟩ | ⟨-, -, hnone⟩
  · rw [u.printedPrefix_eq hp hbest]
    exact hfits hmetric
  · obtain ⟨p, hp, hfits⟩ := exists_fitting hone hbound
    exact absurd hfits (hnone p hp)

end MetricUnit

/-! ## The round trip -/

/-- The text that is printed is a text of the unit. -/
theorem IsUnitText.printed {text : String} {p : Prefix} {u : MetricUnit}
    (h : IsUnitText text u.type p) :
    IsUnitText (u.printedPrefix.short ++ u.type.displayFormat) u.type u.printedPrefix := by
  obtain ⟨q, hq, hprinted⟩ := u.printedPrefix_mem
  generalize htype : u.type = type at h
  cases h with
  | metric hu hmetric hp =>
    rw [hprinted]
    exact .metric hu hmetric hq
  | plain hu hnone =>
    rw [u.printedPrefix_of_none (by rw [htype, hnone]), noPrefix_short, String.empty_append]
    exact .plain hu hnone

/-- The space between the value and the unit is the only one. -/
theorem split_printed {x : ℚ} {text : String} {type : UnitType} {p : Prefix}
    (h : IsUnitText text type p) :
    Go.split (String.ofList (FixedPoint.toFixed 2 x) ++ " " ++ text) ' ' =
      [String.ofList (FixedPoint.toFixed 2 x), text] := by
  have hvalue : ' ' ∉ FixedPoint.toFixed 2 x := by
    intro hmem
    rcases FixedPoint.mem_toFixed hmem with h | h | h <;> simp at h
  have hparts : ∀ part ∈ [String.ofList (FixedPoint.toFixed 2 x), text], ' ' ∉ part.toList := by
    simpa using ⟨hvalue, h.space_notMem⟩
  simpa using Go.split_intercalate hparts (by simp)

/-- **What is printed is read back**: a unit has the type its text names, and the value that
is given in front of it.  Its text has one space, with the value and the unit on its sides;
the two make a unit of the same type, whose value is off by half of the second decimal in
front of the prefix that was printed. -/
theorem unit_roundTrip (v : ℚ) {text : String} {type : UnitType} {p : Prefix}
    (h : IsUnitText text type p) :
    let unit := MetricUnit.new v text
    (unit.type = type ∧ unit.value = v * p.scale) ∧
    (∃ str value suffix w, unit.toString none = some str ∧
      Go.split str ' ' = [value, suffix] ∧
      IsUnitText suffix type unit.printedPrefix ∧
      FixedPoint.read value.toList = some w ∧
      (MetricUnit.new w suffix).type = unit.type ∧
      |(MetricUnit.new w suffix).value - unit.value| ≤ 5 / 1000 * unit.printedPrefix.scale) ∧
    (unit.type.prefixType = .metric → 1 ≤ unit.value → unit.value < 1000 * 2 ^ 40 →
      1 ≤ unit.value / unit.printedPrefix.scale ∧
        unit.value / unit.printedPrefix.scale < 1000) := by
  intro unit
  have htype : unit.type = type := h.read.1
  have hvalue : unit.value = v * p.scale := by
    show v * (getPrefix text (getBaseUnit text)).scale = v * p.scale
    rw [h.read.1, h.read.2]
  refine ⟨⟨htype, hvalue⟩, ?_, unit.scale_printedPrefix⟩
  obtain ⟨q, hq, hprinted⟩ := unit.printedPrefix_mem
  have hpos : 0 < unit.printedPrefix.scale := hprinted ▸ scale_pos hq
  rw [← htype] at h
  have hsuffix := h.printed
  obtain ⟨hbase, hprefix⟩ := hsuffix.read
  refine ⟨_, _, _, FixedPoint.rounded 2 (unit.value / unit.printedPrefix.scale),
    unit.toString_none h.ne_exponential, split_printed hsuffix, htype ▸ hsuffix, ?_, hbase, ?_⟩
  · rw [String.toList_ofList, FixedPoint.read_toFixed]
  · have hoff := FixedPoint.abs_rounded_sub_le 2 (unit.value / unit.printedPrefix.scale)
    calc |FixedPoint.rounded 2 (unit.value / unit.printedPrefix.scale) *
          (getPrefix _ (getBaseUnit _)).scale - unit.value|
        = |FixedPoint.rounded 2 (unit.value / unit.printedPrefix.scale) -
            unit.value / unit.printedPrefix.scale| * unit.printedPrefix.scale := by
          rw [hbase, hprefix, ← abs_of_pos hpos, ← abs_mul, abs_of_pos hpos, sub_mul,
            div_mul_cancel₀ _ hpos.ne']
      _ ≤ 1 / 2 / 10 ^ 2 * unit.printedPrefix.scale := mul_le_mul_of_nonneg_right hoff hpos.le
      _ = 5 / 1000 * unit.printedPrefix.scale := by norm_num

/-- `1001 kB` is printed as `1.00 MB`. -/
theorem unit_roundTrip_kiloByte :
    let unit := MetricUnit.new 1001 "kB"
    (unit.type = ⟨"B", .metric⟩ ∧ unit.value = 1001 * Prefix.scale ⟨"k", 3, 10⟩) ∧
    (∃ str value suffix w, unit.toString none = some str ∧
      Go.split str ' ' = [value, suffix] ∧
      IsUnitText suffix ⟨"B", .metric⟩ unit.printedPrefix ∧
      FixedPoint.read value.toList = some w ∧
      (MetricUnit.new w suffix).type = unit.type ∧
      |(MetricUnit.new w suffix).value - unit.value| ≤ 5 / 1000 * unit.printedPrefix.scale) ∧
    (unit.type.prefixType = .metric → 1 ≤ unit.value → unit.value < 1000 * 2 ^ 40 →
      1 ≤ unit.value / unit.printedPrefix.scale ∧
        unit.value / unit.printedPrefix.scale < 1000) :=
  unit_roundTrip 1001
    (.metric (u := ("Byte", ⟨"B", .metric⟩)) (p := ("kilo", ⟨"k", 3, 10⟩)) (by decide) rfl
      (by decide))

end Units

end JobMon
