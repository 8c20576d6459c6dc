import JobMon.Lib.JsonText
import JobMon.Router.Write

/-!
# Reading the body of a request

`json.Unmarshal` of the bodies that `JobStart` and `JobStop` are sent: the members of an object
fill the fields that have their names, upper and lower case being the same.

* `Field`, `unmarshal` — the fields of a record, and an object read into it.
* `jobMetadataBody`, `stopJobBody` — the bodies.
* `Assignment`, `setTokens_eq` — what the members of a text do to the record.
* `unmarshal_objectText` — what is read from an object with a member to a line.
-/

namespace JobMon

open JsonText

/-! ## Fields -/

/-- The letter by which names are compared. -/
def foldLetter (c : Char) : Char :=
  if c.isLower then c.toUpper
  else if c = Char.ofNat 0x17F then 'S'
  else if c = Char.ofNat 0x212A then 'K'
  else c

/-- A field, and what a value does to it; `none` is an error. -/
structure Field (α : Type) where
  name : List Char
  set : α → JsonText.Value → Option α

/-- The value of a number that is an `int`. -/
def readInt (cs : List Char) : Option ℤ :=
  match Go.atoi (String.ofList cs) with
  | .ok n => some n
  | .error _ => none

section Values

variable {α : Type}

/-- The value of an `int`; `null` leaves any field as it is. -/
def setInt (put : α → ℤ → α) (a : α) : JsonText.Value → Option α
  | .null => some a
  | .number cs => (readInt cs).map (put a)
  | _ => none

/-- The value of a `string`. -/
def setText (put : α → String → α) (a : α) : JsonText.Value → Option α
  | .null => some a
  | .text cs => some (put a (String.ofList cs))
  | _ => none

/-- The value of a `bool`. -/
def setBool (put : α → Bool → α) (a : α) : JsonText.Value → Option α
  | .null => some a
  | .bool b => some (put a b)
  | _ => none

/-- The value of a slice; how its elements are read is a parameter. -/
def setSlice {β : Type} (read : JsonText.Value → Option (List β)) (put : α → List β → α)
    (a : α) : JsonText.Value → Option α
  | .null => some (put a [])
  | v => (read v).map (put a)

def Field.int (name : String) (put : α → ℤ → α) : Field α := ⟨name.toList, setInt put⟩

def Field.text (name : String) (put : α → String → α) : Field α := ⟨name.toList, setText put⟩

def Field.bool (name : String) (put : α → Bool → α) : Field α := ⟨name.toList, setBool put⟩

def Field.slice {β : Type} (name : String) (read : JsonText.Value → Option (List β))
    (put : α → List β → α) : Field α := ⟨name.toList, setSlice read put⟩

end Values

section Unmarshal

variable {α : Type} (fields : List (Field α))

/-- A member; one without a field is ignored. -/
def setMember (a : α) (m : List Char × JsonText.Value) : Option α :=
  match fields.find? fun f => f.name.map foldLetter = m.1.map foldLetter with
  | none => some a
  | some f => f.set a m.2

/-- The members, one after the other. -/
def setMembers : α → List (List Char × JsonText.Value) → Option α
  | a, [] => some a
  | a, m :: ms => (setMember fields a m).bind fun a => setMembers a ms

/-- `json.Unmarshal`; `none` is an error. -/
def unmarshal (a : α) (cs : List Char) : Option α :=
  match JsonText.read cs with
  | some .null => some a
  | some (.object ms) => setMembers fields a ms
  | _ => none

/-- The body of a request. -/
def bodyOf (a : α) (text : String) : Body α :=
  match unmarshal fields a text.toList with
  | some a => .decoded a
  | none => .malformed text

end Unmarshal

/-! ## The bodies -/

section Bodies

variable (tags : JsonText.Value → Option (List JobTag))
  (data : JsonText.Value → Option (List JobMetadataData))

/-- The fields of `JobMetadata`. -/
def jobMetadataFields : List (Field JobMetadata) :=
  [.int "Id" fun j n => { j with id := n },
    .int "UserId" fun j n => { j with userId := n },
    .text "UserName" fun j s => { j with userName := s },
    .int "GroupId" fun j n => { j with groupId := n },
    .text "GroupName" fun j s => { j with groupName := s },
    .text "ClusterId" fun j s => { j with clusterId := s },
    .int "NumNodes" fun j n => { j with numNodes := n },
    .int "NumTasks" fun j n => { j with numTasks := n },
    .int "TasksPerNode" fun j n => { j with tasksPerNode := n },
    .int "GPUsPerNode" fun j n => { j with gpusPerNode := n },
    .text "NodeList" fun j s => { j with nodeList := s },
    .int "StartTime" fun j n => { j with startTime := n },
    .int "StopTime" fun j n => { j with stopTime := n },
    .bool "IsRunning" fun j b => { j with isRunning := b },
    .text "JobName" fun j s => { j with jobName := s },
    .text "Account" fun j s => { j with account := s },
    .int "TTL" fun j n => { j with ttl := n },
    .text "Partition" fun j s => { j with partition := s },
    .text "JobScript" fun j s => { j with jobScript := s },
    .int "ExitCode" fun j n => { j with exitCode := n },
    .slice "Tags" tags fun j tags => { j with tags },
    .slice "Data" data fun j data => { j with data }]

/-- The fields of `StopJob`. -/
def stopJobFields : List (Field StopJob) :=
  [.int "ExitCode" fun s n => { s with exitCode := n },
    .int "StopTime" fun s n => { s with stopTime := n }]

/-- The body `JobStart` reads. -/
def jobMetadataBody (text : String) : Body JobMetadata :=
  bodyOf (jobMetadataFields tags data) {} text

/-- The body `JobStop` reads. -/
def stopJobBody (text : String) : Body StopJob := bodyOf stopJobFields {} text

end Bodies

/-! ## Numbers -/

theorem isDigit_eq (c : Char) : c.isDigit = Go.isDigit c := by
  simp [Go.isDigit, Char.isDigit, Char.le_def]

/-- The digits of an `int` as JSON has them, without leading zeros. -/
def IsIntText (cs : List Char) : Prop :=
  isInteger cs = true ∧ (Go.digitsVal cs : ℤ) ≤ Go.maxInt

instance (cs : List Char) : Decidable (IsIntText cs) := inferInstanceAs (Decidable (_ ∧ _))

theorem readInt_digits {cs : List Char} (hne : cs ≠ []) (h : ∀ c ∈ cs, Go.isDigit c = true) :
    readInt cs =
      if (Go.digitsVal cs : ℤ) ≤ Go.maxInt then some (Go.digitsVal cs : ℤ) else none := by
  have hmin : ¬ (Go.digitsVal cs : ℤ) < Go.minInt := by
    have : Go.minInt ≤ 0 := by decide
    omega
  unfold readInt Go.atoi
  rw [String.toList_ofList, Go.signedDigits_of_digits hne h]
  simp only [Bool.false_eq_true, if_false, if_neg hmin]
  by_cases hmax : (Go.digitsVal cs : ℤ) ≤ Go.maxInt
  · rw [if_neg (not_lt.2 hmax), if_pos hmax]
  · rw [if_pos (not_le.1 hmax), if_neg hmax]

/-- What a row of digits does to a field for an `int`. -/
theorem setInt_digits {α : Type} (put : α → ℤ → α) (a : α) {cs : List Char}
    (h : ∀ c ∈ cs, Go.isDigit c = true) :
    ((wordToken cs).bind scalar).bind (setInt put a) =
      if IsIntText cs then some (put a (Go.digitsVal cs)) else none := by
  by_cases hne : cs = []
  · subst hne
    rfl
  have hdigit : ∀ c ∈ cs, c.isDigit = true := fun c hc => (isDigit_eq c).trans (h c hc)
  rw [wordToken, if_neg hne, Option.bind_some, scalar, ofWord_digits hdigit]
  by_cases hinteger : isInteger cs = true
  · rw [if_pos hinteger, Option.bind_some]
    show (readInt cs).map (put a) = _
    rw [readInt_digits hne h]
    by_cases hmax : (Go.digitsVal cs : ℤ) ≤ Go.maxInt
    · rw [if_pos hmax, if_pos (show IsIntText cs from ⟨hinteger, hmax⟩), Option.map_some]
    · rw [if_neg hmax, if_neg fun h : IsIntText cs => hmax h.2, Option.map_none]
  · rw [if_neg hinteger, if_neg fun h : IsIntText cs => hinteger h.1, Option.bind_none]

/-- A printed number has no leading zero. -/
theorem isInteger_repr (n : ℕ) : isInteger (Nat.repr n).toList = true := by
  have hdigits : ∀ n, ∀ c ∈ Nat.toDigits 10 n, c.isDigit = true := fun n c hc =>
    Nat.isDigit_of_mem_toDigits (by decide) (by decide) hc
  have hone : ∀ n < 10, 0 < n → n.digitChar ≠ '0' := by decide
  have hhead : ∀ n, 0 < n → (Nat.toDigits 10 n).head? ≠ some '0' := by
    intro n
    induction n using Nat.strong_induction_on with
    | _ n ih =>
      intro hn
      by_cases hlt : n < 10
      · rw [Nat.toDigits_of_lt_base hlt]
        simpa using hone n hlt hn
      · rw [Nat.toDigits_of_base_le (by decide) (not_lt.1 hlt), List.head?_append]
        have hrest := ih (n / 10) (by omega) (by omega)
        cases hcs : (Nat.toDigits 10 (n / 10)).head? with
        | none => exact absurd (List.head?_eq_none_iff.1 hcs) Nat.toDigits_ne_nil
        | some c =>
          rw [hcs] at hrest
          simpa using hrest
  rw [Nat.repr, String.toList_ofList, isInteger]
  rcases Nat.eq_zero_or_pos n with rfl | hn
  · rfl
  · simp [Nat.toDigits_ne_nil, hhead n hn, List.all_eq_true.2 (hdigits n)]

/-- A printed `int` is read. -/
theorem setInt_toString {α : Type} (put : α → ℤ → α) (a : α) {n : ℤ}
    (hmin : Go.minInt ≤ n) (hmax : n ≤ Go.maxInt) :
    ((wordToken (toString n).toList).bind scalar).bind (setInt put a) = some (put a n) := by
  have hnumber : ofWord (toString n).toList = some (.number (toString n).toList) := by
    have hdigits : ∀ k : ℕ, ∀ c ∈ (Nat.repr k).toList, c.isDigit = true := fun k c hc =>
      (isDigit_eq c).trans (Go.isDigit_of_mem_repr hc)
    cases n with
    | ofNat k =>
      show ofWord (Nat.repr k).toList = some (.number (Nat.repr k).toList)
      rw [ofWord_digits (hdigits k), if_pos (isInteger_repr k)]
    | negSucc k =>
      have htext : (toString (Int.negSucc k)).toList = '-' :: (Nat.repr k.succ).toList := by
        show ("-" ++ Nat.repr k.succ).toList = _
        rw [String.toList_append]
        rfl
      rw [htext]
      exact ofWord_minus (hdigits _) (isInteger_repr _)
  have hne : (toString n).toList ≠ [] := by
    intro hnil
    rw [hnil] at hnumber
    cases hnumber
  rw [wordToken, if_neg hne, Option.bind_some, scalar, hnumber, Option.bind_some]
  show (readInt _).map (put a) = _
  rw [readInt, String.ofList_toList, Go.atoi_toString hmin hmax, Option.map_some]

/-! ## Members -/

section Members

variable {α : Type} {fields : List (Field α)}

/-- The members of a text, read and put into the record one after the other. -/
def setTokens (fields : List (Field α)) : α → List Member → Option α
  | a, [] => some a
  | a, m :: ms =>
    ((m.2.bind scalar).bind fun v => setMember fields a (m.1, v)).bind fun a =>
      setTokens fields a ms

/-- What a member does to a record. -/
inductive Assignment (α : Type)
  | digits (put : α → ℤ → α) (cs : List Char)
  | int (put : α → ℤ → α) (n : ℤ)
  | text (put : α → String → α) (s : String)
  | bool (put : α → Bool → α) (b : Bool)
  | nothing

namespace Assignment

/-- The digits that have to be an `int`. -/
def needs : Assignment α → List (List Char)
  | digits _ cs => [cs]
  | _ => []

def put (a : α) : Assignment α → α
  | digits put cs => put a (Go.digitsVal cs)
  | int put n => put a n
  | text put s => put a s
  | bool put b => put a b
  | nothing => a

end Assignment

/-- A member, read and put into any record. -/
def Assigns (fields : List (Field α)) (m : Member) (s : Assignment α) : Prop :=
  ∀ a, ((m.2.bind scalar).bind fun v => setMember fields a (m.1, v)) =
    if ∀ cs ∈ s.needs, IsIntText cs then some (s.put a) else none

section Assignments

variable {key : List Char}

theorem assigns_of_no_needs {m : Member} {s : Assignment α} (hneeds : s.needs = [])
    (h : ∀ a, ((m.2.bind scalar).bind fun v => setMember fields a (m.1, v)) = some (s.put a)) :
    Assigns fields m s := by
  intro a
  rw [hneeds, if_pos (List.forall_mem_nil _), h a]

/-- The digits of an `int`. -/
theorem assigns_digits {put : α → ℤ → α} {cs : List Char}
    (hfield : ∀ a v, setMember fields a (key, v) = setInt put a v)
    (h : ∀ c ∈ cs, Go.isDigit c = true) :
    Assigns fields (key, wordToken cs) (.digits put cs) := by
  intro a
  simp only [hfield, Assignment.needs, List.forall_mem_singleton]
  exact setInt_digits put a h

/-- An `int` that was printed. -/
theorem assigns_int {put : α → ℤ → α} {n : ℤ}
    (hfield : ∀ a v, setMember fields a (key, v) = setInt put a v)
    (hmin : Go.minInt ≤ n) (hmax : n ≤ Go.maxInt) :
    Assigns fields (key, wordToken (toString n).toList) (.int put n) := by
  refine assigns_of_no_needs rfl fun a => ?_
  simp only [hfield]
  exact setInt_toString put a hmin hmax

/-- A string. -/
theorem assigns_text {put : α → String → α} {s : String}
    (hfield : ∀ a v, setMember fields a (key, v) = setText put a v) :
    Assigns fields (key, some (.text s.toList)) (.text put s) := by
  refine assigns_of_no_needs rfl fun a => ?_
  simp only [hfield, scalar, Option.bind_some, setText, String.ofList_toList]
  rfl

/-- The word `true`. -/
theorem assigns_true {put : α → Bool → α}
    (hfield : ∀ a v, setMember fields a (key, v) = setBool put a v) :
    Assigns fields (key, wordToken "true".toList) (.bool put true) := by
  refine assigns_of_no_needs rfl fun a => ?_
  simp only [hfield]
  rfl

/-- A member without a field. -/
theorem assigns_nothing {cs : List Char} (hfield : ∀ a v, setMember fields a (key, v) = some a) :
    Assigns fields (key, some (.text cs)) .nothing := by
  refine assigns_of_no_needs rfl fun a => ?_
  simp only [hfield]
  rfl

end Assignments

/-- **Members that are assignments**, one after the other. -/
theorem setTokens_eq {ms : List Member} {ss : List (Assignment α)}
    (h : List.Forall₂ (Assigns fields) ms ss) (a : α) :
    setTokens fields a ms =
      if ∀ cs ∈ ss.flatMap Assignment.needs, IsIntText cs then
        some (ss.foldl Assignment.put a)
      else none := by
  induction h generalizing a with
  | nil => simp [setTokens]
  | @cons m s ms ss hm _ ih =>
    rw [setTokens, hm a, List.flatMap_cons]
    simp only [List.forall_mem_append, ite_and, List.foldl_cons, ← ih]
    split_ifs <;> rfl

theorem setMembers_values (a : α) (ms : List Member) :
    ((values ms).bind fun vs => setMembers fields a vs) = setTokens fields a ms := by
  induction ms generalizing a with
  | nil => rfl
  | cons m ms ih =>
    rw [values, setTokens]
    cases m.2.bind scalar with
    | none => rfl
    | some v =>
      simp only [Option.bind_some, Option.bind_map, Function.comp_def, setMembers, ← ih]
      cases setMember fields a (m.1, v) with
      | none => simp
      | some b => simp

/-- **What an object with a member to a line leaves in a record.** -/
theorem unmarshal_objectText {indent closing : ℕ} {m : List Char × List Char} {m' : Member}
    {ms : List (List Char × List Char)} {ms' : List Member}
    (h : List.Forall₂ Written (m :: ms) (m' :: ms')) (a : α) :
    unmarshal fields a (objectText indent closing (m :: ms)) =
      setTokens fields a (m' :: ms') := by
  rw [unmarshal, read_objectText h, ← setMembers_values]
  cases values (m' :: ms') <;> rfl

end Members

end JobMon
