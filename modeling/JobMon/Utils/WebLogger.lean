import JobMon.Lib.RingBuffer
import JobMon.Config.Types

/-!
# The log on the web

`utils.WebLogger` keeps the last messages in a ring, sends them to a connection that is
added, and sends every new message to all connections and to the default writer.

* `WebLogger.write`, `addConnection`, `removeConnection` — the operations, with what they
  write and where.
* `values_run` — the ring holds the last 25 messages.
* `received_of_absent`, `received_of_present` — what a connection gets from operations while
  it is not in the list, and once it is.
* `delivered` — what every connection and the default writer have received after any row of
  operations.
-/

namespace JobMon

/-- What `Write` is given. -/
abbrev Message := List UInt8

/-- The bytes of a text. -/
def bytesOf (s : String) : Message := s.toUTF8.data.toList

variable {Conn : Type} [DecidableEq Conn]

/-- What has arrived where. -/
structure Outputs (Conn : Type) where
  received : Conn → List Message := fun _ => []
  default : List Message := []

/-- Write to a connection; the error of a write that fails goes to the default writer. -/
def Outputs.send (out : Outputs Conn) (place : String) (c : Conn) (p : Message) :
    Option String → Outputs Conn
  | none => { out with received := Function.update out.received c (out.received c ++ [p]) }
  | some err => { out with default := out.default ++ [bytesOf ("ERROR: utils: " ++ place ++ err)] }

/-- `utils.WebLogger`. -/
structure WebLogger (Conn : Type) where
  connections : List Conn
  ring : RingBuffer Message

namespace WebLogger

/-- `Init`. -/
def init : WebLogger Conn where
  connections := []
  ring := RingBuffer.new 25 (by decide)

/-- `Write`; `errors` are the errors of the writes to the connections. -/
def write (l : WebLogger Conn) (out : Outputs Conn) (p : Message) (errors : Conn → Option String) :
    WebLogger Conn × Outputs Conn :=
  let l := { l with ring := (l.ring.set p).next }
  let out := l.connections.foldl
    (fun out c => out.send "Write(): Failed to write to websocket: " c p (errors c)) out
  (l, { out with default := out.default ++ [p] })

/-- One step of `ring.Do`: nothing for an empty cell or an empty message. -/
def replay (c : Conn) (errors : Message → Option String) (out : Outputs Conn) :
    Option Message → Outputs Conn
  | none => out
  | some p =>
    if p.length > 0 then
      out.send "AddConnection(): Failed to write to new websocket: " c p (errors p)
    else out

/-- `AddConnection`; `errors` are the errors of the writes of the old messages. -/
def addConnection (l : WebLogger Conn) (out : Outputs Conn) (c : Conn)
    (errors : Message → Option String) : WebLogger Conn × Outputs Conn :=
  let out := l.ring.toList.foldl (replay c errors) out
  ({ l with connections := l.connections ++ [c] }, out)

/-- `RemoveConnection`. -/
def removeConnection (l : WebLogger Conn) (c : Conn) : WebLogger Conn :=
  { l with connections := Utils.remove l.connections c }

end WebLogger

/-! ## Rows of operations -/

/-- An operation. -/
inductive LogOp (Conn : Type)
  | write (p : Message) (errors : Conn → Option String)
  | add (c : Conn) (errors : Message → Option String)
  | remove (c : Conn)

namespace LogOp

/-- The message of a `Write`. -/
def message? : LogOp Conn → Option Message
  | write p _ => some p
  | _ => none

/-- The connection of an `AddConnection`. -/
def added? : LogOp Conn → Option Conn
  | add c _ => some c
  | _ => none

/-- It is the removal of this connection. -/
def removes (c : Conn) : LogOp Conn → Bool
  | remove c' => decide (c' = c)
  | _ => false

/-- All writes to connections succeed. -/
def Succeeds : LogOp Conn → Prop
  | write _ errors => ∀ c, errors c = none
  | add _ errors => ∀ p, errors p = none
  | remove _ => True

end LogOp

/-- The messages written by a row of operations. -/
def written (ops : List (LogOp Conn)) : List Message := ops.filterMap LogOp.message?

/-- A logger, and what has arrived. -/
abbrev LogState (Conn : Type) := WebLogger Conn × Outputs Conn

namespace LogState

def step (s : LogState Conn) : LogOp Conn → LogState Conn
  | .write p errors => s.1.write s.2 p errors
  | .add c errors => s.1.addConnection s.2 c errors
  | .remove c => (s.1.removeConnection c, s.2)

/-- One operation after the other. -/
def run (s : LogState Conn) (ops : List (LogOp Conn)) : LogState Conn := ops.foldl step s

/-- After `Init`. -/
def start : LogState Conn := (WebLogger.init, {})

variable {s : LogState Conn} {op : LogOp Conn} {ops : List (LogOp Conn)} {c : Conn}

theorem run_append (s : LogState Conn) (ops ops' : List (LogOp Conn)) :
    s.run (ops ++ ops') = (s.run ops).run ops' :=
  List.foldl_append

/-! ## What one operation does -/

theorem ring_step (s : LogState Conn) (op : LogOp Conn) :
    (s.step op).1.ring = s.1.ring.recordAll (written [op]) := by
  cases op <;> rfl

/-- Writing to all connections of a list. -/
theorem received_writeAll (place : String) (p : Message) {errors : Conn → Option String}
    (herrors : ∀ c, errors c = none) (cs : List Conn) (out : Outputs Conn) :
    let out' := cs.foldl (fun out c => out.send place c p (errors c)) out
    (∀ c, out'.received c = out.received c ++ List.replicate (cs.count c) p) ∧
      out'.default = out.default := by
  induction cs generalizing out with
  | nil => simp
  | cons d cs ih =>
    have hsend : out.send place d p (errors d) =
        { out with received := Function.update out.received d (out.received d ++ [p]) } := by
      rw [herrors d]
      rfl
    simp only [List.foldl_cons]
    rw [hsend]
    obtain ⟨hreceived, hdefault⟩ := ih
      { out with received := Function.update out.received d (out.received d ++ [p]) }
    refine ⟨fun c => ?_, hdefault⟩
    rw [hreceived c, List.count_cons]
    by_cases hc : d = c
    · subst hc
      simp [List.replicate_succ]
    · simp [Function.update_of_ne (Ne.symm hc), hc]

/-- Replaying the cells of a ring. -/
theorem received_replay (c : Conn) {errors : Message → Option String}
    (herrors : ∀ p, errors p = none) (cells : List (Option Message)) (out : Outputs Conn) :
    let out' := cells.foldl (WebLogger.replay c errors) out
    out'.received = Function.update out.received c
        (out.received c ++ (cells.filterMap id).filter fun p => p ≠ []) ∧
      out'.default = out.default := by
  induction cells generalizing out with
  | nil => simp
  | cons cell cells ih =>
    simp only [List.foldl_cons]
    cases cell with
    | none => simpa [WebLogger.replay] using ih out
    | some p =>
      by_cases hp : p = []
      · subst hp
        simpa [WebLogger.replay] using ih out
      · have hreplay : WebLogger.replay c errors out (some p) =
            { out with received := Function.update out.received c (out.received c ++ [p]) } := by
          rw [WebLogger.replay, if_pos (List.length_pos_iff.2 hp), herrors p]
          rfl
        rw [hreplay]
        obtain ⟨hreceived, hdefault⟩ := ih
          { out with received := Function.update out.received c (out.received c ++ [p]) }
        refine ⟨?_, hdefault⟩
        rw [hreceived]
        simp [hp]

/-- The message of an operation comes to the default writer. -/
theorem default_step (s : LogState Conn) (h : op.Succeeds) :
    (s.step op).2.default = s.2.default ++ written [op] := by
  cases op with
  | write p errors =>
    show (Outputs.default _) ++ [p] = _
    rw [(received_writeAll _ p h s.1.connections s.2).2]
    rfl
  | add c errors =>
    have hreplay := (received_replay c h s.1.ring.toList s.2).2
    exact hreplay.trans (List.append_nil _).symm
  | remove c => exact (List.append_nil _).symm

/-- A write reaches a connection as often as it is in the list. -/
theorem received_step_write (s : LogState Conn) (p : Message) {errors : Conn → Option String}
    (herrors : ∀ c, errors c = none) (c : Conn) :
    (s.step (.write p errors)).2.received c =
      s.2.received c ++ List.replicate (s.1.connections.count c) p :=
  (received_writeAll _ p herrors s.1.connections s.2).1 c

/-- A connection that is added gets the messages that are not empty. -/
theorem received_step_add (s : LogState Conn) {errors : Message → Option String}
    (herrors : ∀ p, errors p = none) (c c' : Conn) :
    (s.step (.add c' errors)).2.received c =
      if c = c' then s.2.received c ++ s.1.ring.values.filter fun p => p ≠ []
      else s.2.received c := by
  have hreplay := (received_replay c' herrors s.1.ring.toList s.2).1
  refine (congrFun hreplay c).trans ?_
  rw [Function.update_apply]
  by_cases hc : c = c'
  · rw [if_pos hc, if_pos hc, hc]
    rfl
  · rw [if_neg hc, if_neg hc]

/-- The number of times a connection is in the list after an operation. -/
theorem count_step (s : LogState Conn) (op : LogOp Conn) (c : Conn) :
    (s.step op).1.connections.count c =
      if op.removes c then s.1.connections.count c - 1
      else if op.added? = some c then s.1.connections.count c + 1
      else s.1.connections.count c := by
  cases op with
  | write p errors => rfl
  | add c' errors =>
    show (s.1.connections ++ [c']).count c = _
    by_cases hc : c' = c
    · subst hc
      simp [LogOp.removes, LogOp.added?]
    · simp [LogOp.removes, LogOp.added?, hc]
  | remove c' =>
    show (Utils.remove s.1.connections c').count c = _
    rw [Utils.remove_eq_erase]
    by_cases hc : c' = c
    · subst hc
      simp [LogOp.removes]
    · rw [List.count_erase_of_ne (Ne.symm hc)]
      simp [LogOp.removes, LogOp.added?, hc]

/-! ## Runs -/

theorem ring_run (s : LogState Conn) (ops : List (LogOp Conn)) :
    (s.run ops).1.ring = s.1.ring.recordAll (written ops) := by
  induction ops generalizing s with
  | nil => rfl
  | cons op ops ih =>
    show ((s.step op).run ops).1.ring = _
    rw [ih, ring_step]
    cases op <;> rfl

/-- **The ring holds the last 25 messages.** -/
theorem values_run (ops : List (LogOp Conn)) :
    (start.run ops).1.ring.values = (written ops).rtake 25 := by
  rw [ring_run]
  exact RingBuffer.values_recordAll 25 (by decide) (written ops)

/-- Every message comes to the default writer once. -/
theorem default_run (s : LogState Conn) (h : ∀ op ∈ ops, op.Succeeds) :
    (s.run ops).2.default = s.2.default ++ written ops := by
  induction ops generalizing s with
  | nil => simp [run, written]
  | cons op ops ih =>
    rw [List.forall_mem_cons] at h
    show ((s.step op).run ops).2.default = _
    rw [ih _ h.2, default_step s h.1, List.append_assoc, written, written, written,
      ← List.filterMap_append]
    rfl

/-- **A connection that is not in the list gets nothing**, as long as it is not added. -/
theorem received_of_absent (hcount : s.1.connections.count c = 0) (h : ∀ op ∈ ops, op.Succeeds)
    (hadd : ∀ op ∈ ops, op.added? ≠ some c) :
    (s.run ops).1.connections.count c = 0 ∧ (s.run ops).2.received c = s.2.received c := by
  induction ops generalizing s with
  | nil => exact ⟨hcount, rfl⟩
  | cons op ops ih =>
    rw [List.forall_mem_cons] at h hadd
    have hcount' : (s.step op).1.connections.count c = 0 := by
      rw [count_step, if_neg hadd.1, hcount]
      exact ite_self 0
    have hreceived : (s.step op).2.received c = s.2.received c := by
      cases op with
      | write p errors =>
        rw [received_step_write s p h.1, hcount]
        exact List.append_nil _
      | add c' errors =>
        have hc : c ≠ c' := fun heq => hadd.1 (congrArg some heq.symm)
        rw [received_step_add s h.1, if_neg hc]
      | remove c' => rfl
    rw [← hreceived]
    exact ih hcount' h.2 hadd.2

/-- **A connection in the list gets every message**, until it is removed. -/
theorem received_of_present (hcount : s.1.connections.count c = 1) (h : ∀ op ∈ ops, op.Succeeds)
    (hadd : ∀ op ∈ ops, op.added? ≠ some c) :
    (s.run ops).2.received c =
      s.2.received c ++ written (ops.takeWhile fun op => !op.removes c) := by
  induction ops generalizing s with
  | nil => simp [run, written]
  | cons op ops ih =>
    rw [List.forall_mem_cons] at h hadd
    show ((s.step op).run ops).2.received c = _
    by_cases hremove : op.removes c = true
    · -- from here on the connection is not in the list
      have hcount' : (s.step op).1.connections.count c = 0 := by
        rw [count_step, if_pos hremove, hcount]
      have hreceived : (s.step op).2.received c = s.2.received c := by
        cases op with
        | write p errors => cases hremove
        | add c' errors => cases hremove
        | remove c' => rfl
      rw [(received_of_absent hcount' h.2 hadd.2).2, hreceived,
        List.takeWhile_cons_of_neg (by simp [hremove])]
      exact (List.append_nil _).symm
    · have hcount' : (s.step op).1.connections.count c = 1 := by
        rw [count_step, if_neg hremove, if_neg hadd.1, hcount]
      have hreceived : (s.step op).2.received c = s.2.received c ++ written [op] := by
        cases op with
        | write p errors =>
          rw [received_step_write s p h.1, hcount]
          rfl
        | add c' errors =>
          have hc : c ≠ c' := fun heq => hadd.1 (congrArg some heq.symm)
          rw [received_step_add s h.1, if_neg hc]
          exact (List.append_nil _).symm
        | remove c' => exact (List.append_nil _).symm
      rw [ih hcount' h.2 hadd.2, hreceived, List.takeWhile_cons_of_pos (by simp [hremove]),
        List.append_assoc, written, written, written, ← List.filterMap_append]
      rfl

/-- **What has been delivered** after any row of operations whose writes succeed, when no
connection is added twice.  A connection that was not added has nothing; another one has the
messages that are not empty among the last 25 before it was added, and then every message
until it was removed.  The default writer has every message. -/
theorem delivered (ops : List (LogOp Conn)) (h : ∀ op ∈ ops, op.Succeeds)
    (honce : (ops.filterMap LogOp.added?).Nodup) :
    (∀ c, (∀ op ∈ ops, op.added? ≠ some c) → (start.run ops).2.received c = []) ∧
    (∀ c errors before after, ops = before ++ .add c errors :: after →
      (start.run ops).2.received c =
        (((written before).rtake 25).filter fun p => p ≠ []) ++
          written (after.takeWhile fun op => !op.removes c)) ∧
    (start.run ops).2.default = written ops := by
  have hnew : ∀ c : Conn, (start : LogState Conn).1.connections.count c = 0 := fun _ => rfl
  refine ⟨fun c hadd => (received_of_absent (hnew c) h hadd).2, ?_, ?_⟩
  · rintro c errors before after rfl
    simp only [List.forall_mem_append, List.forall_mem_cons] at h
    obtain ⟨hbefore, hnow, hafter⟩ := h
    rw [List.filterMap_append, List.filterMap_cons_some (show LogOp.added? (.add c errors) = some c
      from rfl)] at honce
    have hnotBefore : ∀ op ∈ before, op.added? ≠ some c := by
      intro op hop hc
      exact (List.nodup_append.1 honce).2.2 c (List.mem_filterMap.2 ⟨op, hop, hc⟩) c
        List.mem_cons_self rfl
    have hnotAfter : ∀ op ∈ after, op.added? ≠ some c := by
      intro op hop hc
      exact (List.nodup_cons.1 (List.nodup_append.1 honce).2.1).1
        (List.mem_filterMap.2 ⟨op, hop, hc⟩)
    obtain ⟨hcount, hreceived⟩ := received_of_absent (hnew c) hbefore hnotBefore
    have hcount' : ((start.run before).step (.add c errors)).1.connections.count c = 1 := by
      rw [count_step, hcount]
      simp [LogOp.removes, LogOp.added?]
    rw [run_append]
    show (((start.run before).step (.add c errors)).run after).2.received c = _
    rw [received_of_present hcount' hafter hnotAfter, received_step_add _ hnow, if_pos rfl,
      hreceived, values_run]
    rfl
  · rw [default_run start h]
    exact List.nil_append _

/-- A message of one byte. -/
def message (i : ℕ) : LogOp ℕ := .write [i.toUInt8] fun _ => none

/-- After 27 messages, one of them empty, a connection comes, after one more a second one,
and the first goes after another. -/
def twoConnections : List (LogOp ℕ) :=
  ((List.range 20).map message ++ .write [] (fun _ => none) :: (List.range' 21 6).map message) ++
    .add 0 (fun _ => none) :: message 27 :: .add 1 (fun _ => none) :: message 28 :: .remove 0 ::
      [message 29]

/-- Of the messages before it each connection has the last 25, without the empty one; the
buffer has gone round by then. -/
theorem delivered_twoConnections :
    (start.run twoConnections).2.received 0 =
        ((List.range' 2 18 ++ List.range' 21 8).map fun i => [i.toUInt8]) ∧
      (start.run twoConnections).2.received 1 =
        ((List.range' 3 17 ++ List.range' 21 9).map fun i => [i.toUInt8]) ∧
      (start.run twoConnections).2.received 2 = [] ∧
      (start.run twoConnections).2.default =
        ((List.range 20).map fun i => [i.toUInt8]) ++ [] ::
          (List.range' 21 9).map fun i => [i.toUInt8] := by
  have hall : ∀ op ∈ twoConnections, op.Succeeds := by
    simp only [twoConnections, message, List.forall_mem_append, List.forall_mem_cons,
      List.forall_mem_map]
    simp [LogOp.Succeeds]
  obtain ⟨hnone, hreceived, hdefault⟩ := delivered twoConnections hall (by decide)
  refine ⟨?_, ?_, hnone 2 (by decide), hdefault.trans (by decide)⟩
  · exact (hreceived 0 (fun _ => none) (twoConnections.take 27) (twoConnections.drop 28) rfl).trans
      (by decide)
  · exact (hreceived 1 (fun _ => none) (twoConnections.take 29) (twoConnections.drop 30) rfl).trans
      (by decide)

end LogState

end JobMon
