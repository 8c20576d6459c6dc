import JobMon.Lib.Runs
import JobMon.Router.Read

/-!
# The goroutines of a live connection

A live connection has three goroutines: the reader takes the messages of the client, the
sampler asks for the latest values on every tick, and the forwarder sends them to the client.
The sampler and the forwarder share the channel `monitor`, the reader and the sampler the
channel `done`; both are unbuffered, so a send and its receive are one step.

* `LiveState.step` — one step of a goroutine, of the ticker, or of the client.
* `LiveState.Inv` — how far the goroutines are, and which channels are closed.
* `Inv.step` — every step keeps it.
* `canGoOn_of_inv` — after the client has left some goroutine can go on.
* `live_shutdown` — in every run nothing is sent on a closed channel, no channel is closed
  twice, nothing is stuck after the client has left, and in the end all is closed.
-/

namespace JobMon

open Runs

/-- The goroutine of `CreateLiveMonitoringChannel`; `D` is the data of a query. -/
inductive Sampler (D : Type)
  | select
  | querying
  /-- At `monitor <- data`. -/
  | sending (data : D)
  /-- `done` has been received, `ticker.Stop()` is next. -/
  | stopping
  | closingDone
  | closingMonitor
  | terminated

/-- The first goroutine of `LiveMonitoring`. -/
inductive Reader (D : Type)
  | reading
  | querying (startTime stopTime : ℤ)
  /-- Before `c.WriteJSON(resp)`, and inside. -/
  | answering (data : D)
  | writing (data : D)
  /-- At `done <- true`. -/
  | sendingDone
  | closing
  | terminated

/-- The second goroutine of `LiveMonitoring`. -/
inductive Forwarder (D : Type)
  | receiving
  /-- Before `c.WriteJSON(resp)`, and inside. -/
  | forwarding (data : D)
  | writing (data : D)
  | terminated

/-- A live connection that is being served. -/
structure LiveState (D : Type) where
  sampler : Sampler D := .select
  reader : Reader D := .reading
  forwarder : Forwarder D := .receiving
  /-- A tick is waiting in `ticker.C`. -/
  tickPending : Bool := false
  tickerStopped : Bool := false
  doneClosed : Bool := false
  monitorClosed : Bool := false
  /-- The client is there. -/
  connected : Bool := true
  /-- What the client has sent and the reader has not read. -/
  inbox : List WSMessage := []
  /-- A goroutine has sent on a closed channel, or has closed one. -/
  panicked : Bool := false

/-- What can happen. -/
inductive LiveStep (D : Type)
  /-- The ticker and the client. -/
  | tick
  | message (msg : WSMessage)
  | disconnect
  /-- The sampler takes a tick, and its query ends. -/
  | takeTick
  | sampled (result : Option D)
  /-- The sampler sends on `monitor` and the forwarder receives. -/
  | handOver
  /-- The reader sends on `done` and the sampler receives. -/
  | takeDone
  | stopTicker
  | closeDone
  | closeMonitor
  /-- The reader gets a message, or learns that there will be no more. -/
  | readMessage
  | readError
  /-- Its query ends, and it writes the answer. -/
  | answered (result : Option D)
  | beginAnswer
  | endAnswer
  | closeConn
  /-- The forwarder writes, or learns that `monitor` is closed. -/
  | beginForward
  | endForward
  | receiveClosed
  /-- A goroutine sends on a closed channel. -/
  | sendClosed

variable {D : Type}

namespace LiveState

/-- A goroutine is about to send on a closed channel. -/
def SendsClosed (s : LiveState D) : Prop :=
  (∃ data, s.sampler = .sending data) ∧ s.monitorClosed = true ∨
    s.reader = .sendingDone ∧ s.doneClosed = true

/-- A goroutine is about to close a closed channel. -/
def ClosesClosed (s : LiveState D) : Prop :=
  s.sampler = .closingDone ∧ s.doneClosed = true ∨
    s.sampler = .closingMonitor ∧ s.monitorClosed = true

/-- One step; `none` when it is not possible. -/
def step (s : LiveState D) : LiveStep D → Option (LiveState D)
  | .tick => if s.tickerStopped then none else some { s with tickPending := true }
  | .message msg => if s.connected then some { s with inbox := s.inbox ++ [msg] } else none
  | .disconnect => if s.connected then some { s with connected := false } else none
  | .takeTick =>
    match s.sampler, s.tickPending with
    | .select, true => some { s with sampler := .querying, tickPending := false }
    | _, _ => none
  | .sampled result =>
    match s.sampler, result with
    | .querying, some data => some { s with sampler := .sending data }
    | .querying, none => some { s with sampler := .select }
    | _, _ => none
  | .handOver =>
    match s.sampler, s.forwarder, s.monitorClosed with
    | .sending data, .receiving, false =>
      some { s with sampler := .select, forwarder := .forwarding data }
    | _, _, _ => none
  | .takeDone =>
    match s.reader, s.sampler, s.doneClosed with
    | .sendingDone, .select, false => some { s with reader := .closing, sampler := .stopping }
    | _, _, _ => none
  | .stopTicker =>
    match s.sampler with
    | .stopping => some { s with sampler := .closingDone, tickerStopped := true }
    | _ => none
  | .closeDone =>
    match s.sampler, s.doneClosed with
    | .closingDone, false => some { s with sampler := .closingMonitor, doneClosed := true }
    | .closingDone, true => some { s with panicked := true }
    | _, _ => none
  | .closeMonitor =>
    match s.sampler, s.monitorClosed with
    | .closingMonitor, false => some { s with sampler := .terminated, monitorClosed := true }
    | .closingMonitor, true => some { s with panicked := true }
    | _, _ => none
  | .readMessage =>
    match s.reader, s.inbox with
    | .reading, .loadMetrics startTime stopTime :: inbox =>
      some { s with reader := .querying startTime stopTime, inbox := inbox }
    | .reading, .other :: inbox => some { s with inbox := inbox }
    | _, _ => none
  | .readError =>
    match s.reader, s.connected with
    | .reading, false => some { s with reader := .sendingDone }
    | _, _ => none
  | .answered result =>
    match s.reader, result with
    | .querying _ _, some data => some { s with reader := .answering data }
    | .querying _ _, none => some { s with reader := .reading }
    | _, _ => none
  | .beginAnswer =>
    match s.reader with
    | .answering data => some { s with reader := .writing data }
    | _ => none
  | .endAnswer =>
    match s.reader with
    | .writing _ => some { s with reader := .reading }
    | _ => none
  | .closeConn =>
    match s.reader with
    | .closing => some { s with reader := .terminated }
    | _ => none
  | .beginForward =>
    match s.forwarder with
    | .forwarding data => some { s with forwarder := .writing data }
    | _ => none
  | .endForward =>
    match s.forwarder with
    | .writing _ => some { s with forwarder := .receiving }
    | _ => none
  | .receiveClosed =>
    match s.forwarder, s.monitorClosed with
    | .receiving, true => some { s with forwarder := .terminated }
    | _, _ => none
  | .sendClosed =>
    match s.sampler, s.monitorClosed, s.reader, s.doneClosed with
    | .sending _, true, _, _ => some { s with panicked := true }
    | _, _, .sendingDone, true => some { s with panicked := true }
    | _, _, _, _ => none

end LiveState

/-! ## How far the goroutines are -/

/-- How far the sampler is in leaving. -/
def Sampler.stage : Sampler D → ℕ
  | select => 0
  | querying => 0
  | sending _ => 0
  | stopping => 1
  | closingDone => 2
  | closingMonitor => 3
  | terminated => 4

/-- How far the reader is in leaving. -/
def Reader.stage : Reader D → ℕ
  | reading => 0
  | querying _ _ => 0
  | answering _ => 0
  | writing _ => 0
  | sendingDone => 1
  | closing => 2
  | terminated => 3

/-- Whether the forwarder has left. -/
def Forwarder.stage : Forwarder D → ℕ
  | receiving => 0
  | forwarding _ => 0
  | writing _ => 0
  | terminated => 1

/-- By these steps no goroutine gets further in leaving. -/
def LiveStep.stays : LiveStep D → Bool
  | disconnect => false
  | takeDone => false
  | stopTicker => false
  | closeDone => false
  | closeMonitor => false
  | readError => false
  | closeConn => false
  | receiveClosed => false
  | sendClosed => false
  | _ => true

/-- A step of a goroutine, not of the ticker or the client. -/
def LiveStep.own : LiveStep D → Bool
  | tick => false
  | message _ => false
  | disconnect => false
  | _ => true

namespace LiveState

/-- All three goroutines have terminated. -/
def Terminated (s : LiveState D) : Prop :=
  s.sampler = .terminated ∧ s.reader = .terminated ∧ s.forwarder = .terminated

/-- **The invariant**: the ticker and the channels are as the sampler has left them, the
sampler has received `done` exactly when the reader has sent it, and the goroutines leave one
after the other. -/
structure Inv (s : LiveState D) : Prop where
  quiet : s.panicked = false
  ticker : s.tickerStopped = true ↔ 2 ≤ s.sampler.stage
  done : s.doneClosed = true ↔ 3 ≤ s.sampler.stage
  monitor : s.monitorClosed = true ↔ 4 ≤ s.sampler.stage
  handed : 1 ≤ s.sampler.stage ↔ 2 ≤ s.reader.stage
  gone : 1 ≤ s.reader.stage → s.connected = false
  last : 1 ≤ s.forwarder.stage → 4 ≤ s.sampler.stage

theorem inv_start : Inv ({} : LiveState D) := by
  constructor <;> simp [Sampler.stage, Reader.stage, Forwarder.stage]

variable {s t : LiveState D} {a : LiveStep D}

/-- What the invariant is about. -/
def stages (s : LiveState D) : (Bool × Bool × Bool × Bool × Bool) × ℕ × ℕ × ℕ :=
  ((s.panicked, s.tickerStopped, s.doneClosed, s.monitorClosed, s.connected),
    s.sampler.stage, s.reader.stage, s.forwarder.stage)

theorem Inv.congr (h : s.Inv) (hstages : t.stages = s.stages) : t.Inv := by
  simp only [stages, Prod.mk.injEq] at hstages
  obtain ⟨⟨hpanicked, hticker, hdone, hmonitor, hconnected⟩, hsampler, hreader, hforwarder⟩ :=
    hstages
  constructor
  · rw [hpanicked, h.quiet]
  · rw [hticker, hsampler, h.ticker]
  · rw [hdone, hsampler, h.done]
  · rw [hmonitor, hsampler, h.monitor]
  · rw [hsampler, hreader, h.handed]
  · rw [hreader, hconnected]
    exact h.gone
  · rw [hforwarder, hsampler]
    exact h.last

/-- **Nothing is sent on a closed channel**: a sampler that sends has not closed `monitor`,
and one whose reader has not sent `done` has not closed that. -/
theorem Inv.not_sendsClosed (h : s.Inv) : ¬ s.SendsClosed := by
  rintro (⟨⟨data, hsampler⟩, hclosed⟩ | ⟨hreader, hclosed⟩)
  · have hstage := h.monitor.1 hclosed
    simp [hsampler, Sampler.stage] at hstage
  · have hstage := h.handed.1 (by have := h.done.1 hclosed; omega)
    simp [hreader, Reader.stage] at hstage

/-- **No channel is closed twice.** -/
theorem Inv.not_closesClosed (h : s.Inv) : ¬ s.ClosesClosed := by
  rintro (⟨hsampler, hclosed⟩ | ⟨hsampler, hclosed⟩)
  · have hstage := h.done.1 hclosed
    simp [hsampler, Sampler.stage] at hstage
  · have hstage := h.monitor.1 hclosed
    simp [hsampler, Sampler.stage] at hstage

/-- The steps by which no goroutine gets further in leaving. -/
theorem stages_step (hstep : s.step a = some t) (ha : a.stays = true) : t.stages = s.stages := by
  cases a with
  | disconnect | takeDone | stopTicker | closeDone | closeMonitor | readError | closeConn
  | receiveClosed | sendClosed => cases ha
  | _ =>
    simp only [step] at hstep
    split at hstep <;> cases hstep <;>
      simp [stages, Sampler.stage, Reader.stage, Forwarder.stage, *]

/-- **Every step keeps the invariant.** -/
theorem Inv.step (h : s.Inv) (hstep : s.step a = some t) : t.Inv := by
  by_cases hstays : a.stays = true
  · exact h.congr (stages_step hstep hstays)
  have hsends := h.not_sendsClosed
  have hcloses := h.not_closesClosed
  obtain ⟨hquiet, hticker, hdone, hmonitor, hhanded, hgone, hlast⟩ := h
  cases a with
  | disconnect =>
    simp only [LiveState.step] at hstep
    split at hstep
    · cases hstep
      exact ⟨hquiet, hticker, hdone, hmonitor, hhanded, fun _ => rfl, hlast⟩
    · cases hstep
  | takeDone =>
    -- both sides of the channel go on at once
    simp only [LiveState.step] at hstep
    split at hstep
    · rename_i hreader hsampler hopen
      cases hstep
      constructor <;> simp_all [Sampler.stage, Reader.stage]
    · cases hstep
  | stopTicker =>
    simp only [LiveState.step] at hstep
    split at hstep
    · rename_i hsampler
      cases hstep
      constructor <;> simp_all [Sampler.stage]
    · cases hstep
  | closeDone =>
    simp only [LiveState.step] at hstep
    split at hstep
    · rename_i hsampler hopen
      cases hstep
      constructor <;> simp_all [Sampler.stage]
    · rename_i hsampler hclosed
      exact absurd (.inl ⟨hsampler, hclosed⟩) hcloses
    · cases hstep
  | closeMonitor =>
    simp only [LiveState.step] at hstep
    split at hstep
    · rename_i hsampler hopen
      cases hstep
      constructor <;> simp_all [Sampler.stage]
    · rename_i hsampler hclosed
      exact absurd (.inr ⟨hsampler, hclosed⟩) hcloses
    · cases hstep
  | readError =>
    simp only [LiveState.step] at hstep
    split at hstep
    · rename_i hreader hleft
      cases hstep
      constructor <;> simp_all [Reader.stage]
    · cases hstep
  | closeConn =>
    simp only [LiveState.step] at hstep
    split at hstep
    · rename_i hreader
      cases hstep
      constructor <;> simp_all [Reader.stage]
    · cases hstep
  | receiveClosed =>
    simp only [LiveState.step] at hstep
    split at hstep
    · rename_i hforwarder hclosed
      cases hstep
      constructor <;> simp_all [Forwarder.stage]
    · cases hstep
  | sendClosed =>
    simp only [LiveState.step] at hstep
    split at hstep
    · rename_i data hsampler hclosed
      exact absurd (.inl ⟨⟨data, hsampler⟩, hclosed⟩) hsends
    · rename_i hreader hclosed hnot
      exact absurd (.inr ⟨hreader, hclosed⟩) hsends
    · cases hstep
  | _ => exact absurd rfl hstays

/-! ## After the client has left -/

/-- A goroutine can take a step. -/
def CanGoOn (s : LiveState D) : Prop := ∃ a t, a.own = true ∧ s.step a = some t

/-- A forwarder that is not at its channel goes on. -/
theorem canGoOn_of_forwarder (hne : s.forwarder ≠ .receiving) (hlive : s.forwarder ≠ .terminated) :
    s.CanGoOn := by
  cases hforwarder : s.forwarder with
  | receiving => exact absurd hforwarder hne
  | forwarding data => exact ⟨.beginForward, _, rfl, by simp only [step, hforwarder]; rfl⟩
  | writing data => exact ⟨.endForward, _, rfl, by simp only [step, hforwarder]; rfl⟩
  | terminated => exact absurd hforwarder hlive

/-- The sampler comes to receive `done`. -/
theorem canGoOn_of_sendingDone (h : s.Inv) (hreader : s.reader = .sendingDone) : s.CanGoOn := by
  have hstage : s.sampler.stage = 0 := by
    have hhanded := h.handed
    simp only [hreader, Reader.stage] at hhanded
    omega
  have hmonitor : s.monitorClosed = false := by
    rw [Bool.eq_false_iff, Ne, h.monitor]
    omega
  have hdone : s.doneClosed = false := by
    rw [Bool.eq_false_iff, Ne, h.done]
    omega
  cases hsampler : s.sampler with
  | select => exact ⟨.takeDone, _, rfl, by simp only [step, hreader, hsampler, hdone]; rfl⟩
  | querying => exact ⟨.sampled none, _, rfl, by simp only [step, hsampler]; rfl⟩
  | sending data =>
    -- the forwarder takes the data, or has to finish with the last one first
    by_cases hforwarder : s.forwarder = .receiving
    · exact ⟨.handOver, _, rfl, by simp only [step, hsampler, hforwarder, hmonitor]; rfl⟩
    · refine canGoOn_of_forwarder hforwarder fun hended => ?_
      have hlast := h.last (by simp [hended, Forwarder.stage])
      omega
  | _ => simp [hsampler, Sampler.stage] at hstage

/-- The sampler closes the channels, and the forwarder ends with `monitor`. -/
theorem canGoOn_of_sentDone (h : s.Inv) (hreader : s.reader = .terminated)
    (hlive : ¬ s.Terminated) : s.CanGoOn := by
  have hstage : 1 ≤ s.sampler.stage := h.handed.2 (by simp [hreader, Reader.stage])
  cases hsampler : s.sampler with
  | stopping => exact ⟨.stopTicker, _, rfl, by simp only [step, hsampler]; rfl⟩
  | closingDone =>
    have hdone : s.doneClosed = false := by
      rw [Bool.eq_false_iff, Ne, h.done, hsampler]
      simp [Sampler.stage]
    exact ⟨.closeDone, _, rfl, by simp only [step, hsampler, hdone]; rfl⟩
  | closingMonitor =>
    have hmonitor : s.monitorClosed = false := by
      rw [Bool.eq_false_iff, Ne, h.monitor, hsampler]
      simp [Sampler.stage]
    exact ⟨.closeMonitor, _, rfl, by simp only [step, hsampler, hmonitor]; rfl⟩
  | terminated =>
    have hmonitor : s.monitorClosed = true := h.monitor.2 (by simp [hsampler, Sampler.stage])
    by_cases hforwarder : s.forwarder = .receiving
    · exact ⟨.receiveClosed, _, rfl, by simp only [step, hforwarder, hmonitor]; rfl⟩
    · exact canGoOn_of_forwarder hforwarder fun hended => hlive ⟨hsampler, hreader, hended⟩
  | _ => simp [hsampler, Sampler.stage] at hstage

/-- **Nothing is stuck after the client has left.** -/
theorem canGoOn_of_inv (h : s.Inv) (hgone : s.connected = false) (hlive : ¬ s.Terminated) :
    s.CanGoOn := by
  cases hreader : s.reader with
  | reading => exact ⟨.readError, _, rfl, by simp only [step, hreader, hgone]; rfl⟩
  | querying startTime stopTime =>
    exact ⟨.answered none, _, rfl, by simp only [step, hreader]; rfl⟩
  | answering data => exact ⟨.beginAnswer, _, rfl, by simp only [step, hreader]; rfl⟩
  | writing data => exact ⟨.endAnswer, _, rfl, by simp only [step, hreader]; rfl⟩
  | sendingDone => exact canGoOn_of_sendingDone h hreader
  | closing => exact ⟨.closeConn, _, rfl, by simp only [step, hreader]; rfl⟩
  | terminated => exact canGoOn_of_sentDone h hreader hlive

/-- What has terminated has left nothing open. -/
theorem closed_of_terminated (h : s.Inv) (hended : s.Terminated) :
    s.tickerStopped = true ∧ s.doneClosed = true ∧ s.monitorClosed = true := by
  have hstage : s.sampler.stage = 4 := by rw [hended.1]; rfl
  exact ⟨h.ticker.2 (by omega), h.done.2 (by omega), h.monitor.2 (by omega)⟩

/-- **The end of a live connection.**  In every run no goroutine sends on a closed channel or
closes one, some goroutine can go on after the client has left, until all three have
terminated, and then the ticker is stopped and both channels are closed. -/
theorem live_shutdown (steps : List (LiveStep D)) (t : LiveState D)
    (hrun : Run (StepOf step) {} steps t) :
    t.panicked = false ∧ ¬ t.SendsClosed ∧ ¬ t.ClosesClosed ∧
      (t.connected = false → ¬ t.Terminated → t.CanGoOn) ∧
      (t.Terminated → t.tickerStopped = true ∧ t.doneClosed = true ∧ t.monitorClosed = true) := by
  have hinv : t.Inv := hrun.invariant inv_start fun _ _ _ hs hstep => hs.step hstep
  exact ⟨hinv.quiet, hinv.not_sendsClosed, hinv.not_closesClosed, canGoOn_of_inv hinv,
    closed_of_terminated hinv⟩

/-- The client leaves while the sampler has a query. -/
def leaveDuringQuery : List (LiveStep ℕ) :=
  [.tick, .takeTick, .disconnect, .readError, .sampled (some 5), .handOver, .takeDone, .stopTicker,
    .beginForward, .closeDone, .closeConn, .closeMonitor, .endForward, .receiveClosed]

/-- Where that ends. -/
def leftState : LiveState ℕ where
  sampler := .terminated
  reader := .terminated
  forwarder := .terminated
  tickerStopped := true
  doneClosed := true
  monitorClosed := true
  connected := false

theorem live_shutdown_leaveDuringQuery :
    leftState.panicked = false ∧ ¬ leftState.SendsClosed ∧ ¬ leftState.ClosesClosed ∧
      (leftState.connected = false → ¬ leftState.Terminated → leftState.CanGoOn) ∧
      (leftState.Terminated → leftState.tickerStopped = true ∧ leftState.doneClosed = true ∧
        leftState.monitorClosed = true) :=
  live_shutdown leaveDuringQuery leftState (run_exec_iff.2 rfl)

end LiveState

end JobMon
