import JobMon.Lib.Runs

/-!
# A client of a service, and what it shows

A client asks a service and goes on; the service handles the requests when it comes to them, and
the responses arrive later, in any order or not at all.  What the client makes of a response
may depend on what it showed when it asked.  Others use the service as well.

* `Client`, `State`, `step` — the two, the requests that wait and the responses underway.
* `view_of_run` — what is kept by asking and by every response holds of the view in every run.
* `Follows`, `shows_of_run` — **a client that waits for its responses shows what the service
  has**, when it does so after one request and whatever else is put into the view does so too.
* `current_of_run` — where requests and responses keep their order, a client at rest shows the
  response to its last request.
-/

namespace ClientView

open Runs

/-! ## The two -/

/-- A client and the service it asks. -/
structure Client (σ ν ο ρ : Type) where
  /-- What the service answers, and what becomes of it. -/
  serve : σ → ο → ρ × σ
  /-- What the client shows once it has asked. -/
  ask : ν → ο → ν
  /-- What the client shows after a response, given what it showed when it asked and what it
  shows now. -/
  receive : ν → ν → ο → ρ → ν

variable {σ ν ο ρ : Type}

/-- A request, and what the client showed when it made it. -/
structure Asked (ν ο : Type) where
  view : ν
  request : ο

/-- The same with its response. -/
structure Answered (ν ο ρ : Type) extends Asked ν ο where
  response : ρ

structure State (σ ν ο ρ : Type) where
  server : σ
  view : ν
  /-- The requests that have not been handled, the oldest first. -/
  waiting : List (Asked ν ο) := []
  /-- The responses that have not arrived, the oldest first. -/
  underway : List (Answered ν ο ρ) := []

/-- Nothing is waited for. -/
structure State.Idle (st : State σ ν ο ρ) : Prop where
  waiting : st.waiting = []
  underway : st.underway = []

/-- What happens next. -/
inductive Event (σ ν ο : Type)
  | ask (request : ο)
  | serve (i : ℕ)
  | receive (i : ℕ)
  /-- A request that does not reach the service. -/
  | drop (i : ℕ)
  /-- A response that does not reach the client. -/
  | lose (i : ℕ)
  /-- Somebody else has changed the state of the service. -/
  | other (server : σ)
  /-- The client shows something else, without an answer to a request. -/
  | display (view : ν)

variable (c : Client σ ν ο ρ)

/-- One event. -/
def step (st : State σ ν ο ρ) : Event σ ν ο → Option (State σ ν ο ρ)
  | .ask request =>
    some { st with
      view := c.ask st.view request
      waiting := st.waiting ++ [{ view := st.view, request }] }
  | .serve i => st.waiting[i]?.map fun asked =>
      { st with
        server := (c.serve st.server asked.request).2
        waiting := st.waiting.eraseIdx i
        underway := st.underway ++
          [{ asked with response := (c.serve st.server asked.request).1 }] }
  | .receive i => st.underway[i]?.map fun answered =>
      { st with
        view := c.receive answered.view st.view answered.request answered.response
        underway := st.underway.eraseIdx i }
  | .drop i => st.waiting[i]?.map fun _ => { st with waiting := st.waiting.eraseIdx i }
  | .lose i => st.underway[i]?.map fun _ => { st with underway := st.underway.eraseIdx i }
  | .other server => some { st with server }
  | .display view => some { st with view }

variable {c} {st st' : State σ ν ο ρ} {ev : Event σ ν ο}

theorem step_serve {i : ℕ} (h : step c st (.serve i) = some st') :
    ∃ asked, st.waiting[i]? = some asked ∧ st' =
      { st with
        server := (c.serve st.server asked.request).2
        waiting := st.waiting.eraseIdx i
        underway := st.underway ++
          [{ asked with response := (c.serve st.server asked.request).1 }] } := by
  obtain ⟨asked, hasked, heq⟩ := Option.map_eq_some_iff.1 h
  exact ⟨asked, hasked, heq.symm⟩

theorem step_receive {i : ℕ} (h : step c st (.receive i) = some st') :
    ∃ answered, st.underway[i]? = some answered ∧ st' =
      { st with
        view := c.receive answered.view st.view answered.request answered.response
        underway := st.underway.eraseIdx i } := by
  obtain ⟨answered, hanswered, heq⟩ := Option.map_eq_some_iff.1 h
  exact ⟨answered, hanswered, heq.symm⟩

/-! ## What holds of every view -/

section View

variable (c) (S : σ → Prop) (P : ν → Prop)

/-- The service meets `S`; `P` holds of what is shown and of what was shown at any request that
is not over, whose response is one the service has given. -/
structure Kept (st : State σ ν ο ρ) : Prop where
  server : S st.server
  view : P st.view
  waiting : ∀ asked ∈ st.waiting, P asked.view
  underway : ∀ answered ∈ st.underway, P answered.view ∧
    ∃ s, S s ∧ answered.response = (c.serve s answered.request).1

/-- Others keep what the service meets, and nothing but responses is shown. -/
def OthersKeep (_st : State σ ν ο ρ) : Event σ ν ο → Prop
  | .other server => S server
  | .display _ => False
  | _ => True

variable {c S P}

theorem Kept.step (h : Kept c S P st) (hserve : ∀ s o, S s → S (c.serve s o).2)
    (hask : ∀ v o, P v → P (c.ask v o))
    (hreceive : ∀ s v v' o, S s → P v → P v' → P (c.receive v v' o (c.serve s o).1))
    (hothers : OthersKeep S st ev) (hstep : step c st ev = some st') : Kept c S P st' := by
  cases ev with
  | ask request =>
    cases hstep
    refine ⟨h.server, hask _ _ h.view, fun asked hasked => ?_, h.underway⟩
    rcases List.mem_append.1 hasked with hasked | hasked
    · exact h.waiting asked hasked
    · rw [List.mem_singleton.1 hasked]
      exact h.view
  | serve i =>
    obtain ⟨asked, hasked, rfl⟩ := step_serve hstep
    have hmem := List.mem_of_getElem? hasked
    refine ⟨hserve _ _ h.server, h.view, fun a ha => h.waiting a (List.mem_of_mem_eraseIdx ha),
      fun answered hanswered => ?_⟩
    rcases List.mem_append.1 hanswered with hanswered | hanswered
    · exact h.underway answered hanswered
    · rw [List.mem_singleton.1 hanswered]
      exact ⟨h.waiting asked hmem, st.server, h.server, rfl⟩
  | receive i =>
    obtain ⟨answered, hanswered, rfl⟩ := step_receive hstep
    obtain ⟨hview, s, hs, hresponse⟩ := h.underway answered (List.mem_of_getElem? hanswered)
    refine ⟨h.server, ?_, h.waiting, fun a ha => h.underway a (List.mem_of_mem_eraseIdx ha)⟩
    dsimp only
    rw [hresponse]
    exact hreceive s _ _ _ hs hview h.view
  | drop i =>
    obtain ⟨-, -, rfl⟩ := Option.map_eq_some_iff.1 hstep
    exact ⟨h.server, h.view, fun a ha => h.waiting a (List.mem_of_mem_eraseIdx ha), h.underway⟩
  | lose i =>
    obtain ⟨-, -, rfl⟩ := Option.map_eq_some_iff.1 hstep
    exact ⟨h.server, h.view, h.waiting, fun a ha => h.underway a (List.mem_of_mem_eraseIdx ha)⟩
  | other server =>
    cases hstep
    exact ⟨hothers, h.view, h.waiting, h.underway⟩
  | display view => exact absurd hothers id

/-- **What is kept by asking and by every response holds of every view.** -/
theorem view_of_run {s₀ : σ} {v₀ : ν} {events : List (Event σ ν ο)}
    (hserve : ∀ s o, S s → S (c.serve s o).2) (hask : ∀ v o, P v → P (c.ask v o))
    (hreceive : ∀ s v v' o, S s → P v → P v' → P (c.receive v v' o (c.serve s o).1))
    (hs₀ : S s₀) (hv₀ : P v₀)
    (hrun : Run (Guarded (OthersKeep S) (StepOf (step c))) { server := s₀, view := v₀ } events st) :
    Kept c S P st := by
  refine hrun.invariant ?_ fun _ _ _ h hstep => h.step hserve hask hreceive hstep.1 hstep.2
  exact ⟨hs₀, hv₀, fun _ h => absurd h List.not_mem_nil, fun _ h => absurd h List.not_mem_nil⟩

end View

/-! ## One request at a time -/

section Shows

variable (c) (Shows : σ → ν → Prop)

/-- A client that shows what the service has does so again after a request, whatever of this kind
it shows in between. -/
structure Follows : Prop where
  ask : ∀ s v o, Shows s v → Shows s (c.ask v o)
  serve : ∀ s v view o, Shows s v → Shows s view →
    Shows (c.serve s o).2 (c.receive v view o (c.serve s o).1)
  replace : ∀ s v view view' o r, Shows s (c.receive v view o r) → Shows s view' →
    Shows s (c.receive v view' o r)

/-- The client waits for its response before it asks again, nothing gets lost, others change
nothing that it shows, and what else it shows is what the service has. -/
def Sequential (st : State σ ν ο ρ) : Event σ ν ο → Prop
  | .ask _ => st.Idle
  | .serve _ => True
  | .receive _ => True
  | .drop _ => False
  | .lose _ => False
  | .other server => ∀ v, Shows st.server v → Shows server v
  | .display view => Shows st.server view

/-- **The invariant**: the client shows what the service has, or will once its one request is
over. -/
inductive Settled : State σ ν ο ρ → Prop
  | idle {s : σ} {v : ν} (h : Shows s v) : Settled { server := s, view := v }
  | waiting {s : σ} {v view : ν} (o : ο) (h : Shows s v) (hview : Shows s view) :
      Settled { server := s, view, waiting := [{ view := v, request := o }] }
  | underway {s : σ} {v view : ν} (o : ο) (r : ρ) (h : Shows s (c.receive v view o r)) :
      Settled { server := s, view, underway := [{ view := v, request := o, response := r }] }

variable {c Shows}

theorem Settled.step (h : Settled c Shows st) (hfollow : Follows c Shows)
    (hseq : Sequential Shows st ev) (hstep : step c st ev = some st') :
    Settled c Shows st' := by
  cases ev with
  | ask request =>
    cases hstep
    cases h with
    | idle h => exact .waiting request h (hfollow.ask _ _ request h)
    | waiting o h hview => cases hseq.waiting
    | underway o r h => cases hseq.underway
  | serve i =>
    obtain ⟨asked, hasked, rfl⟩ := step_serve hstep
    cases h with
    | idle h => cases hasked
    | @waiting s v view o h hview =>
      cases i with
      | zero =>
        cases hasked
        exact .underway o _ (hfollow.serve s v view o h hview)
      | succ i => cases hasked
    | underway o r h => cases hasked
  | receive i =>
    obtain ⟨answered, hanswered, rfl⟩ := step_receive hstep
    cases h with
    | idle h => cases hanswered
    | waiting o h hview => cases hanswered
    | underway o r h =>
      cases i with
      | zero =>
        cases hanswered
        exact .idle h
      | succ i => cases hanswered
  | drop i => exact absurd hseq id
  | lose i => exact absurd hseq id
  | other server =>
    cases hstep
    cases h with
    | idle h => exact .idle (hseq _ h)
    | waiting o h hview => exact .waiting o (hseq _ h) (hseq _ hview)
    | underway o r h => exact .underway o r (hseq _ h)
  | display view =>
    cases hstep
    cases h with
    | idle h => exact .idle hseq
    | waiting o h hview => exact .waiting o h hseq
    | underway o r h => exact .underway o r (hfollow.replace _ _ _ _ o r h hseq)

/-- **A client that waits shows what the service has.** -/
theorem shows_of_run {s₀ : σ} {v₀ : ν} {events : List (Event σ ν ο)} (hfollow : Follows c Shows)
    (h₀ : Shows s₀ v₀)
    (hrun : Run (Guarded (Sequential Shows) (StepOf (step c))) { server := s₀, view := v₀ } events
      st) (hidle : st.Idle) : Shows st.server st.view := by
  have hsettled : Settled c Shows st :=
    hrun.invariant (.idle h₀) fun _ _ _ h hstep => h.step hfollow hstep.1 hstep.2
  cases hsettled with
  | idle h => exact h
  | waiting o h hview => cases hidle.waiting
  | underway o r h => cases hidle.underway

end Shows

/-! ## Requests and responses in order -/

section Order

/-- Requests and responses keep their order, nothing gets lost, and nothing but responses is
shown. -/
def InOrder (_st : State σ ν ο ρ) : Event σ ν ο → Prop
  | .serve i => i = 0
  | .receive i => i = 0
  | .drop _ => False
  | .lose _ => False
  | .display _ => False
  | _ => True

/-- The requests that are not over, the oldest first. -/
def State.pending (st : State σ ν ο ρ) : List ο :=
  st.underway.map (fun answered => answered.request) ++ st.waiting.map Asked.request

variable (c) (Last : ν → ο → Prop) (Current : ν → Prop)

/-- The last request that is not over is the last of the view; when there is none, the view is
current. -/
structure Ordered (st : State σ ν ο ρ) : Prop where
  last : ∀ o, st.pending.getLast? = some o → Last st.view o
  current : st.pending = [] → Current st.view
  served : ∀ answered ∈ st.underway, ∃ s, answered.response = (c.serve s answered.request).1

variable {c Last Current}

theorem Ordered.step (h : Ordered c Last Current st) (hask : ∀ v o, Last (c.ask v o) o)
    (hkeep : ∀ v v' o r o', Last v' o' → Last (c.receive v v' o r) o')
    (hcurrent : ∀ s v v' o, Last v' o → Current (c.receive v v' o (c.serve s o).1))
    (horder : InOrder st ev) (hstep : step c st ev = some st') : Ordered c Last Current st' := by
  cases ev with
  | ask request =>
    cases hstep
    constructor
    · intro o ho
      simp only [State.pending, List.map_append, List.map_cons, List.map_nil, ← List.append_assoc,
        List.getLast?_concat, Option.some.injEq] at ho
      exact ho ▸ hask st.view request
    · intro hnone
      simp [State.pending] at hnone
    · exact h.served
  | serve i =>
    obtain rfl : i = 0 := horder
    obtain ⟨asked, hasked, rfl⟩ := step_serve hstep
    obtain ⟨rest, hwaiting⟩ : ∃ rest, st.waiting = asked :: rest :=
      List.head?_eq_some_iff.1 (List.head?_eq_getElem?.trans hasked)
    have hsame : st.pending = st.underway.map (fun answered => answered.request) ++
        asked.request :: rest.map Asked.request := by
      rw [State.pending, hwaiting, List.map_cons]
    constructor
    · intro o ho
      refine h.last o ?_
      rw [hsame]
      simpa [State.pending, hwaiting] using ho
    · intro hnone
      simp [State.pending] at hnone
    · intro answered hanswered
      rcases List.mem_append.1 hanswered with hanswered | hanswered
      · exact h.served answered hanswered
      · rw [List.mem_singleton.1 hanswered]
        exact ⟨st.server, rfl⟩
  | receive i =>
    obtain rfl : i = 0 := horder
    obtain ⟨answered, hanswered, rfl⟩ := step_receive hstep
    obtain ⟨rest, hunderway⟩ : ∃ rest, st.underway = answered :: rest :=
      List.head?_eq_some_iff.1 (List.head?_eq_getElem?.trans hanswered)
    have hpending : st.pending = answered.request ::
        (rest.map (fun answered => answered.request) ++ st.waiting.map Asked.request) := by
      rw [State.pending, hunderway, List.map_cons, List.cons_append]
    constructor
    · intro o ho
      simp only [State.pending, hunderway, List.eraseIdx_cons_zero] at ho
      refine hkeep _ _ _ _ _ (h.last o ?_)
      rw [hpending, List.getLast?_cons, ho]
      rfl
    · intro hnone
      simp only [State.pending, hunderway, List.eraseIdx_cons_zero] at hnone
      obtain ⟨s, hresponse⟩ := h.served answered (List.mem_of_getElem? hanswered)
      dsimp only
      rw [hresponse]
      refine hcurrent _ _ _ _ (h.last answered.request ?_)
      rw [hpending, hnone]
      rfl
    · exact fun a ha => h.served a (List.mem_of_mem_eraseIdx ha)
  | drop i => exact absurd horder id
  | lose i => exact absurd horder id
  | other server =>
    cases hstep
    exact ⟨h.last, h.current, h.served⟩
  | display view => exact absurd horder id

/-- **At rest the view is current**, when requests and responses keep their order. -/
theorem current_of_run {s₀ : σ} {v₀ : ν} {events : List (Event σ ν ο)}
    (hask : ∀ v o, Last (c.ask v o) o)
    (hkeep : ∀ v v' o r o', Last v' o' → Last (c.receive v v' o r) o')
    (hcurrent : ∀ s v v' o, Last v' o → Current (c.receive v v' o (c.serve s o).1))
    (h₀ : Current v₀)
    (hrun : Run (Guarded InOrder (StepOf (step c))) { server := s₀, view := v₀ } events st)
    (hidle : st.Idle) : Current st.view := by
  have hordered : Ordered c Last Current st := by
    refine hrun.invariant ?_ fun _ _ _ h hstep => h.step hask hkeep hcurrent hstep.1 hstep.2
    constructor
    · intro o ho
      simp [State.pending] at ho
    · exact fun _ => h₀
    · exact fun _ h => absurd h List.not_mem_nil
  refine hordered.current ?_
  rw [State.pending, hidle.underway, hidle.waiting]
  rfl

end Order

end ClientView
