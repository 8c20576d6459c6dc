import JobMon.Auth.Server
import JobMon.Lib.ClientView

/-!
# Pages as clients of the server

A component of the frontend asks the server and shows what it makes of the answers, while the
server takes steps for everybody else.

* `Reached`, `Serves` — the states the server leads to; a client whose requests are steps of it.
* `OthersRun` — what happens to the server besides.
* `keeps_of_run` — what every answer of a state the server reaches keeps holds of the view, in
  every run of the page and the server.
-/

namespace JobMon

namespace WebServer

open Runs ClientView

variable {ν ο : Type}

/-- The server gets from one state to the other. -/
def Reached (auth : Authentication) (st₀ st : WebServer) : Prop :=
  ∃ evs, Run (StepOf (WebServer.step auth)) st₀ evs st

/-- Whatever else happens to the server is a run of it, and the page shows what it has been
answered. -/
def OthersRun (auth : Authentication) (s : ClientView.State WebServer ν ο Answer) :
    ClientView.Event WebServer ν ο → Prop
  | .other server => Reached auth s.server server
  | .display _ => False
  | _ => True

/-- The requests of the client are handled by the server. -/
def Serves (auth : Authentication) (c : Client WebServer ν ο Answer) : Prop :=
  ∀ st o, Reached auth st (c.serve st o).2

variable {auth : Authentication} {c : Client WebServer ν ο Answer} {st₀ st st' : WebServer}
  {s s' : ClientView.State WebServer ν ο Answer} {ev : ClientView.Event WebServer ν ο}

theorem Reached.refl (auth : Authentication) (st : WebServer) : Reached auth st st := ⟨[], .nil⟩

theorem Reached.trans (h : Reached auth st₀ st) (h' : Reached auth st st') :
    Reached auth st₀ st' := by
  obtain ⟨evs, hevs⟩ := h
  obtain ⟨more, hmore⟩ := h'
  exact ⟨evs ++ more, hevs.append hmore⟩

/-- A request that does not end the process is a step. -/
theorem reached_answer (out : Surroundings) (st : WebServer) (authorization : Option String)
    (req : Request) (halive : (st.answer auth out authorization req).1 ≠ .response .crash) :
    Reached auth st (st.answer auth out authorization req).2 :=
  ⟨[.request out authorization req], Run.nil.snoc (step_of_answer out st authorization req halive)⟩

theorem othersKeep_of_othersRun (h : Reached auth st₀ s.server) (hothers : OthersRun auth s ev) :
    OthersKeep (Reached auth st₀) s ev := by
  cases ev with
  | other server => exact h.trans hothers
  | display view => exact hothers
  | _ => trivial

theorem reached_step (hserves : Serves auth c) (h : Reached auth st₀ s.server)
    (hothers : OthersRun auth s ev) (hstep : ClientView.step c s ev = some s') :
    Reached auth st₀ s'.server := by
  cases ev with
  | ask request =>
    cases hstep
    exact h
  | serve i =>
    obtain ⟨asked, -, rfl⟩ := step_serve hstep
    exact h.trans (hserves _ _)
  | receive i =>
    obtain ⟨answered, -, rfl⟩ := step_receive hstep
    exact h
  | drop i =>
    obtain ⟨-, -, rfl⟩ := Option.map_eq_some_iff.1 hstep
    exact h
  | lose i =>
    obtain ⟨-, -, rfl⟩ := Option.map_eq_some_iff.1 hstep
    exact h
  | other server =>
    cases hstep
    exact h.trans hothers
  | display view => exact absurd hothers id

/-- **What is shown in every run.** -/
theorem keeps_of_run {P : ν → Prop} {v₀ : ν} {events : List (ClientView.Event WebServer ν ο)}
    (hserves : Serves auth c) (hask : ∀ v o, P v → P (c.ask v o))
    (hreceive : ∀ st v v' o, Reached auth st₀ st → P v → P v' →
      P (c.receive v v' o (c.serve st o).1))
    (h₀ : P v₀)
    (hrun : Run (Guarded (OthersRun auth) (StepOf (ClientView.step c)))
      { server := st₀, view := v₀ } events s) : Kept c (Reached auth st₀) P s := by
  have hreached : Run (Guarded (OthersKeep (Reached auth st₀)) (StepOf (ClientView.step c)))
      { server := st₀, view := v₀ } events s := by
    refine hrun.guard_congr (I := fun s => Reached auth st₀ s.server) (Reached.refl auth st₀) ?_ ?_
    · exact fun s ev s' h hstep => reached_step hserves h hstep.1 hstep.2
    · exact fun s ev s' h hstep => othersKeep_of_othersRun h hstep.1
  exact view_of_run (fun st o h => h.trans (hserves st o)) hask hreceive (Reached.refl auth st₀) h₀
    hreached

end WebServer

end JobMon
