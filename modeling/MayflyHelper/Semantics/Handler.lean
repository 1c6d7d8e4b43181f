import MayflyHelper.Semantics.Program

/-! Programs run on top of other programs. A handler answers every call of an
interface by a program over a lower one; a program is deployed by answering
all its calls in this way. -/
namespace OracleProgram

variable {Call Lower : Type} {Reply : Call → Type} {LowerReply : Lower → Type}
  {State System Result Failure : Type}

namespace Program

/-- Answer every call by the handler. -/
def interpret {M : Type → Type} [Monad M] (handler : (c : Call) → M (Reply c)) :
    Program Call Reply Result → M Result
  | .done result => pure result
  | .query c next => handler c >>= fun reply => (next reply).interpret handler

/-- A handler over a world is a world itself. -/
theorem run_interpret (handler : (c : Call) → Program Lower LowerReply (Reply c))
    (system : Oracle Lower LowerReply System) (p : Program Call Reply Result) (state : System) :
    (p.interpret handler).run system state = p.run (fun c s => (handler c).run system s) state := by
  induction p generalizing state with
  | done result => rfl
  | query c next ih =>
      rw [interpret, run_bind, ih]
      rfl

theorem within_true (p : Program Call Reply Result) : p.Within (fun _ => True) := by
  induction p with
  | done result => trivial
  | query c next ih => exact ⟨trivial, ih⟩

/-- Two worlds that agree on the calls a program makes run it alike. -/
theorem Within.run_embeds {allowed : Call → Prop} {p : Program Call Reply Result}
    (h : p.Within allowed)
    (oracle : Oracle Call Reply State) {system : Oracle Call Reply System} (embed : State → System)
    (hStep : ∀ c, allowed c → ∀ state,
      system c (embed state) = ((oracle c state).1, embed (oracle c state).2))
    (state : State) :
    p.run system (embed state) = ((p.run oracle state).1, embed (p.run oracle state).2) := by
  induction p generalizing state with
  | done result => rfl
  | query c next ih =>
      rw [run, hStep c h.1]
      exact ih _ (h.2 _) _

end Program

namespace Fallible

/-- A handler that answers the calls of a program as a world does, without
failing, runs it as that world does. -/
theorem within_interpret {allowed : Call → Prop} {p : Program Call Reply Result}
    (h : p.Within allowed)
    (oracle : Oracle Call Reply State) {system : Oracle Lower LowerReply System}
    (handler : (c : Call) → Fallible Lower LowerReply Failure (Reply c)) (embed : State → System)
    (hStep : ∀ c, allowed c → ∀ state, Program.run system (handler c).run (embed state) =
      (.ok (oracle c state).1, embed (oracle c state).2)) (state : State) :
    Program.run system (p.interpret handler).run (embed state) =
      (.ok (p.run oracle state).1, embed (p.run oracle state).2) := by
  induction p generalizing state with
  | done result => rfl
  | query c next ih =>
      rw [Program.interpret, run_bind_ok (hStep c h.1 state)]
      exact ih _ (h.2 _) _

/-- Programs in sequence are run in sequence. -/
theorem run_interpret_bind_ok {Next : Type} {system : Oracle Lower LowerReply System}
    (handler : (c : Call) → Fallible Lower LowerReply Failure (Reply c))
    {p : Program Call Reply Result}
    {continuation : Result → Program Call Reply Next} {low low' : System} {result : Result}
    (h : Program.run system (p.interpret handler).run low = (.ok result, low')) :
    Program.run system ((p >>= continuation).interpret handler).run low =
      Program.run system ((continuation result).interpret handler).run low' := by
  induction p generalizing low with
  | done done =>
      cases h
      rfl
  | query c next ih =>
      rw [Program.interpret, run_bind_eq_ok_iff] at h
      obtain ⟨reply, middle, hReply, hNext⟩ := h
      exact (run_bind_ok hReply).trans (ih reply hNext)

/-- The handlers need fuel. If with enough of it every call is answered as the
upper world answers it, then with enough of it every program runs as in the
upper world, and does not fail. -/
theorem interpret_simulates {oracle : Oracle Call Reply State}
    {system : Oracle Lower LowerReply System}
    (handler : Nat → (c : Call) → Fallible Lower LowerReply Failure (Reply c))
    (related : System → State → Prop)
    (hCall : ∀ c low high, related low high → ∃ enough low', related low' (oracle c high).2 ∧
      ∀ fuel, enough ≤ fuel →
        Program.run system (handler fuel c).run low = (.ok (oracle c high).1, low'))
    (p : Program Call Reply Result) {low : System} {high : State} (h : related low high) :
    ∃ enough low', related low' (p.run oracle high).2 ∧ ∀ fuel, enough ≤ fuel →
      Program.run system (p.interpret (handler fuel)).run low =
        (.ok (p.run oracle high).1, low') := by
  induction p generalizing low high with
  | done result => exact ⟨0, low, h, fun _ _ => rfl⟩
  | query c next ih =>
      obtain ⟨first, middle, hMiddle, hFirst⟩ := hCall c low high h
      obtain ⟨rest, last, hLast, hRest⟩ := ih (oracle c high).1 hMiddle
      refine ⟨max first rest, last, hLast, fun fuel hFuel => ?_⟩
      rw [Program.interpret, run_bind_ok (hFirst fuel (Nat.le_trans (Nat.le_max_left _ _) hFuel))]
      exact hRest fuel (Nat.le_trans (Nat.le_max_right _ _) hFuel)

end Fallible

end OracleProgram
