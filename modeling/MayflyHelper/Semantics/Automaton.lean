import MayflyHelper.Semantics.History

/-! Programs that follow an automaton. The automaton reads the calls with their
replies; a program follows it if, whatever the replies, every call it makes is
one that the automaton takes from the phase it is in. -/
namespace OracleProgram

variable {Call : Type} {Reply : Call → Type} {State Result Next Failure Phase : Type}

/-- The automaton has read these calls, latest first, and is in a phase now. -/
inductive Trace (moves : Phase → Replied Call Reply → Phase → Prop) (first : Phase) :
    History Call Reply → Phase → Prop where
  | start : Trace moves first [] first
  | step {past : History Call Reply} {phase after : Phase} {event : Replied Call Reply}
      (prior : Trace moves first past phase) (last : moves phase event after) :
      Trace moves first (event :: past) after

/-- What every move keeps holds in every phase that is reached. -/
theorem Trace.invariant {moves : Phase → Replied Call Reply → Phase → Prop} {first last : Phase}
    {past : History Call Reply} (h : Trace moves first past last)
    (inv : History Call Reply → Phase → Prop)
    (hFirst : inv [] first)
    (hStep : ∀ past phase event after, inv past phase → moves phase event after →
      inv (event :: past) after) :
    inv past last := by
  induction h with
  | start => exact hFirst
  | step prior move ih => exact hStep _ _ _ _ ih move

/-- Every call on the way is permitted, if the phases know enough of what came
before them. -/
theorem Trace.lawful {moves : Phase → Replied Call Reply → Phase → Prop} {first last : Phase}
    {past : History Call Reply} (h : Trace moves first past last)
    {permits : History Call Reply → Call → Prop}
    (inv : History Call Reply → Phase → Prop) (hFirst : inv [] first)
    (hStep : ∀ past phase event after, inv past phase → moves phase event after →
      inv (event :: past) after)
    (hPermits : ∀ past phase event after, inv past phase → moves phase event after →
      permits past event.call) :
    Lawful permits past := by
  induction h with
  | start => trivial
  | step prior move ih => exact ⟨hPermits _ _ _ _ (prior.invariant inv hFirst hStep) move, ih⟩

namespace Program

/-- Whatever the replies, the automaton takes every call, and in the end `Q`
holds of the result and the phase. -/
def Follows (moves : Phase → Replied Call Reply → Phase → Prop) :
    Program Call Reply Result → Phase → (Result → Phase → Prop) → Prop
  | .done result, phase, Q => Q result phase
  | .query c next, phase, Q =>
      ∀ reply, ∃ after, moves phase ⟨c, reply⟩ after ∧ (next reply).Follows moves after Q

variable {moves : Phase → Replied Call Reply → Phase → Prop} {p : Program Call Reply Result}
  {phase : Phase}
  {Q : Result → Phase → Prop}

/-- A program that follows the automaton does so in every world. -/
theorem Follows.sound {first : Phase} {past : History Call Reply} (h : p.Follows moves phase Q)
    (hPast : Trace moves first past phase) (oracle : Oracle Call Reply State) (state : State) :
    ∃ last, Trace moves first (p.history oracle state past) last ∧
      Q (p.run oracle state).1 last := by
  induction p generalizing past phase state with
  | done result => exact ⟨phase, hPast, h⟩
  | query c next ih =>
      obtain ⟨after, hMove, hNext⟩ := h (oracle c state).1
      exact ih _ hNext (.step hPast hMove) _

theorem Follows.pure {result : Result} (h : Q result phase) :
    (Pure.pure result : Program Call Reply Result).Follows moves phase Q := h

theorem Follows.bind {continuation : Result → Program Call Reply Next} {R : Next → Phase → Prop}
    (h : p.Follows moves phase Q)
    (hNext : ∀ result last, Q result last → (continuation result).Follows moves last R) :
    (p >>= continuation).Follows moves phase R := by
  change (p.bind continuation).Follows moves phase R
  induction p generalizing phase with
  | done result => exact hNext result phase h
  | query c next ih =>
      intro reply
      obtain ⟨after, hMove, hRest⟩ := h reply
      exact ⟨after, hMove, ih reply hRest⟩

end Program

namespace Fallible

variable {moves : Phase → Replied Call Reply → Phase → Prop}
  {p : Fallible Call Reply Failure Result}
  {continuation : Result → Fallible Call Reply Failure Next} {phase : Phase}

theorem follows_bind {Q : Except Failure Result → Phase → Prop}
    {Q' : Except Failure Next → Phase → Prop}
    (h : Program.Follows moves p.run phase Q)
    (hOk : ∀ result last, Q (.ok result) last →
      Program.Follows moves (continuation result).run last Q')
    (hError : ∀ failure last, Q (.error failure) last → Q' (.error failure) last) :
    Program.Follows moves (p >>= continuation).run phase Q' := by
  rw [ExceptT.run_bind]
  refine h.bind ?_
  intro outcome last hOutcome
  cases outcome with
  | ok result => exact hOk result last hOutcome
  | error failure => exact .pure (hError failure last hOutcome)

theorem follows_lift {p : Program Call Reply Result} {Q : Result → Phase → Prop}
    (h : p.Follows moves phase Q) :
    Program.Follows moves (ExceptT.lift p : Fallible Call Reply Failure Result).run phase
      (Either Q (fun _ => False)) :=
  h.bind fun _ _ hQ => hQ

end Fallible

end OracleProgram
