import MayflyHelper.Semantics.Throughout

/-! What a program may call after what it was told. A policy looks at the calls
made so far and at their replies, and a program complies with it if it makes
only calls the policy permits, whatever the replies are. Nothing is assumed of
the world: between two calls it may change in any way. -/
namespace OracleProgram

variable {Call : Type} {Reply : Call → Type} {State Result Next Failure : Type}

/-- A call with the reply it got. -/
structure Replied (Call : Type) (Reply : Call → Type) where
  call : Call
  reply : Reply call

/-- The calls made so far, latest first. -/
abbrev History (Call : Type) (Reply : Call → Type) : Type := List (Replied Call Reply)

/-- Every call was permitted when it was made. -/
def Lawful (permits : History Call Reply → Call → Prop) : History Call Reply → Prop
  | [] => True
  | event :: past => permits past event.call ∧ Lawful permits past

namespace Program

/-- The calls of a run on top of those made before it. -/
def history (oracle : Oracle Call Reply State) :
    Program Call Reply Result → State → History Call Reply → History Call Reply
  | .done _, _, past => past
  | .query c next, state, past =>
      (next (oracle c state).1).history oracle (oracle c state).2 (⟨c, (oracle c state).1⟩ :: past)

/-- Whatever the replies, only permitted calls are made, and in the end `Q`
holds of the result and all calls. -/
def Complies (permits : History Call Reply → Call → Prop) :
    Program Call Reply Result → History Call Reply → (Result → History Call Reply → Prop) → Prop
  | .done result, past, Q => Q result past
  | .query c next, past, Q =>
      permits past c ∧ ∀ reply, (next reply).Complies permits (⟨c, reply⟩ :: past) Q

variable {permits : History Call Reply → Call → Prop} {p : Program Call Reply Result}
  {past : History Call Reply} {Q Q' : Result → History Call Reply → Prop}

/-- A program that complies does so in every world. -/
theorem Complies.sound (h : p.Complies permits past Q) (hPast : Lawful permits past)
    (oracle : Oracle Call Reply State) (state : State) :
    Lawful permits (p.history oracle state past) ∧
      Q (p.run oracle state).1 (p.history oracle state past) := by
  induction p generalizing past state with
  | done result => exact ⟨hPast, h⟩
  | query c next ih => exact ih _ (h.2 _) ⟨h.1, hPast⟩ _

/-- What the calls tell of the state, kept up by every permitted call, holds
at every moment of the run. -/
theorem Complies.yields (h : p.Complies permits past Q) (hPast : Lawful permits past)
    {oracle : Oracle Call Reply State} {during : Call → State → Set State} {P : State → Prop}
    {Tells : History Call Reply → State → Prop} (hTells : ∀ past state, Tells past state → P state)
    (hStep : ∀ past c state, Lawful permits past → permits past c → Tells past state →
      (∀ middle ∈ during c state, P middle) ∧
        Tells (⟨c, (oracle c state).1⟩ :: past) (oracle c state).2)
    {state : State} (hStart : Tells past state) :
    p.Yields oracle during P state fun _ last => ∃ past, Tells past last := by
  induction p generalizing past state with
  | done result => exact .pure (hTells past state hStart) ⟨past, hStart⟩
  | query c next ih =>
      obtain ⟨hMiddle, hNext⟩ := hStep past c state hPast h.1 hStart
      obtain ⟨hThroughout, hLast⟩ := ih _ (h.2 _) ⟨h.1, hPast⟩ hNext
      exact ⟨⟨hTells past state hStart, hMiddle, hThroughout⟩, hLast⟩

theorem Complies.pure {result : Result} (h : Q result past) :
    (Pure.pure result : Program Call Reply Result).Complies permits past Q := h

/-- A run only adds to what was called before. -/
theorem Complies.mono (h : p.Complies permits past Q)
    (hWider : ∀ result later, past <:+ later → Q result later → Q' result later) :
    p.Complies permits past Q' := by
  induction p generalizing past with
  | done result => exact hWider result past (List.suffix_refl past) h
  | query c next ih =>
      refine ⟨h.1, fun reply => ih reply (h.2 reply) fun result later hLater hQ => ?_⟩
      exact hWider result later ((List.suffix_cons _ past).trans hLater) hQ

theorem Complies.bind {continuation : Result → Program Call Reply Next}
    {R : Next → History Call Reply → Prop}
    (h : p.Complies permits past Q)
    (hNext : ∀ result later, past <:+ later → Q result later →
      (continuation result).Complies permits later R) :
    (p >>= continuation).Complies permits past R := by
  change (p.bind continuation).Complies permits past R
  induction p generalizing past with
  | done result => exact hNext result past (List.suffix_refl past) h
  | query c next ih =>
      refine ⟨h.1, fun reply => ih reply (h.2 reply) fun result later hLater hQ => ?_⟩
      exact hNext result later ((List.suffix_cons _ past).trans hLater) hQ

end Program

namespace Fallible

variable {permits : History Call Reply → Call → Prop} {p : Fallible Call Reply Failure Result}
  {continuation : Result → Fallible Call Reply Failure Next} {past : History Call Reply}

theorem complies_bind {Q : Except Failure Result → History Call Reply → Prop}
    {Q' : Except Failure Next → History Call Reply → Prop}
    (h : Program.Complies permits p.run past Q)
    (hOk : ∀ result later, past <:+ later → Q (.ok result) later →
      Program.Complies permits (continuation result).run later Q')
    (hError : ∀ failure later, past <:+ later → Q (.error failure) later →
      Q' (.error failure) later) :
    Program.Complies permits (p >>= continuation).run past Q' := by
  rw [ExceptT.run_bind]
  refine h.bind ?_
  intro outcome later hLater hOutcome
  cases outcome with
  | ok result => exact hOk result later hLater hOutcome
  | error failure => exact .pure (hError failure later hLater hOutcome)

/-- What holds of the calls alone, however the program ends. -/
theorem complies_either {p : Program Call Reply (Except Failure Result)}
    {P : History Call Reply → Prop}
    (h : p.Complies permits past (fun _ later => P later)) :
    p.Complies permits past (Either (fun _ later => P later) P) := by
  refine h.mono ?_
  intro outcome later hLater hP
  cases outcome with
  | ok result => exact hP
  | error failure => exact hP

end Fallible

end OracleProgram
