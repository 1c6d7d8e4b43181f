import MayflyHelper.Semantics.Program
import Mathlib.Data.Set.Defs

/-! What holds at every moment of a run: before and after every call, and in
whatever states a call passes through while it is in progress. -/
namespace OracleProgram

variable {Call : Type} {Reply : Call → Type} {State Result Next Failure : Type}

namespace Program

/-- `P` holds in every state of the run, `during` giving those in the middle of
a call. -/
def Throughout (oracle : Oracle Call Reply State) (during : Call → State → Set State)
    (P : State → Prop) :
    Program Call Reply Result → State → Prop
  | .done _, state => P state
  | .query c next, state => P state ∧ (∀ middle ∈ during c state, P middle) ∧
      (next (oracle c state).1).Throughout oracle during P (oracle c state).2

/-- `P` holds throughout the run, and `Q` of its result and last state. -/
def Yields (oracle : Oracle Call Reply State) (during : Call → State → Set State) (P : State → Prop)
    (p : Program Call Reply Result) (state : State) (Q : Result → State → Prop) : Prop :=
  p.Throughout oracle during P state ∧ Q (p.run oracle state).1 (p.run oracle state).2

variable {oracle : Oracle Call Reply State} {during : Call → State → Set State} {P : State → Prop}
  {p : Program Call Reply Result} {state : State}

/-- The states of a run, with those in the middle of a call. -/
def moments (oracle : Oracle Call Reply State) (during : Call → State → Set State) :
    Program Call Reply Result → State → Set State
  | .done _, state => {state}
  | .query c next, state =>
      {moment | moment = state ∨ moment ∈ during c state ∨
        moment ∈ (next (oracle c state).1).moments oracle during (oracle c state).2}

/-- A run after its first `n` calls: what is left of the program, and the state. -/
def advance (oracle : Oracle Call Reply State) :
    Nat → Program Call Reply Result → State → Program Call Reply Result × State
  | 0, p, state => (p, state)
  | _ + 1, .done result, state => (.done result, state)
  | n + 1, .query c next, state => advance oracle n (next (oracle c state).1) (oracle c state).2

/-- The first `n` calls of a run. -/
def firstCalls (oracle : Oracle Call Reply State) :
    Nat → Program Call Reply Result → State → List Call
  | 0, _, _ => []
  | _ + 1, .done _, _ => []
  | n + 1, .query c next, state =>
      c :: firstCalls oracle n (next (oracle c state).1) (oracle c state).2

/-- The call a program makes next. -/
def nextCall? : Program Call Reply Result → Option Call
  | .done _ => none
  | .query c _ => some c

/-- The moments of the rest of a run are moments of the run. -/
theorem moments_advance (n : Nat) (p : Program Call Reply Result) (state : State) :
    (p.advance oracle n state).1.moments oracle during (p.advance oracle n state).2 ⊆
      p.moments oracle during state := by
  induction n generalizing p state with
  | zero => exact fun _ h => h
  | succ n ih =>
      cases p with
      | done result => exact fun _ h => h
      | query c next => exact fun moment h => Or.inr (Or.inr (ih _ _ h))

/-- The states in the middle of the call that comes after the first `n`. -/
theorem mem_moments_advance {n : Nat} {rest : Program Call Reply Result × State} {c : Call}
    {moment : State}
    (hRest : p.advance oracle n state = rest) (hNext : rest.1.nextCall? = some c)
    (hDuring : moment ∈ during c rest.2) : moment ∈ p.moments oracle during state := by
  refine moments_advance n p state ?_
  rw [hRest]
  obtain ⟨q, later⟩ := rest
  cases q with
  | done result => cases hNext
  | query other next =>
      cases hNext
      exact Or.inr (Or.inl hDuring)

/-- What none of the first calls changes for the worse is as good after them. -/
theorem advance_invariant {inv : State → Prop} {fits : Call → Prop}
    (hStep : ∀ c state, fits c → inv state → inv (oracle c state).2) {n : Nat}
    {rest : Program Call Reply Result × State} (hRest : p.advance oracle n state = rest)
    (hCalls : ∀ c ∈ p.firstCalls oracle n state, fits c) (hState : inv state) : inv rest.2 := by
  subst hRest
  induction n generalizing p state with
  | zero => exact hState
  | succ n ih =>
      cases p with
      | done result => exact hState
      | query c next =>
          obtain ⟨hFirst, hRest⟩ := List.forall_mem_cons.mp hCalls
          exact ih hRest (hStep c state hFirst hState)

/-- What holds throughout holds at every moment. -/
theorem Throughout.of_mem_moments (h : p.Throughout oracle during P state) {moment : State}
    (hMoment : moment ∈ p.moments oracle during state) : P moment := by
  induction p generalizing state with
  | done result =>
      cases hMoment
      exact h
  | query c next ih =>
      rcases hMoment with rfl | hMiddle | hLater
      · exact h.1
      · exact h.2.1 moment hMiddle
      · exact ih _ h.2.2 hLater

/-- It holds before the first call. -/
theorem Throughout.first (h : p.Throughout oracle during P state) : P state := by
  cases p with
  | done result => exact h
  | query c next => exact h.1

/-- And after the last. -/
theorem Throughout.last (h : p.Throughout oracle during P state) : P (p.run oracle state).2 := by
  induction p generalizing state with
  | done result => exact h
  | query c next ih => exact ih _ h.2.2

theorem Throughout.mono {P' : State → Prop} (h : p.Throughout oracle during P state)
    (hWider : ∀ state, P state → P' state) : p.Throughout oracle during P' state := by
  induction p generalizing state with
  | done result => exact hWider _ h
  | query c next ih =>
      exact ⟨hWider _ h.1, fun middle hMiddle => hWider _ (h.2.1 middle hMiddle), ih _ h.2.2⟩

/-- Two programs in a row. -/
theorem throughout_bind_iff {continuation : Result → Program Call Reply Next} :
    (p >>= continuation).Throughout oracle during P state ↔
      p.Throughout oracle during P state ∧
        (continuation (p.run oracle state).1).Throughout oracle during P
          (p.run oracle state).2 := by
  change (p.bind continuation).Throughout oracle during P state ↔ _
  induction p generalizing state with
  | done result =>
      constructor
      · intro h
        exact ⟨h.first, h⟩
      · intro h
        exact h.2
  | query c next ih =>
      constructor
      · intro h
        obtain ⟨hNext, hRest⟩ := (ih _).mp h.2.2
        exact ⟨⟨h.1, h.2.1, hNext⟩, hRest⟩
      · intro h
        exact ⟨h.1.1, h.1.2.1, (ih _).mpr ⟨h.1.2.2, h.2⟩⟩

theorem Yields.pure {result : Result} {Q : Result → State → Prop} (hState : P state)
    (hQ : Q result state) :
    (Pure.pure result : Program Call Reply Result).Yields oracle during P state Q :=
  ⟨hState, hQ⟩

/-- One call: the states before, during and after it. -/
theorem Yields.call {c : Call} {Q : Reply c → State → Prop} (hState : P state)
    (hDuring : ∀ middle ∈ during c state, P middle) (hAfter : P (oracle c state).2)
    (hQ : Q (oracle c state).1 (oracle c state).2) :
    (Program.call c : Program Call Reply (Reply c)).Yields oracle during P state Q :=
  ⟨⟨hState, hDuring, hAfter⟩, hQ⟩

/-- A result may be weakened where the property holds. -/
theorem Yields.mono {Q Q' : Result → State → Prop} (h : p.Yields oracle during P state Q)
    (hWider : ∀ result last, P last → Q result last → Q' result last) :
    p.Yields oracle during P state Q' :=
  ⟨h.1, hWider _ _ h.1.last h.2⟩

/-- The rule for two programs in a row. -/
theorem Yields.bind {continuation : Result → Program Call Reply Next} {R : Result → State → Prop}
    {Q : Next → State → Prop} (h : p.Yields oracle during P state R)
    (hNext : ∀ result last, P last → R result last →
      (continuation result).Yields oracle during P last Q) :
    (p >>= continuation).Yields oracle during P state Q := by
  obtain ⟨hThroughout, hQ⟩ := hNext _ _ h.1.last h.2
  refine ⟨throughout_bind_iff.mpr ⟨h.1, hThroughout⟩, ?_⟩
  rw [run_bind]
  exact hQ

/-- A world that carries more along answers and moves as the plain one. -/
theorem run_projects {Plain : Type} {plain : Oracle Call Reply Plain} (project : State → Plain)
    (hStep : ∀ c state, (oracle c state).1 = (plain c (project state)).1 ∧
      project (oracle c state).2 = (plain c (project state)).2)
    (p : Program Call Reply Result) (state : State) :
    (p.run oracle state).1 = (p.run plain (project state)).1 ∧
      project (p.run oracle state).2 = (p.run plain (project state)).2 := by
  induction p generalizing state with
  | done result => exact ⟨rfl, rfl⟩
  | query c next ih =>
      obtain ⟨hReply, hState⟩ := hStep c state
      have hRest := ih (oracle c state).1 (oracle c state).2
      rw [hState, hReply] at hRest
      simp only [run]
      rw [hReply]
      exact hRest

end Program

namespace Fallible

variable {oracle : Oracle Call Reply State} {during : Call → State → Set State} {P : State → Prop}
  {p : Fallible Call Reply Failure Result}
  {continuation : Result → Fallible Call Reply Failure Next}
  {state : State}

theorem pure_bind (result : Result) (continuation : Result → Fallible Call Reply Failure Next) :
    (pure result >>= continuation) = continuation result := rfl

/-- What holds after a success, and what after a failure. -/
def Either {Value : Type} (Good : Value → State → Prop) (Bad : State → Prop) :
    Except Failure Value → State → Prop
  | .ok value, last => Good value last
  | .error _, last => Bad last

/-- The same with failures: the first of them ends the program. -/
theorem yields_bind {Good : Result → State → Prop} {Good' : Next → State → Prop}
    {Bad Bad' : State → Prop}
    (h : Program.Yields oracle during P p.run state (Either Good Bad))
    (hOk : ∀ result last, Good result last →
      Program.Yields oracle during P (continuation result).run last (Either Good' Bad'))
    (hBad : ∀ last, Bad last → Bad' last) :
    Program.Yields oracle during P (p >>= continuation).run state (Either Good' Bad') := by
  rw [ExceptT.run_bind]
  refine h.bind ?_
  intro outcome last hLast hOutcome
  cases outcome with
  | ok result => exact hOk result last hOutcome
  | error failure => exact .pure hLast (hBad last hOutcome)

end Fallible

end OracleProgram
