import Mathlib.Logic.Basic

/-! Interactive programs over an arbitrary call interface. A program is a
finite tree of calls; what a call does to the world is decided by an oracle,
so one program text can be run against several worlds. -/
namespace OracleProgram

variable {Call : Type} {Reply : Call → Type} {State Result Next Failure : Type}

/-- A program either returns or makes one call and continues with its reply. -/
inductive Program (Call : Type) (Reply : Call → Type) (Result : Type) : Type where
  | done (result : Result)
  | query (call : Call) (next : Reply call → Program Call Reply Result)

/-- The meaning of every call, as a transition of the world's state. -/
abbrev Oracle (Call : Type) (Reply : Call → Type) (State : Type) : Type :=
  (call : Call) → State → Reply call × State

namespace Program

def bind : Program Call Reply Result → (Result → Program Call Reply Next) →
    Program Call Reply Next
  | .done result, continuation => continuation result
  | .query call next, continuation => .query call (fun reply => (next reply).bind continuation)

instance : Monad (Program Call Reply) where
  pure := .done
  bind := Program.bind

/-- A single call whose reply is the result. -/
def call (c : Call) : Program Call Reply (Reply c) := .query c .done

def run (oracle : Oracle Call Reply State) : Program Call Reply Result → State → Result × State
  | .done result, state => (result, state)
  | .query c next, state => (next (oracle c state).1).run oracle (oracle c state).2

variable (oracle : Oracle Call Reply State)

@[simp] theorem run_pure (result : Result) (state : State) :
    (pure result : Program Call Reply Result).run oracle state = (result, state) := rfl

/-- Sequencing runs the continuation in the world the first program left. -/
@[simp] theorem run_bind (p : Program Call Reply Result)
    (continuation : Result → Program Call Reply Next) (state : State) :
    (p >>= continuation).run oracle state =
      (continuation (p.run oracle state).1).run oracle (p.run oracle state).2 := by
  change (p.bind continuation).run oracle state = _
  induction p generalizing state with
  | done result => rfl
  | query c next ih => exact ih _ _

variable {oracle}

/-- Every call the program can make, along any sequence of replies, is allowed. -/
def Within (allowed : Call → Prop) : Program Call Reply Result → Prop
  | .done _ => True
  | .query c next => allowed c ∧ ∀ reply, (next reply).Within allowed

theorem Within.pure {allowed : Call → Prop} (result : Result) :
    (Pure.pure result : Program Call Reply Result).Within allowed := trivial

theorem Within.call {allowed : Call → Prop} {c : Call} (h : allowed c) :
    (Program.call c : Program Call Reply (Reply c)).Within allowed :=
  ⟨h, fun _ => trivial⟩

theorem Within.bind {allowed : Call → Prop} {p : Program Call Reply Result}
    {continuation : Result → Program Call Reply Next}
    (h : p.Within allowed) (hNext : ∀ result, (continuation result).Within allowed) :
    (p >>= continuation).Within allowed := by
  change (p.bind continuation).Within allowed
  induction p with
  | done result => exact hNext result
  | query c next ih => exact ⟨h.1, fun reply => ih reply (h.2 reply)⟩

theorem Within.mono {allowed wider : Call → Prop} {p : Program Call Reply Result}
    (h : p.Within allowed) (hWider : ∀ c, allowed c → wider c) : p.Within wider := by
  induction p with
  | done result => trivial
  | query c next ih => exact ⟨hWider c h.1, fun reply => ih reply (h.2 reply)⟩

/-- An invariant that every allowed call keeps is kept by the whole run. -/
theorem Within.invariant {allowed : Call → Prop} (inv : State → Prop)
    {p : Program Call Reply Result} (h : p.Within allowed)
    (hStep : ∀ c, allowed c → ∀ state, inv state → inv (oracle c state).2)
    (state : State) (hState : inv state) : inv (p.run oracle state).2 := by
  induction p generalizing state with
  | done result => exact hState
  | query c next ih => exact ih _ (h.2 _) _ (hStep c h.1 state hState)

/-- A frame: what no allowed call touches, the run does not touch. -/
theorem Within.frame {Part : Type} {allowed : Call → Prop} (part : State → Part)
    {p : Program Call Reply Result} (h : p.Within allowed)
    (hStep : ∀ c, allowed c → ∀ state, part (oracle c state).2 = part state) (state : State) :
    part (p.run oracle state).2 = part state :=
  h.invariant (fun next => part next = part state)
    (fun c hc next hNext => (hStep c hc next).trans hNext) state rfl

end Program

/-- Programs that may stop early with a failure. The world keeps whatever
was done to it before the failure. -/
abbrev Fallible (Call : Type) (Reply : Call → Type) (Failure Result : Type) : Type :=
  ExceptT Failure (Program Call Reply) Result

namespace Fallible

variable {oracle : Oracle Call Reply State}

theorem run_bind (p : Fallible Call Reply Failure Result)
    (continuation : Result → Fallible Call Reply Failure Next) (state : State) :
    Program.run oracle (p >>= continuation).run state =
      match Program.run oracle p.run state with
      | (.ok result, next) => Program.run oracle (continuation result).run next
      | (.error failure, next) => (.error failure, next) := by
  rw [ExceptT.run_bind, Program.run_bind]
  generalize Program.run oracle p.run state = outcome
  obtain ⟨outcome, next⟩ := outcome
  cases outcome with
  | ok result => rfl
  | error failure => rfl

theorem run_bind_ok {p : Fallible Call Reply Failure Result}
    {continuation : Result → Fallible Call Reply Failure Next} {state next : State}
    {result : Result}
    (h : Program.run oracle p.run state = (.ok result, next)) :
    Program.run oracle (p >>= continuation).run state =
      Program.run oracle (continuation result).run next := by
  rw [run_bind, h]

theorem run_bind_error {p : Fallible Call Reply Failure Result}
    {continuation : Result → Fallible Call Reply Failure Next} {state next : State}
    {failure : Failure}
    (h : Program.run oracle p.run state = (.error failure, next)) :
    Program.run oracle (p >>= continuation).run state = (.error failure, next) := by
  rw [run_bind, h]

/-- A sequence succeeds only through the success of its parts. -/
theorem run_bind_eq_ok {p : Fallible Call Reply Failure Result}
    {continuation : Result → Fallible Call Reply Failure Next} {state last : State} {value : Next}
    (h : Program.run oracle (p >>= continuation).run state = (.ok value, last)) :
    ∃ result next, Program.run oracle p.run state = (.ok result, next) ∧
      Program.run oracle (continuation result).run next = (.ok value, last) := by
  rw [run_bind] at h
  rcases hFirst : Program.run oracle p.run state with ⟨failure | result, next⟩
  · rw [hFirst] at h
    cases h
  · rw [hFirst] at h
    exact ⟨result, next, rfl, h⟩

theorem run_bind_eq_ok_iff {p : Fallible Call Reply Failure Result}
    {continuation : Result → Fallible Call Reply Failure Next} {state last : State} {value : Next} :
    Program.run oracle (p >>= continuation).run state = (.ok value, last) ↔
      ∃ result next, Program.run oracle p.run state = (.ok result, next) ∧
        Program.run oracle (continuation result).run next = (.ok value, last) := by
  constructor
  · exact run_bind_eq_ok
  · rintro ⟨result, next, hFirst, hNext⟩
    rw [run_bind_ok hFirst, hNext]

theorem run_seq_eq_ok_iff {p : Fallible Call Reply Failure Unit}
    {q : Fallible Call Reply Failure Next}
    {state last : State} {value : Next} :
    Program.run oracle (do p; q : Fallible Call Reply Failure Next).run state = (.ok value, last) ↔
      ∃ next, Program.run oracle p.run state = (.ok (), next) ∧
        Program.run oracle q.run next = (.ok value, last) := by
  rw [run_bind_eq_ok_iff]
  exact ⟨fun ⟨_, next, h⟩ => ⟨next, h⟩, fun ⟨next, h⟩ => ⟨(), next, h⟩⟩

/-- A program that cannot fail hands on its result and its state. -/
theorem run_lift_bind (p : Program Call Reply Result)
    (continuation : Result → Fallible Call Reply Failure Next)
    (state : State) :
    Program.run oracle
      ((ExceptT.lift p : Fallible Call Reply Failure Result) >>= continuation).run state =
      Program.run oracle (continuation (p.run oracle state).1).run (p.run oracle state).2 := by
  have hLift : Program.run oracle (ExceptT.lift p : Fallible Call Reply Failure Result).run state =
      (.ok (p.run oracle state).1, (p.run oracle state).2) := Program.run_bind oracle p _ state
  exact run_bind_ok hLift

theorem within_bind {allowed : Call → Prop} {p : Fallible Call Reply Failure Result}
    {continuation : Result → Fallible Call Reply Failure Next}
    (h : Program.Within allowed p.run)
    (hNext : ∀ result, Program.Within allowed (continuation result).run) :
    Program.Within allowed (p >>= continuation).run := by
  rw [ExceptT.run_bind]
  refine Program.Within.bind h ?_
  intro outcome
  cases outcome with
  | ok result => exact hNext result
  | error failure => exact Program.Within.pure _

end Fallible
end OracleProgram
