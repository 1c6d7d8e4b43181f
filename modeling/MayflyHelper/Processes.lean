import MayflyHelper.SshdControl
import MayflyHelper.Semantics.Moves
import Mathlib.Data.Finset.Basic

/-! The runner among the processes it starts. The child inherits the write end
of the pipe and hands it on to what it forks; the runner reads the pipe to its
end, and the end comes only when the last of them has let go of it. -/
namespace MayflyHelper.SystemSshdControl

open OracleProgram Clock Moves

/-- The child, and whether it still holds the pipe while it lives. -/
inductive Child where
  | absent
  | running (holds : Bool)
  | dying (holds : Bool)
  | exited (status : ExitStatus)
  deriving DecidableEq

namespace Child

def holds : Child → Bool
  | .running holds => holds
  | .dying holds => holds
  | _ => false

/-- What a poll reports. -/
def status : Child → Option ExitStatus
  | .exited status => some status
  | _ => none

/-- `SIGKILL` arrives; the child is gone only when the kernel has ended it. -/
def kill : Child → Child
  | .running holds => .dying holds
  | child => child

theorem kill_ne_absent {child : Child} (h : child ≠ .absent) : child.kill ≠ .absent := by
  cases child <;> simp_all [kill]

end Child

/-- The processes and the pipe: since when the runner has been in its call,
the descendants that hold the write end, what is in the pipe and what the
runner has read of it. -/
structure World where
  capacity : Nat
  time : Nat
  entered : Nat
  child : Child
  holders : Finset Nat
  pipe : Bytes
  taken : Bytes

inductive Actor where
  | runner
  | child
  | descendant (pid : Nat)
  | kernel
  | fault
  deriving DecidableEq

/-- What can happen next: the call of the runner returns, fails, or takes what
is in the pipe; the child or a descendant forks, writes or lets go of the pipe;
time passes, or a killed child comes to its end. -/
inductive Action where
  | complete
  | fail (kind : IoErrorKind)
  | drain
  | childForks (pid : Nat)
  | childWrites (bytes : Bytes)
  | childCloses
  | childExits (status : ExitStatus)
  | forks (pid other : Nat)
  | writes (pid : Nat) (bytes : Bytes)
  | closes (pid : Nat)
  | passes (span : Nat)
  | dies

def Action.actor : Action → Actor
  | .complete | .drain => .runner
  | .fail _ => .fault
  | .childForks _ | .childWrites _ | .childCloses | .childExits _ => .child
  | .forks pid _ | .writes pid _ | .closes pid => .descendant pid
  | .passes _ | .dies => .kernel

/-- No descendant acts and no call fails. -/
def Action.Unaided (action : Action) : Prop :=
  match action.actor with
  | .descendant _ => False
  | .fault => False
  | _ => True

theorem Action.not_unaided {action : Action} {pid : Nat} (h : action.actor = .descendant pid) :
    ¬action.Unaided := by
  rw [Unaided, h]
  exact id

namespace World

/-- A call that can return now, with its reply. A sleep lasts its span, the
pipe is read until it is empty and nobody can write to it, and `wait` returns
with the exit. The other calls do not wait. -/
def complete (w : World) : (call : ProcessCall) → Option (ProcessCall.Reply call × World)
  | .spawn _ => some (.ok (), { w with child := .running true })
  | .now => some (Instant.reading w.time, w)
  | .tryWait => some (.ok w.child.status, w)
  | .sleep span => if w.entered + span.nanoseconds ≤ w.time then some ((), w) else none
  | .readStderr =>
      if w.pipe = [] ∧ w.child.holds = false ∧ w.holders = ∅ then some (w.taken, w) else none
  | .kill => some (.ok (), { w with child := w.child.kill })
  | .wait => w.child.status.map fun status => (.ok status, w)

/-- A call that returns an error, and leaves everything as it is. An error of
the pipe is dropped with what has been read. -/
def fail (w : World) (kind : IoErrorKind) : (call : ProcessCall) → Option (ProcessCall.Reply call)
  | .spawn _ => some (.error kind)
  | .now => none
  | .tryWait => some (.error kind)
  | .sleep _ => none
  | .readStderr => some w.taken
  | .kill => some (.error kind)
  | .wait => some (.error kind)

/-- What the others do. A fork hands on the write end its parent holds, a
write needs room in the pipe, and whoever ends lets go of the pipe. -/
def act (w : World) : Action → Option World
  | .childForks pid =>
      if w.child = .running true ∧ pid ∉ w.holders then
        some { w with holders := insert pid w.holders }
      else none
  | .childWrites bytes =>
      if w.child = .running true ∧ w.pipe.length + bytes.length ≤ w.capacity then
        some { w with pipe := w.pipe ++ bytes }
      else none
  | .childCloses =>
      if w.child = .running true then some { w with child := .running false } else none
  | .childExits status =>
      match w.child with
      | .running _ => some { w with child := .exited status }
      | _ => none
  | .forks pid other =>
      if pid ∈ w.holders ∧ other ∉ w.holders then some { w with holders := insert other w.holders }
      else none
  | .writes pid bytes =>
      if pid ∈ w.holders ∧ w.pipe.length + bytes.length ≤ w.capacity then
        some { w with pipe := w.pipe ++ bytes }
      else none
  | .closes pid => if pid ∈ w.holders then some { w with holders := w.holders.erase pid } else none
  | .passes span => some { w with time := w.time + span }
  | .dies =>
      match w.child with
      | .dying _ => some { w with child := .exited ⟨none⟩ }
      | _ => none
  | _ => none

end World

/-- The runner, with what it has still to do, among the processes. -/
structure Scene where
  runner : ProcessProgram (Except Stopped RunOutcome)
  world : World

namespace Scene

/-- The runner goes on with the reply. -/
def proceed {call : ProcessCall}
    (next : ProcessCall.Reply call → ProcessProgram (Except Stopped RunOutcome))
    (reply : ProcessCall.Reply call) (w : World) : Scene :=
  ⟨next reply, { w with entered := w.time }⟩

def step (s : Scene) : Action → Option Scene
  | .complete =>
      match s.runner with
      | .done _ => none
      | .query call next => (s.world.complete call).map fun entry => proceed next entry.1 entry.2
  | .fail kind =>
      match s.runner with
      | .done _ => none
      | .query call next => (s.world.fail kind call).map fun reply => proceed next reply s.world
  | .drain =>
      match s.runner with
      | .query .readStderr _ =>
          some { s with
            world := { s.world with taken := s.world.taken ++ s.world.pipe, pipe := [] } }
      | _ => none
  | action => (s.world.act action).map fun w => { s with world := w }

/-- Before the command is spawned. -/
def initial (config : SshdControlConfig) (command : Command) (fuel capacity time : Nat) : Scene :=
  ⟨run config command fuel, ⟨capacity, time, time, .absent, ∅, [], []⟩⟩

/-- There is nothing left to do for the runner. -/
def Returned (s : Scene) : Prop := ∃ result, s.runner = .done result

def Sleeping (s : Scene) : Prop := ∃ next, s.runner = .query (.sleep pollInterval) next

/-- The call of the runner can return although no descendant does anything. -/
def CanComplete (s : Scene) : Prop :=
  ∃ t u, CanReach step (fun action => action.Unaided ∧ action ≠ .complete) s t ∧
    t.step .complete = some u

def CanReturn (s : Scene) : Prop := ∃ t, CanReach step Action.Unaided s t ∧ t.Returned

def Unblocked (s : Scene) : Prop := s.Returned ∨ s.Sleeping ∨ s.CanComplete

/-- A poll that finds the child gone. -/
def Polled (s : Scene) : Prop :=
  ∃ next status, s.runner = .query .tryWait next ∧ s.world.child = .exited status

/-- The move in which `try_wait` reports the exit. -/
def Reports (m : Move step) : Prop := m.action = .complete ∧ m.before.Polled

end Scene

namespace World
variable {w next : World}

theorem holders_of_complete {call : ProcessCall} {reply : ProcessCall.Reply call}
    (h : w.complete call = some (reply, next)) : next.holders = w.holders := by
  cases call with
  | spawn command =>
      cases h
      rfl
  | now =>
      cases h
      rfl
  | tryWait =>
      cases h
      rfl
  | sleep span =>
      simp only [complete, Option.ite_none_right_eq_some, Option.some.injEq, Prod.mk.injEq] at h
      rw [h.2.2]
  | readStderr =>
      simp only [complete, Option.ite_none_right_eq_some, Option.some.injEq, Prod.mk.injEq] at h
      rw [h.2.2]
  | kill =>
      cases h
      rfl
  | wait =>
      obtain ⟨status, -, hNext⟩ := Option.map_eq_some_iff.mp h
      cases hNext
      rfl

/-- The end of the pipe is found only when nobody holds it. -/
theorem holders_of_readStderr {entry : Bytes × World} (h : w.complete .readStderr = some entry) :
    w.holders = ∅ := by
  simp only [complete, Option.ite_none_right_eq_some] at h
  exact h.1.2.2

/-- What the others can do to the child and to the holders of the pipe: leave
both alone, fork from the child, move the child on, or act for a descendant
that holds the pipe. -/
theorem act_cases {action : Action} (h : w.act action = some next) :
    next.child = w.child ∧ next.holders = w.holders ∨ w.child = .running true ∧
      next.child = w.child ∨
      (∀ status, w.child ≠ .exited status) ∧ next.child ≠ .absent ∨
      ∃ pid ∈ w.holders, action.actor = .descendant pid ∧ next.child = w.child := by
  cases action with
  | complete => cases h
  | fail kind => cases h
  | drain => cases h
  | childForks pid =>
      simp only [act, Option.ite_none_right_eq_some, Option.some.injEq] at h
      obtain ⟨⟨hRunning, -⟩, rfl⟩ := h
      exact Or.inr (Or.inl ⟨hRunning, rfl⟩)
  | childWrites bytes =>
      simp only [act, Option.ite_none_right_eq_some, Option.some.injEq] at h
      obtain ⟨-, rfl⟩ := h
      exact Or.inl ⟨rfl, rfl⟩
  | childCloses =>
      simp only [act, Option.ite_none_right_eq_some, Option.some.injEq] at h
      obtain ⟨hRunning, rfl⟩ := h
      exact Or.inr (Or.inr (Or.inl ⟨by simp [hRunning], Child.noConfusion⟩))
  | childExits status =>
      cases hChild : w.child with
      | running holds =>
          simp only [act, hChild, Option.some.injEq] at h
          rw [← h]
          exact Or.inr (Or.inr (Or.inl ⟨fun _ => Child.noConfusion, Child.noConfusion⟩))
      | _ => simp [act, hChild] at h
  | forks pid other =>
      simp only [act, Option.ite_none_right_eq_some, Option.some.injEq] at h
      obtain ⟨⟨hHolds, -⟩, rfl⟩ := h
      exact Or.inr (Or.inr (Or.inr ⟨pid, hHolds, rfl, rfl⟩))
  | writes pid bytes =>
      simp only [act, Option.ite_none_right_eq_some, Option.some.injEq] at h
      obtain ⟨-, rfl⟩ := h
      exact Or.inl ⟨rfl, rfl⟩
  | closes pid =>
      simp only [act, Option.ite_none_right_eq_some, Option.some.injEq] at h
      obtain ⟨hHolds, rfl⟩ := h
      exact Or.inr (Or.inr (Or.inr ⟨pid, hHolds, rfl, rfl⟩))
  | passes span =>
      cases h
      exact Or.inl ⟨rfl, rfl⟩
  | dies =>
      cases hChild : w.child with
      | dying holds =>
          simp only [act, hChild, Option.some.injEq] at h
          rw [← h]
          exact Or.inr (Or.inr (Or.inl ⟨fun _ => Child.noConfusion, Child.noConfusion⟩))
      | _ => simp [act, hChild] at h

/-- Once the child has exited only descendants change who holds the pipe, and
where there are none there will be none. -/
theorem act_of_exited {status : ExitStatus} {action : Action} (hExited : w.child = .exited status)
    (h : w.act action = some next) :
    next.child = .exited status ∧ (w.holders = ∅ → next.holders = ∅) ∧
      (action.Unaided → next.holders = w.holders) := by
  rcases act_cases h with ⟨hChild, hSame⟩ | ⟨hRunning, -⟩ | ⟨hAlive, -⟩ |
    ⟨pid, hHolds, hActor, hChild⟩
  · exact ⟨hChild.trans hExited, fun hNone => hSame.trans hNone, fun _ => hSame⟩
  · rw [hExited] at hRunning
    cases hRunning
  · exact absurd hExited (hAlive status)
  · refine ⟨hChild.trans hExited, fun hNone => ?_, fun hUnaided =>
      absurd hUnaided (Action.not_unaided hActor)⟩
    rw [hNone] at hHolds
    exact absurd hHolds (Finset.notMem_empty pid)

end World

end MayflyHelper.SystemSshdControl
