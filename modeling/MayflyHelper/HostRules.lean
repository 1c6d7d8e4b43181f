import MayflyHelper.Host

/-! What single calls do to the world, and what they leave alone. The rules
for whole operations are read off these and the calls a program can make. -/
namespace MayflyHelper

open OracleProgram

namespace World

variable (w : World) (kind : FsKind) (fs : Fs)

@[simp] theorem advance_fs : (w.advance kind fs).fs = fs := rfl

@[simp] theorem advance_events : (w.advance kind fs).events = w.events := rfl

/-- A call counts among its own kind only. -/
theorem advance_count_of_ne {k : FsKind} (h : k ≠ kind) :
    (w.advance kind fs).count k = w.count k := by
  simp [advance, h]

@[simp] theorem record_events (call : SshdCall) (result : Except Error Unit) :
    (w.record call result).events = ⟨call, result, w.fs⟩ :: w.events := rfl

/-- The world after a number of filesystem calls, given by their kinds, that
left the tree as `fs`. -/
def after (calls : List FsKind) (fs : Fs) : World :=
  { w with fs, count := fun k => w.count k + calls.count k }

@[simp] theorem after_fs (calls : List FsKind) : (w.after calls fs).fs = fs := rfl

@[simp] theorem after_events (calls : List FsKind) : (w.after calls fs).events = w.events := rfl

@[simp] theorem after_count (calls : List FsKind) (k : FsKind) :
    (w.after calls fs).count k = w.count k + calls.count k := rfl

@[simp] theorem after_after (calls calls' : List FsKind) (fs' : Fs) :
    (w.after calls fs).after calls' fs' = w.after (calls' ++ calls) fs' := by
  simp only [after, List.count_append, World.mk.injEq, and_true, true_and]
  funext k
  omega

theorem advance_eq_after : w.advance kind fs = w.after [kind] fs := by
  simp only [advance, after, World.mk.injEq, and_true, true_and]
  funext k
  by_cases h : k = kind
  · simp [h]
  · simp [h, Ne.symm h]

end World

namespace Host

variable (host : Host)

/-- The next call of each of the listed kinds is not made to fail. -/
def Clear (w : World) (kinds : List FsKind) : Prop :=
  ∀ kind ∈ kinds, host.fails kind (w.count kind) = false

instance (w : World) (kinds : List FsKind) : Decidable (host.Clear w kinds) :=
  inferInstanceAs (Decidable (∀ kind ∈ kinds, _))

/-- Calls of other kinds do not use up a schedule. -/
theorem clear_after {host : Host} {w : World} {kinds calls : List FsKind} (fs : Fs)
    (h : ∀ kind ∈ kinds, kind ∉ calls) :
    host.Clear (w.after calls fs) kinds ↔ host.Clear w kinds := by
  refine forall_congr' fun kind => forall_congr' fun hKind => ?_
  rw [World.after_count, List.count_eq_zero_of_not_mem (h kind hKind), Nat.add_zero]

/-- No filesystem call is made to fail. -/
def Reliable : Prop := ∀ kind ordinal, host.fails kind ordinal = false

variable {host}

/-- A call that is made to fail replies so and does nothing, or what a failing
call of its kind may do. -/
theorem oracle_fs_of_fails {call : FsCall} {w : World}
    (h : host.failsAt call (w.count call.kind) = true) :
    host.oracle (.fs call) w = (call.failed, w.advance call.kind w.fs) := by
  simp only [oracle, h, if_true]

/-- Any other call does its work, and its kind is counted. -/
theorem oracle_fs_of_performs {call : FsCall} {w : World}
    (h : host.failsAt call (w.count call.kind) = false) :
    host.oracle (.fs call) w =
      ((call.perform host (w.count call.kind) w.fs).1,
        w.advance call.kind (call.perform host (w.count call.kind) w.fs).2) := by
  simp only [oracle, h, Bool.false_eq_true, if_false]

/-- A filesystem call counts itself, and changes the tree only as performed. -/
theorem oracle_fs_world (host : Host) (call : FsCall) (w : World) :
    ∃ fs', (host.oracle (.fs call) w).2 = w.advance call.kind fs' ∧
      (fs' = w.fs ∨ fs' = (call.perform host (w.count call.kind) w.fs).2) := by
  cases h : host.failsAt call (w.count call.kind) with
  | true => exact ⟨w.fs, by rw [oracle_fs_of_fails h], Or.inl rfl⟩
  | false => exact ⟨_, by rw [oracle_fs_of_performs h], Or.inr rfl⟩

theorem oracle_sshd (call : SshdCall) (w : World) :
    host.oracle (.sshd call) w =
      (host.sshd w.events.length w.fs call,
        w.record call (host.sshd w.events.length w.fs call)) := rfl

end Host

namespace Call

/-- Filesystem calls of the listed kinds. -/
def OfKind (kinds : List FsKind) : Call → Prop
  | .fs call => call.kind ∈ kinds
  | .sshd _ => False

end Call

section Frames

variable {host : Host} {Result : Type} {p : HostProgram Result}

/-- Only calls of a kind advance its ordinal. -/
theorem count_of_kinds (host : Host) {kinds : List FsKind} (h : p.Within (Call.OfKind kinds))
    {kind : FsKind} (hKind : kind ∉ kinds) (w : World) :
    (p.run host.oracle w).2.count kind = w.count kind := by
  refine h.frame (fun w => w.count kind) ?_ w
  rintro (call | call) hCall w
  · obtain ⟨fs', hWorld, _⟩ := host.oracle_fs_world call w
    have hNe : kind ≠ call.kind := fun he => hKind (he ▸ hCall)
    simp only [hWorld, World.advance_count_of_ne _ _ _ hNe]
  · exact hCall.elim

end Frames

section Actions

variable (host : Host) {Value : Type}

/-- An `io::Error` becomes an error of the helper. -/
theorem run_io (p : HostProgram (Except IoErrorKind Value)) (w : World) :
    Program.run host.oracle (FsCall.io p).run w =
      ((p.run host.oracle w).1.mapError Error.io, (p.run host.oracle w).2) := by
  simp only [FsCall.io, ExceptT.run_mk, Program.run_bind]
  cases (p.run host.oracle w).1 <;> rfl

/-- A success is handed through. -/
theorem run_io_ok {host : Host} {p : HostProgram (Except IoErrorKind Value)} {w w' : World}
    {value : Value} (h : p.run host.oracle w = (.ok value, w')) :
    Program.run host.oracle (FsCall.io p).run w = (.ok value, w') := by
  rw [run_io, h]
  rfl

/-- A failure is wrapped. -/
theorem run_io_error {host : Host} {p : HostProgram (Except IoErrorKind Value)} {w w' : World}
    {kind : IoErrorKind} (h : p.run host.oracle w = (.error kind, w')) :
    Program.run host.oracle (FsCall.io p).run w = (.error (.io kind), w') := by
  rw [run_io, h]
  rfl

theorem run_fsCall (call : FsCall) (w : World) :
    (fsCall call).run host.oracle w = host.oracle (.fs call) w := rfl

/-- A call that is made to fail reports so and changes nothing. -/
theorem run_fails {host : Host} {w : World} (call : FsCall)
    (h : host.failsAt call (w.count call.kind) = true) :
    (fsCall call).run host.oracle w = (call.failed, w.after [call.kind] w.fs) := by
  rw [run_fsCall, Host.oracle_fs_of_fails h, World.advance_eq_after]

/-- A call that is not made to fail, told by what it does to the tree. -/
theorem run_performs {host : Host} {w : World} (call : FsCall) {reply : call.Reply} {fs : Fs}
    (h : host.failsAt call (w.count call.kind) = false)
    (hPerform : call.perform host (w.count call.kind) w.fs = (reply, fs)) :
    (fsCall call).run host.oracle w = (reply, w.after [call.kind] fs) := by
  rw [run_fsCall, Host.oracle_fs_of_performs h, hPerform, World.advance_eq_after]

theorem run_sshdCall (call : SshdCall) (w : World) :
    Program.run host.oracle (sshdCall call).run w = host.oracle (.sshd call) w := rfl

theorem run_liftExcept (result : Except Error Value) (w : World) :
    Program.run host.oracle (liftExcept result).run w = (result, w) := rfl

theorem run_attempt (action : Action Value) (w : World) :
    Program.run host.oracle (attempt action) w = Program.run host.oracle action.run w := rfl

/-- Wrapping an error makes no calls. -/
theorem within_io {allowed : Call → Prop} {p : HostProgram (Except IoErrorKind Value)}
    (h : p.Within allowed) : Program.Within allowed (FsCall.io p).run := by
  refine Program.Within.bind h ?_
  intro result
  cases result <;> exact Program.Within.pure _

theorem within_fsCall {allowed : Call → Prop} {call : FsCall} (h : allowed (.fs call)) :
    Program.Within allowed (fsCall call) := Program.Within.call h

theorem within_sshdCall {allowed : Call → Prop} {call : SshdCall} (h : allowed (.sshd call)) :
    Program.Within allowed (sshdCall call).run := Program.Within.call h

end Actions
end MayflyHelper
