import Mathlib.Logic.Basic

/-! A child process that prints to a pipe. Its script is a finite list of
spans of work and of writes, and it exits at the end. A write blocks while the
pipe is full; nobody reads until the child is gone. -/
namespace ChildProcess

variable {Byte : Type}

inductive Op (Byte : Type) where
  | work (span : Nat)
  | write (bytes : List Byte)
  deriving DecidableEq

/-- The work in a script. -/
def work : List (Op Byte) → Nat
  | [] => 0
  | .work span :: ops => span + work ops
  | .write _ :: ops => work ops

/-- The number of bytes a script prints. -/
def printed : List (Op Byte) → Nat
  | [] => 0
  | .work _ :: ops => printed ops
  | .write bytes :: ops => bytes.length + printed ops

/-- What is left to do, and what is in the pipe. -/
structure Progress (Byte : Type) where
  ops : List (Op Byte)
  pipe : List Byte
  deriving DecidableEq

/-- A pipe of bounded capacity that nobody reads, or one whose reader takes
every byte at once, so that no write blocks. -/
inductive Pipe where
  | bounded (capacity : Nat)
  | drained
  deriving DecidableEq

/-- The bytes a write can place. -/
def Pipe.room (pipe : Pipe) (held wanted : Nat) : Nat :=
  match pipe with
  | .bounded capacity => capacity - held
  | .drained => wanted

/-- The child after `time`. A write that does not fit places what it can and
waits there. -/
def advance (pipe : Pipe) (time : Nat) : List (Op Byte) → List Byte → Progress Byte
  | [], held => ⟨[], held⟩
  | .work span :: ops, held =>
      if span ≤ time then advance pipe (time - span) ops held
      else ⟨.work (span - time) :: ops, held⟩
  | .write bytes :: ops, held =>
      if bytes.length ≤ pipe.room held.length bytes.length then
        advance pipe time ops (held ++ bytes)
      else
        ⟨.write (bytes.drop (pipe.room held.length bytes.length)) :: ops,
          held ++ bytes.take (pipe.room held.length bytes.length)⟩

def Progress.advance (pipe : Pipe) (time : Nat) (progress : Progress Byte) : Progress Byte :=
  ChildProcess.advance pipe time progress.ops progress.pipe

/-- Nothing is left to do. -/
def Progress.Exited (progress : Progress Byte) : Prop := progress.ops = []

instance (progress : Progress Byte) : Decidable progress.Exited :=
  match h : progress.ops with
  | [] => .isTrue h
  | _ :: _ => .isFalse (by unfold Progress.Exited; rw [h]; simp)

section Advance
variable (pipe : Pipe) {span time more capacity : Nat} {ops : List (Op Byte)}
  {bytes held : List Byte}

theorem advance_work (h : span ≤ time) :
    advance pipe time (.work span :: ops) held = advance pipe (time - span) ops held := if_pos h

theorem advance_working (h : time < span) :
    advance pipe time (.work span :: ops) held = ⟨.work (span - time) :: ops, held⟩ :=
  if_neg (by omega)

theorem advance_write (h : bytes.length ≤ pipe.room held.length bytes.length) :
    advance pipe time (.write bytes :: ops) held = advance pipe time ops (held ++ bytes) := if_pos h

theorem advance_blocked (h : pipe.room held.length bytes.length < bytes.length) :
    advance pipe time (.write bytes :: ops) held =
      ⟨.write (bytes.drop (pipe.room held.length bytes.length)) :: ops,
        held ++ bytes.take (pipe.room held.length bytes.length)⟩ := if_neg (by omega)

/-- A blocked write stays blocked: it has filled the pipe. -/
theorem advance_of_blocked (h : pipe.room held.length bytes.length < bytes.length) :
    (advance pipe time (.write bytes :: ops) held).advance pipe more =
      advance pipe time (.write bytes :: ops) held := by
  cases pipe with
  | drained => exact absurd h (Nat.lt_irrefl _)
  | bounded capacity =>
      simp only [Pipe.room] at h
      have hTaken : (bytes.take (capacity - held.length)).length = capacity - held.length := by
        rw [List.length_take]
        omega
      have hRoom :
          Pipe.room (.bounded capacity) (held ++ bytes.take (capacity - held.length)).length
          (bytes.drop (capacity - held.length)).length = 0 := by
        simp only [Pipe.room, List.length_append, hTaken]
        omega
      have hLeft :
          Pipe.room (.bounded capacity) (held ++ bytes.take (capacity - held.length)).length
          (bytes.drop (capacity - held.length)).length <
            (bytes.drop (capacity - held.length)).length := by
        rw [hRoom, List.length_drop]
        omega
      rw [advance_blocked (.bounded capacity) h]
      show advance (.bounded capacity) more (.write (bytes.drop (capacity - held.length)) :: ops)
        (held ++ bytes.take (capacity - held.length)) = _
      rw [advance_blocked (.bounded capacity) hLeft, hRoom, List.drop_zero,
        List.take_zero, List.append_nil]
      rfl

end Advance

/-- Time passes in one piece or in two. -/
theorem advance_add (pipe : Pipe) (time more : Nat) (ops : List (Op Byte)) (held : List Byte) :
    advance pipe (time + more) ops held = (advance pipe time ops held).advance pipe more := by
  induction ops generalizing time held with
  | nil => rfl
  | cons op ops ih =>
      cases op with
      | work span =>
          by_cases hDone : span ≤ time
          · have hSum : time + more - span = time - span + more := by omega
            rw [advance_work pipe hDone, advance_work pipe (by omega), hSum, ih]
          · rw [advance_working pipe (Nat.lt_of_not_le hDone)]
            show _ = advance pipe more (.work (span - time) :: ops) held
            by_cases hLater : span ≤ time + more
            · have hLeft : time + more - span = more - (span - time) := by omega
              rw [advance_work pipe hLater, advance_work pipe (by omega), hLeft]
            · have hLeft : span - (time + more) = span - time - more := by omega
              rw [advance_working pipe (by omega), advance_working pipe (by omega), hLeft]
      | write bytes =>
          by_cases hFits : bytes.length ≤ pipe.room held.length bytes.length
          · rw [advance_write pipe hFits, advance_write pipe hFits, ih]
          · rw [advance_of_blocked pipe (by omega), advance_blocked pipe (by omega),
              advance_blocked pipe (by omega)]

/-- On a drained pipe the child exits when its work is done. -/
theorem exited_drained_iff (time : Nat) (ops : List (Op Byte)) (held : List Byte) :
    (advance .drained time ops held).Exited ↔ work ops ≤ time := by
  induction ops generalizing time held with
  | nil => simp [advance, Progress.Exited, work]
  | cons op ops ih =>
      cases op with
      | work span =>
          by_cases hDone : span ≤ time
          · rw [advance_work .drained hDone, ih, work]
            omega
          · rw [advance_working .drained (by omega), work]
            simp only [Progress.Exited, reduceCtorEq, false_iff]
            omega
      | write bytes => rw [advance_write .drained (Nat.le_refl _), ih, work]

/-- On a bounded pipe it exits when its work is done, if all it prints fits. -/
theorem exited_bounded_iff (capacity time : Nat) (ops : List (Op Byte)) (held : List Byte)
    (hHeld : held.length ≤ capacity) :
    (advance (.bounded capacity) time ops held).Exited ↔
      held.length + printed ops ≤ capacity ∧ work ops ≤ time := by
  induction ops generalizing time held with
  | nil =>
      simp only [advance, Progress.Exited, printed, work, true_iff]
      omega
  | cons op ops ih =>
      cases op with
      | work span =>
          by_cases hDone : span ≤ time
          · rw [advance_work (.bounded capacity) hDone, ih _ _ hHeld, printed, work]
            omega
          · rw [advance_working (.bounded capacity) (by omega), work]
            simp only [Progress.Exited, reduceCtorEq, false_iff]
            omega
      | write bytes =>
          by_cases hFits : bytes.length ≤ capacity - held.length
          · have hBoth : (held ++ bytes).length ≤ capacity := by
              rw [List.length_append]
              omega
            rw [advance_write (.bounded capacity) hFits, ih _ _ hBoth, printed, work,
              List.length_append]
            omega
          · rw [advance_blocked (.bounded capacity) (Nat.lt_of_not_le hFits), printed]
            simp only [Progress.Exited, reduceCtorEq, false_iff]
            omega

end ChildProcess
