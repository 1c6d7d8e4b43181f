import Mathlib.Algebra.Ring.Int.Defs
import Mathlib.Algebra.Ring.Nat
import Mathlib.Data.Int.Order.Basic

/-! Time as a monotonic clock shows it: spans and instants of fixed width,
with the addition that can overflow. -/
namespace Clock

def nanosPerSec : Nat := 1000000000

theorem nanosPerSec_pos : 0 < nanosPerSec := by decide

/-- A span of time. -/
structure Duration where
  secs : UInt64
  nanos : Nat
  nanosLt : nanos < nanosPerSec
  deriving DecidableEq

namespace Duration

def fromSecs (secs : UInt64) : Duration := ⟨secs, 0, nanosPerSec_pos⟩

def fromMillis (millis : UInt64) : Duration :=
  ⟨millis / 1000, (millis.toNat % 1000) * 1000000, by unfold nanosPerSec; omega⟩

def nanoseconds (span : Duration) : Nat := span.secs.toNat * nanosPerSec + span.nanos

end Duration

/-- A point of time, in signed 64-bit seconds and nanoseconds. -/
structure Instant where
  secs : Int
  nanos : Nat
  secsGe : -2 ^ 63 ≤ secs
  secsLt : secs < 2 ^ 63
  nanosLt : nanos < nanosPerSec
  deriving DecidableEq

namespace Instant

/-- `Instant::checked_add`; the operator `+` panics where this has no result. -/
def checkedAdd (start : Instant) (span : Duration) : Option Instant :=
  if hSecs : start.secs + span.secs.toNat < 2 ^ 63 then
    if hNanos : start.nanos + span.nanos < nanosPerSec then
      some ⟨start.secs + span.secs.toNat, start.nanos + span.nanos,
        by have := start.secsGe; omega, hSecs, hNanos⟩
    else if hCarry : start.secs + span.secs.toNat + 1 < 2 ^ 63 then
      some ⟨start.secs + span.secs.toNat + 1, start.nanos + span.nanos - nanosPerSec,
        by have := start.secsGe; omega, hCarry,
        by have := start.nanosLt; have := span.nanosLt; omega⟩
    else none
  else none

/-- The order of the clock: seconds first. -/
instance : LE Instant where
  le a b := a.secs < b.secs ∨ a.secs = b.secs ∧ a.nanos ≤ b.nanos

instance (a b : Instant) : Decidable (a ≤ b) :=
  inferInstanceAs (Decidable (a.secs < b.secs ∨ a.secs = b.secs ∧ a.nanos ≤ b.nanos))

def nanoseconds (instant : Instant) : Int := instant.secs * nanosPerSec + instant.nanos

theorem le_iff (a b : Instant) : a ≤ b ↔ a.nanoseconds ≤ b.nanoseconds := by
  have ha := a.nanosLt
  have hb := b.nanosLt
  show (a.secs < b.secs ∨ a.secs = b.secs ∧ a.nanos ≤ b.nanos) ↔ _
  unfold nanoseconds nanosPerSec at *
  omega

/-- The latest instant there is. -/
def last : Instant := ⟨2 ^ 63 - 1, nanosPerSec - 1, by decide, by decide, by decide⟩

theorem le_last (instant : Instant) : instant.nanoseconds ≤ last.nanoseconds := by
  have hSecs := instant.secsLt
  have hNanos := instant.nanosLt
  show instant.secs * nanosPerSec + instant.nanos ≤ (2 ^ 63 - 1) * nanosPerSec +
    (nanosPerSec - 1 : Nat)
  unfold nanosPerSec at *
  omega

/-- Whole seconds are added without a carry. -/
theorem isSome_checkedAdd_fromSecs (start : Instant) (secs : UInt64) :
    (start.checkedAdd (.fromSecs secs)).isSome = true ↔ start.secs + secs.toNat < 2 ^ 63 := by
  have hNanos : start.nanos + (Duration.fromSecs secs).nanos < nanosPerSec := start.nanosLt
  unfold checkedAdd
  simp only [dif_pos hNanos]
  by_cases hSecs : start.secs + secs.toNat < 2 ^ 63
  · simp only [hSecs, iff_true]
    exact congrArg Option.isSome (dif_pos hSecs)
  · simp only [hSecs, iff_false, Bool.not_eq_true]
    exact congrArg Option.isSome (dif_neg hSecs)

/-- What a clock shows that has run for `time` nanoseconds; it stops at the
last instant. -/
def reading (time : Nat) : Instant :=
  if hTime : time / nanosPerSec < 2 ^ 63 then
    ⟨(time / nanosPerSec : Nat), time % nanosPerSec, le_trans (by decide) (Int.natCast_nonneg _),
      by exact_mod_cast hTime, Nat.mod_lt _ (by decide)⟩
  else last

theorem nanoseconds_reading (time : Nat) : (reading time).nanoseconds = min
    (time : Int) last.nanoseconds := by
  have hLast : last.nanoseconds = (2 ^ 63 - 1) * nanosPerSec + (nanosPerSec - 1 : Nat) := rfl
  rw [hLast]
  unfold reading
  split
  · rename_i hTime
    simp only [nanoseconds, nanosPerSec] at hTime ⊢
    omega
  · rename_i hTime
    rw [hLast]
    simp only [nanosPerSec] at hTime ⊢
    omega

/-- The clock has reached an instant when its time has. -/
theorem le_reading_iff (instant : Instant) (time : Nat) :
    instant ≤ reading time ↔ instant.nanoseconds ≤ time := by
  rw [le_iff, nanoseconds_reading]
  have := le_last instant
  omega

end Instant

end Clock
