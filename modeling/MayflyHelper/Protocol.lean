import MayflyHelper.Errors
import Mathlib.Algebra.Group.Nat.Defs

/-! The agent-helper socket protocol: message types, framing and the token
comparison. The JSON encoding of messages is a parameter of the server. -/
namespace MayflyHelper

/-- The socket protocol version. -/
def protocolVersion : UInt32 := 1

/-- Maximum accepted body size of a framed message. -/
def maxBodyBytes : Nat := 1024 * 1024

inductive Operation where
  | ping
  | ensureDirectories
  | installSshdDropin
  | applyTrustedCaKeys
  | verifyState
  deriving DecidableEq, Repr

/-- A request from the agent. -/
structure Request where
  protocolVersion : UInt32
  token : Text
  op : Operation
  content : Option Text
  deriving DecidableEq, Repr

inductive Outcome where
  | ok
  | applied
  | rolledBack
  | notModified
  | unhealthy
  deriving DecidableEq, Repr

structure Response where
  ok : Bool
  outcome : Outcome
  helperVersion : Option Text
  detail : Option Text
  deriving DecidableEq, Repr

namespace Response

def success (outcome : Outcome) : Response :=
  { ok := true, outcome, helperVersion := none, detail := none }

def failure (outcome : Outcome) (detail : Text) : Response :=
  { ok := false, outcome, helperVersion := none, detail := some detail }

@[simp] theorem success_ok (outcome : Outcome) : (success outcome).ok = true := rfl

@[simp] theorem failure_ok (outcome : Outcome) (detail : Text) :
    (failure outcome detail).ok = false := rfl

@[simp] theorem success_outcome (outcome : Outcome) : (success outcome).outcome = outcome := rfl

@[simp] theorem failure_outcome (outcome : Outcome) (detail : Text) :
    (failure outcome detail).outcome = outcome := rfl

end Response

/-- `read_exact`. The stream is the bytes the peer delivers before it closes
or the read times out; on a short one everything left is consumed. -/
def readExact (count : Nat) (stream : Bytes) : Option Bytes × Bytes :=
  if count ≤ stream.length then (some (stream.take count), stream.drop count) else (none, [])

/-- `u32::from_be_bytes`. -/
def fromBeBytes (bytes : Bytes) : Nat := bytes.foldl (fun value b => value * 256 + b.toNat) 0

/-- `u32::to_be_bytes`. -/
def toBeBytes (n : Nat) : Bytes :=
  [UInt8.ofNat (n / 2 ^ 24), UInt8.ofNat (n / 2 ^ 16), UInt8.ofNat (n / 2 ^ 8), UInt8.ofNat n]

/-- Read a frame; the second component is what is left of the stream. -/
def readFrame (stream : Bytes) : Except Error Bytes × Bytes :=
  match readExact 4 stream with
  | (none, rest) => (.error .helperUnavailable, rest)
  | (some header, rest) =>
      let len := fromBeBytes header
      if len > maxBodyBytes then (.error .helperProtocol, rest)
      else
        match readExact len rest with
        | (none, rest) => (.error .helperUnavailable, rest)
        | (some body, rest) => (.ok body, rest)

/-- The bytes `write_frame` puts on a writer that accepts them. -/
def writeFrame (body : Bytes) : Except Error Bytes :=
  if body.length > maxBodyBytes then .error .helperProtocol
  else if body.length ≥ 2 ^ 32 then .error .helperProtocol
  else .ok (toBeBytes body.length ++ body)

/-- The accumulated difference of two byte strings: no branch on contents. -/
def byteDifference (a b : Bytes) : UInt8 :=
  (a.zip b).foldl (fun diff pair => diff ||| (pair.1 ^^^ pair.2)) 0

def constantTimeEq (a b : Bytes) : Bool :=
  if a.length ≠ b.length then false else byteDifference a b == 0

private theorem or_eq_zero_iff (x y : UInt8) : x ||| y = 0 ↔ x = 0 ∧ y = 0 := by
  rw [← UInt8.toBitVec_inj, ← UInt8.toBitVec_inj, ← UInt8.toBitVec_inj, UInt8.toBitVec_or]
  exact BitVec.or_eq_zero_iff

/-- The accumulator never loses a set bit, so it stays zero exactly when all
pairs of bytes agree. -/
private theorem foldl_difference (pairs : List (UInt8 × UInt8)) (diff : UInt8) :
    pairs.foldl (fun diff pair => diff ||| (pair.1 ^^^ pair.2)) diff = 0 ↔
      diff = 0 ∧ ∀ pair ∈ pairs, pair.1 = pair.2 := by
  induction pairs generalizing diff with
  | nil => simp
  | cons pair pairs ih =>
      rw [List.foldl_cons, ih, or_eq_zero_iff, UInt8.xor_eq_zero_iff]
      simp [and_assoc]

/-- The branch-free comparison is byte equality. -/
theorem constantTimeEq_iff (a b : Bytes) : constantTimeEq a b = true ↔ a = b := by
  unfold constantTimeEq
  split
  · rename_i hLength
    simp only [Bool.false_eq_true, false_iff]
    rintro rfl
    exact hLength rfl
  · rename_i hLength
    rw [beq_iff_eq, byteDifference, foldl_difference]
    simp only [true_and]
    constructor
    · intro hPairs
      apply List.ext_getElem (by simpa using hLength)
      intro i ha hb
      exact hPairs (a.get ⟨i, ha⟩, b.get ⟨i, hb⟩)
        (List.mem_iff_getElem.mpr ⟨i, by simp only [List.length_zip]; omega, by simp⟩)
    · rintro rfl pair hPair
      obtain ⟨i, hi, he⟩ := List.mem_iff_getElem.mp hPair
      rw [← he]
      simp

end MayflyHelper
