import Mathlib.Data.Fintype.Basic
import MayflyHelper.Semantics.Service

/-! Several helper processes on one socket path. Each goes through
`HelperServer::run` one system call at a time, and other processes may put
anything at the path in between. -/
namespace MayflyHelper

/-- What can be at the socket path. The sockets that instances bound are
numbered in the order of their binding. -/
inductive SocketEntry where
  | socket (number : Nat)
  | foreignSocket
  | file
  | symlink
  | directory
  deriving DecidableEq, Repr

def SocketEntry.isSocket : SocketEntry → Bool
  | .socket _ => true
  | .foreignSocket => true
  | _ => false

/-- The number of a socket that an instance bound. -/
def SocketEntry.number? : SocketEntry → Option Nat
  | .socket number => some number
  | _ => none

/-- The calls between the binding of the socket and the accept loop. -/
inductive Setting where
  | chown
  | setSocketMode
  | setNonblocking
  deriving DecidableEq, Repr

/-- The group of the socket is set only if one is configured. -/
def Setting.first (socketGid : Option Nat) : Setting :=
  if socketGid.isSome then .chown else .setSocketMode

/-- Where an instance is in `HelperServer::run`, by the call it makes next. An
instance that is about to remove a stale socket knows what its
`symlink_metadata` showed it; one that has bound its socket listens on it
until it ends. -/
inductive Phase where
  | idle
  | prepare
  | symlinkMetadata
  | removeStale (seen : SocketEntry)
  | bind
  | configure (number : Nat) (setting : Setting)
  | accept (number : Nat)
  | shutdown (number : Nat)
  deriving DecidableEq, Repr

def Setting.next (number : Nat) : Setting → Phase
  | .chown => .configure number .setSocketMode
  | .setSocketMode => .configure number .setNonblocking
  | .setNonblocking => .accept number

/-- The socket an instance listens on. -/
def Phase.listening : Phase → Option Nat
  | .configure number _ => some number
  | .accept number => some number
  | .shutdown number => some number
  | _ => none

/-- What an instance whose next call is `remove_file` takes the entry at the
path for: the socket it saw there, or its own. -/
def Phase.expects : Phase → Option SocketEntry
  | .removeStale seen => some seen
  | .shutdown number => some (.socket number)
  | _ => none

/-- The entry at the path, who bound the sockets that were bound so far, and
where every instance is. -/
structure Instances (ι : Type) where
  entry : Option SocketEntry
  bound : List ι
  phase : ι → Phase

/-- A socket of an instance exists from its binding on. -/
def SocketEntry.canExist (bound : Nat) (entry : SocketEntry) : Bool :=
  entry.number?.all (· < bound)

namespace Instances

variable {ι : Type} [DecidableEq ι]

/-- One step of the system: an instance starts, makes its next call, sees the
stop flag or dies; or somebody else replaces what is at the path. A call may
be made to fail. -/
inductive Event (ι : Type) where
  | start (i : ι)
  | call (i : ι) (fails : Bool)
  | stop (i : ι)
  | crash (i : ι)
  | replace (entry : Option SocketEntry)
  deriving DecidableEq

/-- The instance whose call a step is. -/
def Event.caller : Event ι → Option ι
  | .call i _ => some i
  | _ => none

def moveTo (s : Instances ι) (i : ι) (phase : Phase) : Instances ι :=
  { s with phase := Function.update s.phase i phase }

/-- `remove_file` on the socket path: it removes anything but a directory, and
looks at nothing. -/
def removeFile (s : Instances ι) (i : ι) (fails : Bool) (onOk onError : Phase) :
    Option SocketEntry × Instances ι :=
  match s.entry.filter (fun entry => !fails && entry != .directory) with
  | some entry => (some entry, { s.moveTo i onOk with entry := none })
  | none => (none, s.moveTo i onError)

/-- The next call of an instance. The first component is what it removed. -/
def call (socketGid : Option Nat) (s : Instances ι) (i : ι) (fails : Bool) :
    Option SocketEntry × Instances ι :=
  match s.phase i with
  | .idle => (none, s)
  | .prepare => (none, s.moveTo i (if fails then .idle else .symlinkMetadata))
  | .symlinkMetadata =>
      if fails then (none, s.moveTo i .idle)
      else
        match s.entry with
        | some entry => (none, s.moveTo i (if entry.isSocket then .removeStale entry else .idle))
        | none => (none, s.moveTo i .bind)
  | .removeStale _ => s.removeFile i fails .bind .idle
  | .bind =>
      -- The name must be free: an existing entry is never replaced.
      if fails || s.entry.isSome then (none, s.moveTo i .idle)
      else
        (none,
          { s.moveTo i (.configure s.bound.length (Setting.first socketGid)) with
            entry := some (.socket s.bound.length), bound := s.bound ++ [i] })
  | .configure number setting => (none, s.moveTo i (if fails then .idle else setting.next number))
  | .accept _ => (none, s)
  | .shutdown _ => s.removeFile i fails .idle .idle

def step (socketGid : Option Nat) (s : Instances ι) :
    Event ι → Option SocketEntry × Instances ι
  | .start i => (none, if s.phase i = .idle then s.moveTo i .prepare else s)
  | .call i fails => s.call socketGid i fails
  | .stop i =>
      match s.phase i with
      | .accept number => (none, s.moveTo i (.shutdown number))
      | _ => (none, s)
  | .crash i => (none, s.moveTo i .idle)
  | .replace entry =>
      -- Nobody can put a socket there that was not bound yet.
      (none, if entry.all (SocketEntry.canExist s.bound.length) then { s with entry } else s)

/-- Every step, with the state it is taken in: nothing, a move of one instance
that only looked, the sight of a socket, a removal, a binding, or a
replacement. -/
inductive Moves (s : Instances ι) : Event ι → Option SocketEntry × Instances ι → Prop where
  | stays (event : Event ι) : Moves s event (none, s)
  | moves (event : Event ι) (i : ι) (phase : Phase) (hPhase : ∀ seen, phase ≠ .removeStale seen)
      (hListening : phase.listening = none ∨ phase.listening = (s.phase i).listening) :
      Moves s event (none, s.moveTo i phase)
  | sees (i : ι) (fails : Bool) (entry : SocketEntry) (hSocket : entry.isSocket = true) :
      Moves s (.call i fails) (none, s.moveTo i (.removeStale entry))
  | removes (i : ι) (entry expected : SocketEntry) (phase : Phase)
      (hEntry : s.entry = some entry) (hKind : entry ≠ .directory)
      (hExpects : (s.phase i).expects = some expected) (hNext : phase = .bind ∨ phase = .idle) :
      Moves s (.call i false) (some entry, { s.moveTo i phase with entry := none })
  | binds (i : ι) (fails : Bool) (setting : Setting) :
      Moves s (.call i fails)
        (none, { s.moveTo i (.configure s.bound.length setting) with
          entry := some (.socket s.bound.length), bound := s.bound ++ [i] })
  | replaced (entry : Option SocketEntry) : Moves s (.replace entry) (none, { s with entry })

/-- An instance that ends has only moved. -/
theorem moves_idle (s : Instances ι) (event : Event ι) (i : ι) :
    Moves s event (none, s.moveTo i .idle) :=
  .moves event i .idle (by simp) (Or.inl rfl)

/-- A `remove_file` removes the entry, whatever the instance takes it for, or
ends the instance. -/
theorem removeFile_moves {s : Instances ι} {i : ι} (fails : Bool) {expected : SocketEntry}
    {onOk : Phase} (hExpects : (s.phase i).expects = some expected)
    (hNext : onOk = .bind ∨ onOk = .idle) :
    Moves s (.call i fails) (s.removeFile i fails onOk .idle) := by
  unfold removeFile
  split
  · rename_i entry hEntry
    obtain ⟨hThere, hRemovable⟩ := Option.filter_eq_some_iff.mp hEntry
    cases fails with
    | true => simp at hRemovable
    | false =>
        exact .removes i entry expected onOk hThere (by simpa using hRemovable) hExpects hNext
  · exact moves_idle s _ i

theorem call_moves (socketGid : Option Nat) (s : Instances ι) (i : ι) (fails : Bool) :
    Moves s (.call i fails) (s.call socketGid i fails) := by
  unfold call
  cases hPhase : s.phase i with
  | idle => exact .stays _
  | prepare =>
      refine .moves _ i _ (fun seen => ?_) (Or.inl ?_)
      · cases fails <;> simp
      · cases fails <;> rfl
  | symlinkMetadata =>
      dsimp only
      split
      · exact moves_idle s _ i
      · split
        · rename_i entry hEntry
          split
          · rename_i hSocket
            exact .sees i fails entry hSocket
          · exact moves_idle s _ i
        · exact .moves _ i .bind (by simp) (Or.inl rfl)
  | removeStale seen => exact removeFile_moves fails (by rw [hPhase]; rfl) (Or.inl rfl)
  | bind =>
      dsimp only
      split
      · exact moves_idle s _ i
      · exact .binds i fails (Setting.first socketGid)
  | configure number setting =>
      cases fails with
      | true => exact moves_idle s _ i
      | false =>
          refine .moves _ i (setting.next number) (fun seen => ?_) (Or.inr ?_)
          · cases setting <;> simp [Setting.next]
          · rw [hPhase]
            cases setting <;> rfl
  | accept number => exact .stays _
  | shutdown number => exact removeFile_moves fails (by rw [hPhase]; rfl) (Or.inr rfl)

theorem step_moves (socketGid : Option Nat) (s : Instances ι) (event : Event ι) :
    Moves s event (step socketGid s event) := by
  cases event with
  | start i =>
      simp only [step]
      split
      · exact .moves _ i .prepare (by simp) (Or.inl rfl)
      · exact .stays _
  | call i fails => exact call_moves socketGid s i fails
  | stop i =>
      simp only [step]
      split
      · rename_i number hPhase
        exact .moves _ i (.shutdown number) (by simp) (Or.inr (by rw [hPhase]; rfl))
      · exact .stays _
  | crash i => exact moves_idle s _ i
  | replace entry =>
      simp only [step]
      split
      · exact .replaced entry
      · exact .stays _

/-- The instance that bound this socket is the caller itself or has ended. -/
def LeftTo (s : Instances ι) (i : ι) (entry : SocketEntry) : Prop :=
  ∀ number ∈ entry.number?, ∀ j ∈ s.bound[number]?, j ≠ i →
    (s.phase j).listening ≠ some number

/-- A `remove_file` that succeeds finds what the instance takes the entry for:
what it saw there, left by an instance that has ended, or its own socket. -/
def Orderly (s : Instances ι) : Event ι → Prop
  | .call i false =>
      ∀ expected ∈ (s.phase i).expects, ∀ entry ∈ s.entry, entry ≠ .directory →
        entry = expected ∧ s.LeftTo i entry
  | _ => True

/-- A step that removes an entry removes a socket, and none that another
running instance listens on. -/
def Harmless (socketGid : Option Nat) (s : Instances ι) (event : Event ι) : Prop :=
  ∀ removed ∈ (step socketGid s event).1,
    removed.isSocket = true ∧
      ∀ i ∈ event.caller, ∀ j, j ≠ i → ∀ number ∈ (s.phase j).listening, removed ≠ .socket number

section Decidable

instance (s : Instances ι) (i : ι) (entry : SocketEntry) : Decidable (s.LeftTo i entry) :=
  inferInstanceAs (Decidable (∀ number ∈ entry.number?, ∀ j ∈ s.bound[number]?, j ≠ i →
    (s.phase j).listening ≠ some number))

instance (s : Instances ι) : (event : Event ι) → Decidable (s.Orderly event)
  | .call i false =>
      inferInstanceAs (Decidable (∀ expected ∈ (s.phase i).expects, ∀ entry ∈ s.entry,
        entry ≠ .directory → entry = expected ∧ s.LeftTo i entry))
  | .call _ true => isTrue trivial
  | .start _ => isTrue trivial
  | .stop _ => isTrue trivial
  | .crash _ => isTrue trivial
  | .replace _ => isTrue trivial

instance [Fintype ι] (socketGid : Option Nat) (s : Instances ι) (event : Event ι) :
    Decidable (s.Harmless socketGid event) :=
  inferInstanceAs (Decidable (∀ removed ∈ (step socketGid s event).1, removed.isSocket = true ∧
    ∀ i ∈ event.caller, ∀ j, j ≠ i → ∀ number ∈ (s.phase j).listening, removed ≠ .socket number))

end Decidable

/-- An instance is about to remove only a socket, and listens only on one that
it bound itself. -/
structure Witnessed (s : Instances ι) : Prop where
  stale : ∀ i seen, s.phase i = .removeStale seen → seen.isSocket = true
  own : ∀ i number, (s.phase i).listening = some number → s.bound[number]? = some i

variable {s : Instances ι} {event : Event ι}

theorem moveTo_phase (s : Instances ι) (i : ι) (phase : Phase) (j : ι) :
    (s.moveTo i phase).phase j = if j = i then phase else s.phase j := by
  simp only [moveTo, Function.update_apply]

/-- Moving an instance brings no new listener about. -/
theorem listening_of_moveTo {i j : ι} {phase : Phase} {number : Nat}
    (hListening : phase.listening = none ∨ phase.listening = (s.phase i).listening)
    (h : ((s.moveTo i phase).phase j).listening = some number) :
    (s.phase j).listening = some number := by
  rw [moveTo_phase] at h
  split at h
  · rename_i hSame
    rw [hSame]
    rcases hListening with hNone | hKept
    · rw [hNone] at h
      cases h
    · rw [← hKept]
      exact h
  · exact h

/-- An instance may move on: to the removal of a socket only, and to no new
socket. -/
theorem Witnessed.moveTo (h : s.Witnessed) {i : ι} {phase : Phase}
    (hStale : ∀ seen, phase = .removeStale seen → seen.isSocket = true)
    (hListening : phase.listening = none ∨ phase.listening = (s.phase i).listening) :
    (s.moveTo i phase).Witnessed where
  stale := by
    intro j seen hj
    rw [moveTo_phase] at hj
    split at hj
    · exact hStale seen hj
    · exact h.stale j seen hj
  own := fun j number hj => h.own j number (listening_of_moveTo hListening hj)

omit [DecidableEq ι] in
/-- What is at the path is no matter of the instances. -/
theorem Witnessed.withEntry (h : s.Witnessed) (entry : Option SocketEntry) :
    ({ s with entry } : Instances ι).Witnessed :=
  ⟨h.stale, h.own⟩

/-- The socket that is bound gets the next number, and the binder's name. -/
theorem Witnessed.binds (h : s.Witnessed) (i : ι) (setting : Setting) :
    ({ s.moveTo i (.configure s.bound.length setting) with
      entry := some (.socket s.bound.length)
      bound := s.bound ++ [i] } : Instances ι).Witnessed where
  stale := by
    intro j seen hj
    change (s.moveTo i (.configure s.bound.length setting)).phase j = .removeStale seen at hj
    rw [moveTo_phase] at hj
    split at hj
    · cases hj
    · exact h.stale j seen hj
  own := by
    intro j number hj
    change ((s.moveTo i (.configure s.bound.length setting)).phase j).listening = some number at hj
    change (s.bound ++ [i])[number]? = some j
    rw [moveTo_phase] at hj
    split at hj
    · rename_i hSame
      cases hj
      rw [hSame, List.getElem?_concat_length]
    · have hBefore := h.own j number hj
      have hBound : number < s.bound.length := (List.getElem?_eq_some_iff.mp hBefore).1
      rw [List.getElem?_append_left hBound]
      exact hBefore

/-- Every step keeps the instances' knowledge right. -/
theorem Witnessed.step (h : s.Witnessed) (socketGid : Option Nat) :
    (step socketGid s event).2.Witnessed := by
  have hMoves := step_moves socketGid s event
  generalize Instances.step socketGid s event = result at hMoves
  cases hMoves with
  | stays => exact h
  | moves _ i phase hPhase hListening =>
      exact h.moveTo (fun seen hSeen => absurd hSeen (hPhase seen)) hListening
  | sees i fails entry hSocket =>
      refine h.moveTo (fun seen hSeen => ?_) (Or.inl rfl)
      cases hSeen
      exact hSocket
  | removes i entry expected phase hEntry hKind hExpects hNext =>
      refine (h.moveTo (fun seen hSeen => ?_) (Or.inl ?_)).withEntry none
      · rcases hNext with rfl | rfl <;> cases hSeen
      · rcases hNext with rfl | rfl <;> rfl
  | binds i fails setting => exact h.binds i setting
  | replaced entry => exact h.withEntry entry

end Instances

open Instances

namespace Instances

/-- An instance starts and makes a number of calls, none of which fails. -/
def goes (i : Bool) (calls : Nat) : List (Event Bool) :=
  .start i :: List.replicate calls (.call i false)

end Instances

end MayflyHelper
