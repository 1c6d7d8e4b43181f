import Mathlib.Logic.Relation

/-! Systems of several actors that move one at a time. An action may be
disabled; a run is the moves made, and what can still be reached depends on
whose actions are allowed. -/
namespace Moves

variable {State Action : Type} (step : State → Action → Option State)

/-- One step of a run. -/
structure Move where
  before : State
  action : Action
  after : State
  taken : step before action = some after

/-- The runs from `start`. -/
inductive Run (start : State) : State → Type where
  | zero : Run start start
  | succ {before after : State} (prior : Run start before) (action : Action)
      (last : step before action = some after) : Run start after

variable {step}

/-- The moves of a run, in order. -/
def Run.moves {start finish : State} : Run step start finish → List (Move step)
  | .zero => []
  | .succ prior action last => prior.moves ++ [⟨_, action, _, last⟩]

variable (step) in
/-- Some allowed actions lead from one state to the other. -/
def CanReach (allowed : Action → Prop) : State → State → Prop :=
  Relation.ReflTransGen fun before after => ∃ action, allowed action ∧
    step before action = some after

theorem CanReach.refl {allowed : Action → Prop} (state : State) :
    CanReach step allowed state state :=
  Relation.ReflTransGen.refl

theorem CanReach.tail {allowed : Action → Prop} {start before after : State}
    (h : CanReach step allowed start before) (action : Action) (hAllowed : allowed action)
    (hStep : step before action = some after) :
    CanReach step allowed start after :=
  Relation.ReflTransGen.tail h ⟨action, hAllowed, hStep⟩

theorem CanReach.mono {allowed wider : Action → Prop} {start finish : State}
    (h : CanReach step allowed start finish)
    (hWider : ∀ action, allowed action → wider action) : CanReach step wider start finish :=
  Relation.ReflTransGen.mono (fun _ _ ⟨action, hAllowed, hStep⟩ =>
    ⟨action, hWider action hAllowed, hStep⟩) _ _ h

/-- What every allowed action keeps holds wherever they lead. -/
theorem CanReach.invariant {allowed : Action → Prop} {start finish : State} (inv : State → Prop)
    (hStep : ∀ m : Move step, allowed m.action → inv m.before → inv m.after)
    (h : CanReach step allowed start finish) (hStart : inv start) : inv finish := by
  induction h with
  | refl => exact hStart
  | tail _ hLast ih =>
      obtain ⟨action, hAllowed, hTaken⟩ := hLast
      exact hStep ⟨_, action, _, hTaken⟩ hAllowed ih

/-- What every move of a kind keeps holds before and after every move of a
run that makes only such moves. -/
theorem Run.invariant {start finish : State} (inv : State → Prop) (kind : Move step → Prop)
    (hStep : ∀ m : Move step, kind m → inv m.before → inv m.after) (run : Run step start finish)
    (hKind : ∀ m ∈ run.moves, kind m) (hStart : inv start) :
    inv finish ∧ ∀ m ∈ run.moves, inv m.before ∧ inv m.after := by
  induction run with
  | zero => exact ⟨hStart, by simp [moves]⟩
  | succ prior action last ih =>
      simp only [moves, List.forall_mem_append, List.forall_mem_singleton] at hKind ⊢
      obtain ⟨hBefore, hPrior⟩ := ih hKind.1
      have hAfter := hStep ⟨_, action, _, last⟩ hKind.2 hBefore
      exact ⟨hAfter, hPrior, hBefore, hAfter⟩

end Moves
