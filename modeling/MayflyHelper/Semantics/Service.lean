import Mathlib.Data.List.Basic

/-! Services that answer one input at a time. A service is a deterministic
transition with an output; a session is what it does to a list of inputs. -/
namespace Service

variable {State Abstract Input Output : Type} (step : State → Input → Output × State)

/-- The state after serving all inputs. -/
def final (state : State) (inputs : List Input) : State :=
  inputs.foldl (fun state input => (step state input).2) state

/-- Every input with the answer it got, in order. -/
def log : State → List Input → List (Input × Output)
  | _, [] => []
  | state, input :: rest => (input, (step state input).1) :: log (step state input).2 rest

@[simp] theorem final_nil (state : State) : final step state [] = state := rfl

@[simp] theorem final_cons (state : State) (input : Input) (rest : List Input) :
    final step state (input :: rest) = final step (step state input).2 rest := rfl

theorem final_append (state : State) (inputs more : List Input) :
    final step state (inputs ++ more) = final step (final step state inputs) more :=
  List.foldl_append

/-- The condition holds in the state every input is served in. -/
def Along (condition : State → Input → Prop) : State → List Input → Prop
  | _, [] => True
  | state, input :: rest => condition state input ∧ Along condition (step state input).2 rest

instance decidableAlong (condition : State → Input → Prop)
    [∀ state input, Decidable (condition state input)] :
    (state : State) → (inputs : List Input) → Decidable (Along step condition state inputs)
  | _, [] => isTrue trivial
  | state, input :: rest =>
      have := decidableAlong condition (step state input).2 rest
      inferInstanceAs
        (Decidable (condition state input ∧ Along step condition (step state input).2 rest))

variable {step}

theorem along_of_forall {condition : State → Input → Prop}
    (h : ∀ state input, condition state input)
    (state : State) (inputs : List Input) : Along step condition state inputs := by
  induction inputs generalizing state with
  | nil => trivial
  | cons input rest ih => exact ⟨h state input, ih _⟩

/-- What every step keeps, under a condition met along the session, holds at
the end. -/
theorem final_of_along {condition : State → Input → Prop} (inv : State → Prop)
    (hStep : ∀ state input, inv state → condition state input → inv (step state input).2)
    {state : State} {inputs : List Input} (hState : inv state)
    (hAlong : Along step condition state inputs) : inv (final step state inputs) := by
  induction inputs generalizing state with
  | nil => exact hState
  | cons input rest ih => exact ih (hStep state input hState hAlong.1) hAlong.2

theorem final_invariant (inv : State → Prop)
    (hStep : ∀ state input, inv state → inv (step state input).2)
    {state : State} (hState : inv state) (inputs : List Input) : inv (final step state inputs) :=
  final_of_along inv (fun state input h _ => hStep state input h) hState
    (along_of_forall (fun _ _ => trivial) state inputs : Along step (fun _ _ => True) state inputs)

/-- Forward simulation. The abstract machine moves by the input and the
answer it got. -/
theorem final_simulates {move : Abstract → Input × Output → Abstract}
    (related : State → Abstract → Prop)
    (hStep : ∀ state abstract input, related state abstract →
      related (step state input).2 (move abstract (input, (step state input).1)))
    {state : State} {abstract : Abstract} (hRelated : related state abstract)
    (inputs : List Input) :
    related (final step state inputs) ((log step state inputs).foldl move abstract) := by
  induction inputs generalizing state abstract with
  | nil => exact hRelated
  | cons input rest ih => exact ih (hStep state abstract input hRelated)

section Deletion

variable {keep : Input → Bool}
  (hIdle : ∀ state input, keep input = false → (step state input).2 = state)

include hIdle

theorem final_filter (state : State) (inputs : List Input) :
    final step state (inputs.filter keep) = final step state inputs := by
  induction inputs generalizing state with
  | nil => rfl
  | cons input rest ih =>
      cases hKeep : keep input with
      | true => simp only [List.filter_cons, hKeep, if_true, final_cons, ih]
      | false => simp [hKeep, ih, hIdle state input hKeep]

theorem log_filter (state : State) (inputs : List Input) :
    log step state (inputs.filter keep) =
      (log step state inputs).filter (fun entry => keep entry.1) := by
  induction inputs generalizing state with
  | nil => rfl
  | cons input rest ih =>
      cases hKeep : keep input with
      | true => simp only [List.filter_cons, hKeep, if_true, log, ih]
      | false => simp [hKeep, log, ih, hIdle state input hKeep]

end Deletion
end Service
