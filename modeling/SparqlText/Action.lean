/-
# Actions

What is done to a state step by step, until a step fails. A failure takes nothing back: the
state is then whatever the steps before it have made of it. So an operation that is to leave
no trace where it fails has to make its last check before its first change, or to work on a
copy.
-/

import SparqlText.Refusal

namespace SparqlText

/-- Steps on a state. They end in a result or in an error, and in a state either way. -/
abbrev Action (State : Type) : Type → Type := EStateM Error State

namespace Action

variable {State Result : Type}

/-- A step that neither asks for the state nor changes it. -/
def ofExcept : Except Error Result → Action State Result
  | .ok result => pure result
  | .error reason => throw reason

/-- A step that fails where a condition does not hold. -/
def require (condition : Bool) (reason : Error) : Action State Unit :=
  if condition then pure () else throw reason

/-- What an action makes of a state of its own, which is lost where the action fails. -/
def outcome (action : Action State Result) (state : State) : Except Error (State × Result) :=
  match action state with
  | .ok result next => .ok (next, result)
  | .error reason _ => .error reason

/-- Where the action fails, the state is as it was. -/
def Traceless (action : Action State Result) : Prop :=
  ∀ state reason next, action state = .error reason next → next = state

theorem Traceless.apply_eq {action : Action State Result} (traceless : action.Traceless)
    (state : State) :
    action state =
      match action.outcome state with
      | .error reason => .error reason state
      | .ok (next, result) => .ok result next := by
  rw [outcome]
  cases taken : action state with
  | ok result next => rfl
  | error reason next => rw [traceless state reason next taken]

/-! ## One step after the other -/

variable {Next : Type} (rest : Result → Action State Next) (state : State)

/-- After a step that succeeds the others go on from its state, and a failure is final. -/
theorem bind_apply (first : Action State Result) :
    (first >>= rest) state =
      match first state with
      | .ok result next => rest result next
      | .error reason next => .error reason next := by
  cases taken : first state <;> simp only [bind, EStateM.bind, taken]

theorem get_bind (rest : State → Action State Next) :
    (get >>= rest) state = rest state state := rfl

theorem ofExcept_bind (verdict : Except Error Result) :
    (ofExcept verdict >>= rest) state =
      match verdict with
      | .ok result => rest result state
      | .error reason => .error reason state := by
  cases verdict with
  | ok result => rfl
  | error reason => rfl

theorem refusable_bind (verdict : Except Refusal Result) :
    (ofExcept (orRefused verdict) >>= rest) state =
      match verdict with
      | .ok result => rest result state
      | .error reason => .error (.refused reason) state := by
  cases verdict with
  | ok result => rfl
  | error reason => rfl

theorem require_bind (condition : Bool) (reason : Error) (rest : Unit → Action State Next) :
    (require condition reason >>= rest) state =
      if condition then rest () state else .error reason state := by
  cases condition with
  | false => rfl
  | true => rfl

end Action

end SparqlText
