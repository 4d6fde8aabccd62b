/-!
# Attempts

Steps on a state that may fail. The state is still there after a failure, so whether a failed
step leaves it as it was is a property of the step and not of its type.
-/
namespace Schemata

/-- A step on states of type `σ` that gives an answer or fails with an `ε`. -/
abbrev Attempt (σ ε : Type) :=
  ExceptT ε (StateM σ)

namespace Attempt

variable {σ ε α : Type}

/-- What becomes of a state: the step's answer or failure, and the state after it. -/
def outcome (step : Attempt σ ε α) (state : σ) : Except ε α × σ :=
  StateT.run (ExceptT.run step) state

def ofExcept (answer : Except ε α) : Attempt σ ε α :=
  ExceptT.mk (pure answer)

/-- Gives what a look at the state gives, without changing it. -/
def look (question : σ → Except ε α) : Attempt σ ε α := do
  ofExcept (question (← get))

end Attempt
end Schemata
