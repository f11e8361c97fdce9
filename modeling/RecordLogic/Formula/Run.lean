import RecordLogic.Formula.Registry

namespace RecordLogic.Formula

/-- A function that was called, with its arguments. -/
structure Call where
  name : String
  args : Arguments

/-- What an evaluation did: the calls that it made, in order, and how it ended. -/
structure Run (α : Type) where
  calls : List Call
  outcome : Except EvalError α

namespace Run

variable {α β : Type}

/-- The first run, and the next one with its value unless it failed. -/
def andThen (r : Run α) (next : α → Run β) : Run β :=
  match r.outcome with
  | .ok a => ⟨r.calls ++ (next a).calls, (next a).outcome⟩
  | .error e => ⟨r.calls, .error e⟩

instance : Monad Run where
  pure a := ⟨[], .ok a⟩
  bind := andThen

def fail (e : EvalError) : Run α := ⟨[], .error e⟩

/-- Calls a function under its name. -/
def call (name : String) (f : Function) (args : Arguments) : Run Value :=
  ⟨[⟨name, args⟩], f args⟩

end Run

end RecordLogic.Formula
