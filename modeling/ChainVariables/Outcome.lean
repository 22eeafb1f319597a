/-! # How a call ends

A call may return a value or an error. It may also crash: it then stops with a
message and neither result. And it may still be waiting for an answer that has
not come.
-/

namespace ChainVariables

/-- The end of a call. -/
inductive Outcome (ε α : Type) where
  | ok (value : α)
  | error (reason : ε)
  /-- The call stopped with a message and returned nothing. -/
  | crashed (message : String)
  /-- The call has not returned. -/
  | waiting
  deriving DecidableEq, Repr

namespace Outcome

variable {ε ε' α β : Type}

def ofExcept : Except ε α → Outcome ε α
  | .ok value => .ok value
  | .error reason => .error reason

def mapError (image : ε → ε') : Outcome ε α → Outcome ε' α
  | ok value => ok value
  | error reason => error (image reason)
  | crashed message => crashed message
  | waiting => waiting

/-- Goes on with the value of a call. -/
protected def bind (outcome : Outcome ε α) (next : α → Outcome ε β) : Outcome ε β :=
  match outcome with
  | ok value => next value
  | error reason => error reason
  | crashed message => crashed message
  | waiting => waiting

instance : Monad (Outcome ε) where
  pure := ok
  bind := Outcome.bind

/-- Whether the call returned, be it a value or an error. -/
def returned : Outcome ε α → Bool
  | ok _ | error _ => true
  | crashed _ | waiting => false

end Outcome

end ChainVariables
