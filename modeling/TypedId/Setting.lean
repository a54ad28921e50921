/-!
# Settings

A field of a request either names its value or defers to the process-wide default.
-/

namespace TypedId

inductive Setting (α : Type) where
  /-- Take the process-wide default. -/
  | deferred
  /-- Take this value. -/
  | explicit (value : α)
deriving DecidableEq, Repr

namespace Setting

variable {α : Type}

/-- The explicit value, or the fallback for a deferred field. -/
def getD : Setting α → α → α
  | deferred, fallback => fallback
  | explicit value, _ => value

def isDeferred : Setting α → Bool
  | deferred => true
  | explicit _ => false

@[simp] theorem getD_explicit (value fallback : α) : (explicit value).getD fallback = value := rfl

end Setting
end TypedId
