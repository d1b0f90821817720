/-!
# Sharing

A value with several owners, of which one at a time may use it.
-/

namespace ScriptBridge

/-- A value, and whether some owner is using it. -/
structure Shared (α : Type) where
  value : α
  isHeld : Bool

namespace Shared

variable {α : Type}

def ofValue (value : α) : Shared α := ⟨value, false⟩

/-- Begins to use the value, unless somebody is using it. -/
def tryAcquire (shared : Shared α) : Option (α × Shared α) :=
  if shared.isHeld then none else some (shared.value, { shared with isHeld := true })

/-- Ends the use of the value and leaves it changed. -/
def giveBack (shared : Shared α) (value : α) : Shared α := { shared with value := value, isHeld := false }

/-- Whether a second user is refused while a first one uses the value. -/
def isExclusive (shared : Shared α) : Bool :=
  (shared.tryAcquire.bind fun acquired => acquired.2.tryAcquire).isNone

end Shared

end ScriptBridge
