import Rotshield.Basic

/-! Freezing a (possibly absent) live filesystem around one batch's writes. -/
namespace Rotshield

structure FreezeController where
  mountpoint : Option Path
  /-- A freeze is held. It stays set after a failed thaw, so that a drop retries. -/
  frozen : Bool
  lastThawError : Option IoError
  deriving DecidableEq, Repr

namespace FreezeController

/-- No mountpoint means an offline image, which is never frozen. -/
def new (mountpoint : Option Path) : FreezeController where
  mountpoint
  frozen := false
  lastThawError := none

def hasLiveMount (c : FreezeController) : Bool := c.mountpoint.isSome

/-- The controller after FIFREEZE succeeded. -/
def froze (c : FreezeController) : FreezeController := { c with frozen := true }

def released (c : FreezeController) : FreezeController := { c with frozen := false }

def clearThawError (c : FreezeController) : FreezeController := { c with lastThawError := none }

/-- The controller after FITHAW returned. A failure is recorded. -/
def thawed (c : FreezeController) : Except IoError Unit → FreezeController
  | .ok () => c.released
  | .error e => { c with lastThawError := some e }

@[simp] theorem froze_mountpoint (c : FreezeController) : c.froze.mountpoint = c.mountpoint := rfl

@[simp] theorem released_mountpoint (c : FreezeController) :
    c.released.mountpoint = c.mountpoint := rfl

@[simp] theorem clearThawError_mountpoint (c : FreezeController) :
    c.clearThawError.mountpoint = c.mountpoint := rfl

@[simp] theorem thawed_mountpoint (c : FreezeController) (r : Except IoError Unit) :
    (c.thawed r).mountpoint = c.mountpoint := by
  cases r <;> rfl

end FreezeController
end Rotshield
