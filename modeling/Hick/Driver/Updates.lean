import Mathlib
import Hick.Endpoint.Handles

/-!
# What a service has for its driver (hick-reactor/src/driver/mod.rs:912-965,
hick-compio/src/driver/mod.rs:700-750, hick-mio/src/driver.rs:1409-1452,
hick-smoltcp/src/engine/mod.rs:2145-2214)

Every driver reads the updates of a service one after another, until there is none left or one of
them ends the service.
-/

namespace Hick
open Octets Wire Respond

def ServiceUpdate.isTerminal : ServiceUpdate → Bool
  | conflict | hostConflict => true
  | established | renamed _ => false

namespace Service
variable {I R : Type} {EV : Type → Type} [Instant I] [SeedableRng R] [Pool EV]

def waiting (s : Service I R EV) : List Nat := ((Pool.iter s.pendingUpdates).map Prod.fst).dedup

end Service

namespace Endpoint
variable {I G R : Type} {SR EV : Type → Type} [Instant I] [SeedSource G] [SeedableRng R]
  [Pool SR] [Pool EV]

def pendingUpdates (e : Endpoint I G R SR EV) (handle : ServiceHandle) : Nat :=
  match (e.serviceKey handle).bind e.route with
  | some route => route.proto.waiting.length
  | none => 0

end Endpoint
end Hick
