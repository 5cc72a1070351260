import Syntra.Database

/-!
# The ledger

Usage events, at most one for each tenant and idempotency key.
-/

set_option autoImplicit false

namespace Syntra

namespace Usage

def findByIdempotency (tenantId key : String) : Sql (Option StoredEvent) :=
  Sql.send (.findEvent tenantId key)

/-- After an insertion that failed: another call may have recorded the event. -/
def lookAgain (event : UsageEvent) (e : DbError) : Sql Bool :=
  let failed : Sql Bool := .done (.error s!"gravando evento de uso: {e}")
  match event.idempotencyKey with
  | none => failed
  | some key =>
    (findByIdempotency event.tenantId key).andThen fun found =>
      if found.isSome then .done (.ok false) else failed

def insertEvent (event : UsageEvent) : Sql Bool :=
  (Sql.send (.insertEvent event)).bind fun
    | .ok _ => .done (.ok true)
    | .error e => lookAgain event e

def record (event : UsageEvent) : Sql Bool :=
  match event.idempotencyKey with
  | none => insertEvent event
  | some key =>
    (findByIdempotency event.tenantId key).andThen fun found =>
      if found.isSome then .done (.ok false) else insertEvent event

end Usage

end Syntra
