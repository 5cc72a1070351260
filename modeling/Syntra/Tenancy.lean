import Syntra.Database

/-!
# Grants

A tenant may read an object while it holds a grant on it; uploading the object
again counts a reference more, deleting it one less.
-/

set_option autoImplicit false

namespace Syntra

/-- What `add_grant` does with the row it found. -/
def addGrantTo (found : Option GrantRow) (tenantId objectHash name : String)
    (originalSize essenceSize nowMs : Int) : Sql (Int × Bool) :=
  match found with
  | some existing =>
    let refs := existing.refs + 1
    (Sql.send (.updateGrant refs nowMs tenantId objectHash)).andThen fun _ => .done (.ok (refs, false))
  | none =>
    (Sql.send (.insertGrant tenantId
      { objectHash, refs := 1, originalSize, essenceSize, name, createdAtMs := nowMs,
        updatedAtMs := nowMs })).andThen fun _ => .done (.ok (1, true))

def addGrant (tenantId objectHash name : String) (originalSize essenceSize nowMs : Int) :
    Sql (Int × Bool) :=
  (Sql.send (.findGrant tenantId objectHash)).andThen fun found =>
    addGrantTo found tenantId objectHash name originalSize essenceSize nowMs

/-- What `release_grant` does with the row it found. -/
def releaseGrantOf (found : Option GrantRow) (tenantId objectHash : String) (purge : Bool)
    (nowMs : Int) : Sql (Option Int) :=
  match found with
  | none => .done (.ok none)
  | some existing =>
    if !purge && decide (1 < existing.refs) then
      let refs := existing.refs - 1
      (Sql.send (.updateGrant refs nowMs tenantId objectHash)).andThen fun _ =>
        .done (.ok (some refs))
    else
      (Sql.send (.deleteGrant tenantId objectHash)).andThen fun _ => .done (.ok (some 0))

def releaseGrant (tenantId objectHash : String) (purge : Bool) (nowMs : Int) :
    Sql (Option Int) :=
  (Sql.send (.findGrant tenantId objectHash)).andThen fun found =>
    releaseGrantOf found tenantId objectHash purge nowMs

def countGrantsForObject (objectHash : String) : Sql Nat :=
  Sql.send (.countGrants objectHash)

end Syntra
