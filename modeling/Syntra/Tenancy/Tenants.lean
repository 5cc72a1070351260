import Mathlib.Data.Finset.Basic
import Mathlib.Data.Finset.Dedup
import Syntra.Lib.Text
import Syntra.Proto

/-!
# Tenants and their keys

The data of tenants, prices and API keys, and the texts in which the database keeps
plans and scopes.
-/

set_option autoImplicit false

namespace Syntra

namespace Tenancy

/-! ## Scopes -/

inductive Scope where
  | compress | read | delete | admin
  deriving Repr, DecidableEq

namespace Scope

def asStr : Scope → String
  | .compress => "compress"
  | .read => "read"
  | .delete => "delete"
  | .admin => "admin"

def parse (s : String) : Option Scope :=
  match Text.toAsciiLowercase (Text.trim s) with
  | "compress" | "write" => some .compress
  | "read" => some .read
  | "delete" => some .delete
  | "admin" => some .admin
  | _ => none

def all : List Scope := [.compress, .read, .delete, .admin]

theorem parse_asStr (scope : Scope) : parse scope.asStr = some scope := by
  cases scope <;> decide

theorem mem_all (scope : Scope) : scope ∈ all := by
  cases scope <;> decide

end Scope

abbrev Scopes := Finset Scope

def scopesToString (scopes : Scopes) : String :=
  Text.join ',' ((Scope.all.filter (· ∈ scopes)).map Scope.asStr)

def scopesFromString (raw : String) : Scopes :=
  ((Text.split ',' raw).filterMap Scope.parse).toFinset

theorem scopesFromString_toString (scopes : Scopes) :
    scopesFromString (scopesToString scopes) = scopes := by
  have texts : ∀ part ∈ (Scope.all.filter (· ∈ scopes)).map Scope.asStr, ',' ∉ part.toList := by
    intro part member
    obtain ⟨scope, -, rfl⟩ := List.mem_map.mp member
    cases scope <;> decide
  have parts : (Text.split ',' (scopesToString scopes)).filterMap Scope.parse =
      Scope.all.filter (· ∈ scopes) := by
    by_cases filled : (Scope.all.filter (· ∈ scopes)).map Scope.asStr = []
    · rw [scopesToString, filled, List.map_eq_nil_iff.mp filled]
      decide
    · rw [scopesToString, Text.split_join filled texts, List.filterMap_map]
      simp [Scope.parse_asStr]
  rw [scopesFromString, parts]
  ext scope
  simp [Scope.mem_all]

/-! ## Plans and prices -/

inductive PlanKind where
  | savingsShare | ingestedGb
  deriving Repr, DecidableEq

namespace PlanKind

def asStr : PlanKind → String
  | .savingsShare => "savings_share"
  | .ingestedGb => "ingested_gb"

def parse (s : String) : Option PlanKind :=
  match Text.toAsciiLowercase (Text.trim s) with
  | "savings_share" | "savings" => some .savingsShare
  | "ingested_gb" | "ingested" => some .ingestedGb
  | _ => none

theorem parse_asStr (plan : PlanKind) : parse plan.asStr = some plan := by
  cases plan <;> decide

end PlanKind

inductive Currency where
  | brl | usd
  deriving Repr, DecidableEq

def Currency.asStr : Currency → String
  | .brl => "BRL"
  | .usd => "USD"

structure PerEffortCents where
  fast : F64
  balanced : F64
  max : F64
  deriving Repr, DecidableEq

def PerEffortCents.forEffort (cents : PerEffortCents) : String → F64
  | "fast" => cents.fast
  | "max" => cents.max
  | _ => cents.balanced

structure PriceConfig where
  sharePct : F64
  referenceGbMonthCents : F64
  perGbCents : PerEffortCents
  currency : Currency
  deriving Repr, DecidableEq

/-- 30%, 12 cents, and 150, 400 and 1600 cents. -/
def PriceConfig.default : PriceConfig where
  sharePct := 0x403e000000000000
  referenceGbMonthCents := 0x4028000000000000
  perGbCents :=
    { fast := 0x4062c00000000000, balanced := 0x4079000000000000, max := 0x4099000000000000 }
  currency := .brl

structure Tenant where
  id : String
  name : String
  plan : PlanKind
  price : PriceConfig
  active : Bool
  createdAtMs : Int
  deriving Repr, DecidableEq

end Tenancy

end Syntra
