import Syntra.Tenancy.Tenants
import Syntra.Usage.Totals

/-!
# Quotes

The price of a report under the two plans.  Floating-point arithmetic is a
parameter; which integers of a report enter it is what matters here.
-/

set_option autoImplicit false

namespace Syntra

open Tenancy

namespace Usage

/-- The operations on `f64` that quotes use. -/
structure Doubles where
  ofI64 : Int → F64
  /-- `as i64`. -/
  toI64 : F64 → Int
  mul : F64 → F64 → F64
  div : F64 → F64 → F64
  round : F64 → F64
  display : F64 → String

/-- Neither infinite nor a NaN: the exponent is not all ones. -/
def isFinite (v : F64) : Bool := v >>> 52 &&& 0x7ff != 0x7ff

def bytesPerGib : F64 := 0x41d0000000000000

def micro : F64 := 0x412e848000000000

structure QuoteLine where
  label : String
  quantityGib : F64
  unitCentsPerGib : F64
  amountMicroCents : Int
  deriving Repr, DecidableEq

structure Quote where
  plan : String
  formula : String
  currency : String
  amountMicroCents : Int
  amountCents : Int
  lines : List QuoteLine
  deriving Repr, DecidableEq

section Pricing

variable (D : Doubles)

def microCents (quantityGib unitCentsPerGib : F64) : Int :=
  let v := D.mul (D.mul quantityGib unitCentsPerGib) micro
  if isFinite v then D.toI64 (D.round v) else 0

def round4 (v : F64) : F64 :=
  if isFinite v then D.div (D.round (D.mul v 0x40c3880000000000)) 0x40c3880000000000 else 0

def quoteLine (label : String) (gib unit : F64) : QuoteLine where
  label
  quantityGib := round4 D gib
  unitCentsPerGib := round4 D unit
  amountMicroCents := microCents D gib unit

def quoteLines (plan : PlanKind) (price : PriceConfig) (totals : UsageTotals) : List QuoteLine :=
  match plan with
  | .savingsShare =>
    let gib := D.div (D.ofI64 totals.compressBytesSaved) bytesPerGib
    let unit := D.div (D.mul price.referenceGbMonthCents price.sharePct) 0x4059000000000000
    [quoteLine D "armazenamento economizado" gib unit]
  | .ingestedGb =>
    totals.byEffort.map fun bucket =>
      let gib := D.div (D.ofI64 bucket.bytesIn) bytesPerGib
      let unit := price.perGbCents.forEffort bucket.effort
      quoteLine D s!"ingestão (esforço {bucket.effort})" gib unit

def formula (plan : PlanKind) (price : PriceConfig) : String :=
  match plan with
  | .savingsShare =>
    let share := D.display price.sharePct
    let reference := D.display price.referenceGbMonthCents
    s!"{share}% de {reference} centavos por GiB-mês de armazenamento evitado"
  | .ingestedGb =>
    let fast := D.display price.perGbCents.fast
    let balanced := D.display price.perGbCents.balanced
    let most := D.display price.perGbCents.max
    s!"GiB ingeridos por tier de esforço (fast {fast}, balanced {balanced}, max {most} centavos)"

def quote (plan : PlanKind) (price : PriceConfig) (totals : UsageTotals) : Quote :=
  let lines := quoteLines D plan price totals
  let totalMicro := sumI64 (lines.map (·.amountMicroCents))
  { plan := plan.asStr
    formula := formula D plan price
    currency := price.currency.asStr
    amountMicroCents := totalMicro
    amountCents := D.toI64 (D.round (D.div (D.ofI64 totalMicro) micro))
    lines }

theorem quote_congr (plan : PlanKind) (price : PriceConfig) {totals other : UsageTotals}
    (saved : totals.compressBytesSaved = other.compressBytesSaved)
    (efforts : totals.byEffort = other.byEffort) :
    quote D plan price totals = quote D plan price other := by
  have lines : quoteLines D plan price totals = quoteLines D plan price other := by
    cases plan with
    | savingsShare => simp only [quoteLines, saved]
    | ingestedGb => simp only [quoteLines, efforts]
  simp only [quote, lines]

end Pricing

end Usage

end Syntra
