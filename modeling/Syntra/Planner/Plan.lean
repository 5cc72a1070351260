import Syntra.Codec
import Syntra.Content
import Syntra.Transform.Chain

/-!
# Plans and their execution

A plan is a chain of transforms and a codec.  `execute` runs it forwards and
`restore_limited` backwards, under caps computed from the final size alone.
-/

set_option autoImplicit false

namespace Syntra

open Fallible

inductive Effort where
  | fast | balanced | max
  deriving Repr, DecidableEq

def Effort.asStr : Effort → String
  | .fast => "fast"
  | .balanced => "balanced"
  | .max => "max"

def Effort.candidateBudget : Effort → Nat
  | .fast => 1
  | .balanced => 4
  | .max => 16

structure Plan where
  transforms : List TransformStep
  codec : Codec
  level : Int
  useDictionary : Bool
  deriving Repr, DecidableEq

namespace Plan

def new (codec : Codec) (level : Int) : Plan :=
  { transforms := [], codec, level := codec.clampLevel level, useDictionary := false }

def withSteps (plan : Plan) (steps : List (Transform × Nat)) : Plan :=
  { plan with transforms := steps.map fun s => step s.1 s.2 0 }

def dict (plan : Plan) : Plan := { plan with useDictionary := plan.codec.supportsDictionary }

def label (plan : Plan) : String :=
  (if plan.transforms.isEmpty then "" else chainLabel plan.transforms ++ "+") ++
    plan.codec.name ++
    (if (plan.codec.info.map fun entry => decide (0 < entry.maxLevel)).getD false then
      s!":{plan.level}" else "") ++
    (if plan.useDictionary then "+dict" else "")

def isStored (plan : Plan) : Bool := plan.codec = .stored && plan.transforms.isEmpty

def stored : Plan := new .stored 0

end Plan

structure ForcedPlan where
  codec : Option Codec
  level : Option Int
  useDictionary : Option Bool
  deriving Repr, DecidableEq

structure Limits where
  probeThreshold : Nat
  probeSample : Nat
  keepOutputMax : Nat
  deriving Repr, DecidableEq

structure Planned where
  plan : Plan
  payload : Bytes
  candidatesTried : Nat
  sampledDecision : Bool
  reason : String
  deriving Repr, DecidableEq

variable (C : Codecs)

def execute (data : Bytes) (plan : Plan) (dict : Option Bytes) :
    Except IoError (Bytes × List TransformStep) := do
  let dict := if plan.useDictionary then dict else none
  if plan.transforms.isEmpty then do
    let out ← encode C data plan.codec plan.level dict
    .ok (out, [])
  else do
    let (staged, steps) ← applyChain data plan.transforms
    let out ← encode C staged plan.codec plan.level dict
    .ok (out, steps)

def stageSlack (n : Nat) : Nat := saturatingAdd (saturatingAdd n (n / 8)) 4096

def restoreLimited (payload : Bytes) (codecId : Codec) (steps : List TransformStep)
    (dict : Option Bytes) (expectedLen : Option Nat) (maxOut : Nat) : Except IoError Bytes := do
  rejectIf (maxChain < steps.length)
    (.invalidData s!"cadeia de {steps.length} transforms excede o máximo de {maxChain}")
  let finalCap := expectedLen.elim maxOut (min · maxOut)
  let stageCap := stageSlack finalCap
  let codecCap := if steps.isEmpty then finalCap else stageCap
  let hint := ((steps.getLast?.map (·.inputLen)).filter (· ≠ 0)).or expectedLen
  let staged ← decodeLimited C payload codecId dict hint codecCap
  invertChainLimited staged steps stageCap finalCap

def restore (payload : Bytes) (codecId : Codec) (steps : List TransformStep)
    (dict : Option Bytes) (expectedLen : Option Nat) : Except IoError Bytes :=
  restoreLimited C payload codecId steps dict expectedLen maxDecompressed

theorem execute_eq_ok {data payload : Bytes} {plan : Plan} {dict : Option Bytes}
    {steps : List TransformStep} :
    execute C data plan dict = .ok (payload, steps) ↔
      ∃ staged, applyChain data plan.transforms = .ok (staged, steps) ∧
        encode C staged plan.codec plan.level (if plan.useDictionary then dict else none) =
          .ok payload := by
  cases chain : plan.transforms with
  | nil =>
      simp only [execute, chain, List.isEmpty_nil, if_true, applyChain, bind_eq_ok,
        Except.ok.injEq, Prod.mk.injEq]
      constructor
      · rintro ⟨out, encoded, rfl, rfl⟩
        exact ⟨data, ⟨rfl, rfl⟩, encoded⟩
      · rintro ⟨staged, ⟨rfl, rfl⟩, encoded⟩
        exact ⟨payload, encoded, rfl, rfl⟩
  | cons s rest =>
      simp only [execute, chain, List.isEmpty_cons, Bool.false_eq_true, if_false, bind_eq_ok,
        Prod.exists, Except.ok.injEq, Prod.mk.injEq]
      constructor
      · rintro ⟨staged, recorded, run, out, encoded, rfl, rfl⟩
        exact ⟨staged, run, encoded⟩
      · rintro ⟨staged, run, encoded⟩
        exact ⟨staged, steps, run, payload, encoded, rfl, rfl⟩

end Syntra
