import Mathlib.Algebra.Order.Ring.Nat
import Mathlib.Data.List.Basic
import Syntra.Lib.Fallible

/-!
# Checked machines

Programs over machine words and slices.  An overflow or an index out of range
stops a program with a panic, which is told apart from the errors it returns.
-/

set_option autoImplicit false

namespace Machine

open Fallible

variable {ε α β γ δ σ : Type}

inductive Stop (ε : Type) where
  | panic
  | fail (failure : ε)
  deriving Repr, DecidableEq

abbrev Run (ε α : Type) := Except (Stop ε) α

def fails (failure : ε) : Run ε α := .error (.fail failure)

/-! ## Operations -/

def add (width left right : Nat) : Run ε Nat :=
  if left + right < 2 ^ width then .ok (left + right) else .error .panic

def sub (left right : Nat) : Run ε Nat :=
  if right ≤ left then .ok (left - right) else .error .panic

def mul (width left right : Nat) : Run ε Nat :=
  if left * right < 2 ^ width then .ok (left * right) else .error .panic

/-- `p += 1`, with what it leaves in `p`. -/
def increment (width p : Nat) : Run ε { next : Nat // next = p + 1 } :=
  if p + 1 < 2 ^ width then .ok ⟨p + 1, rfl⟩ else .error .panic

/-- `p += n`, with what it leaves in `p`. -/
def advance (width p n : Nat) : Run ε { next : Nat // next = p + n } :=
  if p + n < 2 ^ width then .ok ⟨p + n, rfl⟩ else .error .panic

def shiftLeft (width value shift : Nat) : Run ε Nat :=
  if shift < width then .ok ((value <<< shift) % 2 ^ width) else .error .panic

def index (xs : List α) (i : Nat) : Run ε α :=
  match xs[i]? with
  | some x => .ok x
  | none => .error .panic

def store (xs : List α) (i : Nat) (x : α) : Run ε (List α) :=
  if i < xs.length then .ok (xs.set i x) else .error .panic

/-- `xs.get(lo..hi)`. -/
def getRange (xs : List α) (lo hi : Nat) : Option (List α) :=
  if lo ≤ hi ∧ hi ≤ xs.length then some ((xs.drop lo).take (hi - lo)) else none

/-- `xs[lo..hi]`. -/
def slice (xs : List α) (lo hi : Nat) : Run ε (List α) :=
  match getRange xs lo hi with
  | some part => .ok part
  | none => .error .panic

def assert (holds : Prop) [Decidable holds] : Run ε Unit :=
  if holds then .ok () else .error .panic

/-- A computation that cannot panic. -/
def lift (run : Except ε α) : Run ε α := run.mapError .fail

theorem lift_bind (run : Except ε α) (next : α → Except ε β) :
    (lift (run >>= next) : Run ε β) = lift run >>= fun value => lift (next value) := by
  cases run <;> rfl

theorem lift_ok (value : α) : (lift (.ok value) : Run ε α) = .ok value := rfl

/-- `for i in first..first + count`. -/
def loop (body : Nat → σ → Run ε σ) : (first count : Nat) → σ → Run ε σ
  | _, 0, s => .ok s
  | i, count + 1, s => do
    let s ← body i s
    loop body (i + 1) count s

theorem add_eq {width left right : Nat} (fits : left + right < 2 ^ width) :
    (add width left right : Run ε Nat) = .ok (left + right) := if_pos fits

theorem sub_eq {left right : Nat} (within : right ≤ left) :
    (sub left right : Run ε Nat) = .ok (left - right) := if_pos within

theorem mul_eq {width left right : Nat} (fits : left * right < 2 ^ width) :
    (mul width left right : Run ε Nat) = .ok (left * right) := if_pos fits

theorem increment_eq {width p : Nat} (fits : p + 1 < 2 ^ width) :
    (increment width p : Run ε _) = .ok ⟨p + 1, rfl⟩ := if_pos fits

theorem advance_eq {width p n : Nat} (fits : p + n < 2 ^ width) :
    (advance width p n : Run ε _) = .ok ⟨p + n, rfl⟩ := if_pos fits

theorem shiftLeft_eq {width value shift : Nat} (within : shift < width) :
    (shiftLeft width value shift : Run ε Nat) = .ok ((value <<< shift) % 2 ^ width) := if_pos within

theorem index_eq {xs : List α} {i : Nat} {x : α} (there : xs[i]? = some x) :
    (index xs i : Run ε α) = .ok x := by
  unfold index
  rw [there]

theorem store_eq {xs : List α} {i : Nat} (x : α) (inside : i < xs.length) :
    (store xs i x : Run ε _) = .ok (xs.set i x) := if_pos inside

theorem getRange_eq {xs : List α} {lo len : Nat} (inside : lo + len ≤ xs.length) :
    getRange xs lo (lo + len) = some ((xs.drop lo).take len) := by
  unfold getRange
  rw [if_pos ⟨Nat.le_add_right _ _, inside⟩, Nat.add_sub_cancel_left]

theorem slice_eq {xs : List α} {lo hi : Nat} (order : lo ≤ hi) (inside : hi ≤ xs.length) :
    (slice xs lo hi : Run ε _) = .ok ((xs.drop lo).take (hi - lo)) := by
  unfold slice getRange
  rw [if_pos ⟨order, inside⟩]

theorem assert_eq {holds : Prop} [Decidable holds] (true_ : holds) :
    (assert holds : Run ε Unit) = .ok () := if_pos true_

/-- What every turn of a loop carries on. -/
theorem loop_ok {body : Nat → σ → Run ε σ} (inv : Nat → σ → Prop) {first count : Nat} {s : σ}
    (turn : ∀ i s, first ≤ i → i < first + count → inv i s →
      ∃ s', body i s = .ok s' ∧ inv (i + 1) s')
    (start : inv first s) :
    ∃ s', loop body first count s = .ok s' ∧ inv (first + count) s' := by
  induction count generalizing first s with
  | zero => exact ⟨s, rfl, start⟩
  | succ count ih =>
      obtain ⟨middle, once, held⟩ := turn first s (Nat.le_refl _) (by omega) start
      obtain ⟨final, rest, ends⟩ := ih
        (fun i s low high => turn i s (by omega) (by omega)) held
      refine ⟨final, ?_, by rwa [Nat.add_right_comm] at ends⟩
      rw [loop, once]
      exact rest

theorem loop_zero_ok {body : Nat → σ → Run ε σ} (inv : Nat → σ → Prop) {count : Nat} {s : σ}
    (turn : ∀ i s, i < count → inv i s → ∃ s', body i s = .ok s' ∧ inv (i + 1) s')
    (start : inv 0 s) : ∃ s', loop body 0 count s = .ok s' ∧ inv count s' := by
  obtain ⟨final, run, held⟩ := loop_ok inv
    (fun i s _ high => turn i s (by rwa [Nat.zero_add] at high)) start
  exact ⟨final, run, by rwa [Nat.zero_add] at held⟩

/-! ## What a program meets -/

/-- No panic: a result with `post`, or a failure with `throws`. -/
inductive Meets (post : α → Prop) (throws : ε → Prop) : Run ε α → Prop
  | ok {value : α} (holds : post value) : Meets post throws (.ok value)
  | fail {failure : ε} (thrown : throws failure) : Meets post throws (.error (.fail failure))

namespace Meets

variable {middle post : α → Prop} {throws : ε → Prop}

theorem bind {after : β → Prop} {run : Run ε α} {next : α → Run ε β}
    (first : Meets middle throws run)
    (rest : ∀ value, middle value → Meets after throws (next value)) :
    Meets after throws (run >>= next) := by
  cases first with
  | ok holds => exact rest _ holds
  | fail thrown => exact Meets.fail thrown

theorem imp {throws' : ε → Prop} {run : Run ε α} (meets : Meets middle throws run)
    (result : ∀ value, middle value → post value)
    (failure : ∀ failure, throws failure → throws' failure) : Meets post throws' run := by
  cases meets with
  | ok holds => exact Meets.ok (result _ holds)
  | fail thrown => exact Meets.fail (failure _ thrown)

theorem lift {run : Except ε α} (result : ∀ value, run = .ok value → post value)
    (failure : ∀ failure, run = .error failure → throws failure) :
    Meets post throws (Machine.lift run) := by
  cases run with
  | ok value => exact Meets.ok (result value rfl)
  | error e => exact Meets.fail (failure e rfl)

theorem rejectIf {bad : Prop} [Decidable bad] {failure : ε} (thrown : throws failure) :
    Meets (fun _ => ¬ bad) throws (Machine.lift (Fallible.rejectIf bad failure)) := by
  apply Meets.lift
  · exact fun _ passed => rejectIf_eq_ok.mp passed
  · intro other rejected
    unfold Fallible.rejectIf at rejected
    split at rejected <;> cases rejected
    exact thrown

theorem loop {body : Nat → σ → Run ε σ} (inv : Nat → σ → Prop) {first count : Nat} {s : σ}
    (turn : ∀ i s, first ≤ i → i < first + count → inv i s → Meets (inv (i + 1)) throws (body i s))
    (start : inv first s) : Meets (inv (first + count)) throws (Machine.loop body first count s) := by
  induction count generalizing first s with
  | zero => exact Meets.ok start
  | succ count ih =>
      have once := turn first s (Nat.le_refl _) (by omega) start
      apply once.bind
      intro next held
      have rest := ih (fun i s low high => turn i s (by omega) (by omega)) held
      rwa [Nat.add_right_comm] at rest

theorem loop_zero {body : Nat → σ → Run ε σ} (inv : Nat → σ → Prop) {count : Nat} {s : σ}
    (turn : ∀ i s, i < count → inv i s → Meets (inv (i + 1)) throws (body i s))
    (start : inv 0 s) : Meets (inv count) throws (Machine.loop body 0 count s) := by
  have looped := Meets.loop inv (fun i s _ high => turn i s (by rwa [Nat.zero_add] at high)) start
  rwa [Nat.zero_add] at looped

theorem of_ok {run : Run ε α} {value : α} (meets : Meets post throws run)
    (success : run = .ok value) : post value := by
  cases meets with
  | ok holds =>
      cases success
      exact holds
  | fail thrown => cases success

theorem no_panic {run : Run ε α} (meets : Meets post throws run) : run ≠ .error .panic := by
  cases meets <;> exact fun impossible => by cases impossible

end Meets

/-! ## Programs that follow a model -/

/-- The program ends as the model does, and never with a panic. -/
inductive Follows (agree : α → β → Prop) : Run ε α → Except ε β → Prop
  | ok {got : α} {model : β} (same : agree got model) : Follows agree (.ok got) (.ok model)
  | fail (failure : ε) : Follows agree (.error (.fail failure)) (.error failure)

namespace Follows

variable {agree : α → β → Prop} {agree' : γ → δ → Prop}

theorem bind {run : Run ε α} {model : Except ε β} {next : α → Run ε γ} {next' : β → Except ε δ}
    (first : Follows agree run model)
    (rest : ∀ got value, agree got value → Follows agree' (next got) (next' value)) :
    Follows agree' (run >>= next) (model >>= next') := by
  cases first with
  | ok same => exact rest _ _ same
  | fail failure => exact Follows.fail failure

theorem lift (run : Except ε α) :
    Follows (fun got value => got = value ∧ run = .ok value) (Machine.lift run) run := by
  cases run with
  | ok value => exact Follows.ok ⟨rfl, rfl⟩
  | error failure => exact Follows.fail failure

theorem of_ok {run : Run ε α} {model : Except ε β} {got : α} (follows : Follows agree run model)
    (success : run = .ok got) : ∃ value, model = .ok value ∧ agree got value := by
  cases follows with
  | ok same =>
      cases success
      exact ⟨_, rfl, same⟩
  | fail failure => cases success

theorem no_panic {run : Run ε α} {model : Except ε β} (follows : Follows agree run model) :
    run ≠ .error .panic := by
  cases follows <;> exact fun impossible => by cases impossible

theorem eq_lift {run : Run ε α} {model : Except ε α}
    (follows : Follows (fun got value => got = value) run model) :
    run = Machine.lift model := by
  cases follows with
  | ok same => rw [same]; rfl
  | fail failure => rfl

theorem imp {agree'' : α → β → Prop} {run : Run ε α} {model : Except ε β}
    (follows : Follows agree run model) (weaker : ∀ got value, agree got value → agree'' got value) :
    Follows agree'' run model := by
  cases follows with
  | ok same => exact Follows.ok (weaker _ _ same)
  | fail failure => exact Follows.fail failure

end Follows

/-! ## Memory -/

/-- How a program fails that may also run out of memory. -/
inductive Failure (ε : Type) where
  | error (failure : ε)
  | outOfMemory
  deriving Repr, DecidableEq

def Stop.map (f : ε → δ) : Stop ε → Stop δ
  | .panic => .panic
  | .fail failure => .fail (f failure)

def Failure.map (f : ε → δ) : Failure ε → Failure δ
  | .error failure => .error (f failure)
  | .outOfMemory => .outOfMemory

/-- `out.extend_from_slice(more)`: no vector has more than `isize::MAX` bytes. -/
def extend (out more : List α) : Run (Failure ε) (List α) :=
  if out.length + more.length < 2 ^ 63 then .ok (out ++ more) else fails .outOfMemory

/-- A program that does not grow vectors. -/
def within (run : Run ε α) : Run (Failure ε) α := run.mapError (Stop.map .error)

/-- The program ends as the model does unless it runs out of memory, and never with a panic. -/
inductive Tracks (agree : α → β → Prop) : Run (Failure ε) α → Except ε β → Prop
  | ok {got : α} {model : β} (same : agree got model) : Tracks agree (.ok got) (.ok model)
  | fail (failure : ε) : Tracks agree (.error (.fail (.error failure))) (.error failure)
  | outOfMemory (model : Except ε β) : Tracks agree (.error (.fail .outOfMemory)) model

namespace Tracks

variable {agree : α → β → Prop} {agree' : γ → δ → Prop}

theorem bind {run : Run (Failure ε) α} {model : Except ε β} {next : α → Run (Failure ε) γ}
    {next' : β → Except ε δ} (first : Tracks agree run model)
    (rest : ∀ got value, agree got value → Tracks agree' (next got) (next' value)) :
    Tracks agree' (run >>= next) (model >>= next') := by
  cases first with
  | ok same => exact rest _ _ same
  | fail failure => exact Tracks.fail failure
  | outOfMemory => exact Tracks.outOfMemory _

theorem within {run : Run ε α} {model : Except ε β} (follows : Follows agree run model) :
    Tracks agree (Machine.within run) model := by
  cases follows with
  | ok same => exact Tracks.ok same
  | fail failure => exact Tracks.fail failure

theorem extend {out more : List σ} {next : List σ → Run (Failure ε) α} {model : Except ε β}
    (rest : out.length + more.length < 2 ^ 63 → Tracks agree (next (out ++ more)) model) :
    Tracks agree (Machine.extend out more >>= next) model := by
  unfold Machine.extend
  split
  · rename_i fits
    exact rest fits
  · exact Tracks.outOfMemory _

theorem imp {agree'' : α → β → Prop} {run : Run (Failure ε) α} {model : Except ε β}
    (tracks : Tracks agree run model) (weaker : ∀ got value, agree got value → agree'' got value) :
    Tracks agree'' run model := by
  cases tracks with
  | ok same => exact Tracks.ok (weaker _ _ same)
  | fail failure => exact Tracks.fail failure
  | outOfMemory => exact Tracks.outOfMemory _

theorem mapError {f : ε → σ} {run : Run (Failure ε) α} {model : Except ε β}
    (tracks : Tracks agree run model) :
    Tracks agree (run.mapError (Stop.map (Failure.map f))) (model.mapError f) := by
  cases tracks with
  | ok same => exact Tracks.ok same
  | fail failure => exact Tracks.fail _
  | outOfMemory => exact Tracks.outOfMemory _

theorem no_panic {run : Run (Failure ε) α} {model : Except ε β} (tracks : Tracks agree run model) :
    run ≠ .error .panic := by
  cases tracks <;> exact fun impossible => by cases impossible

/-- Unless memory runs out, the program is the model. -/
theorem eq_or {run : Run (Failure ε) α} {model : Except ε α}
    (tracks : Tracks (fun got value => got = value) run model) :
    run = .error (.fail .outOfMemory) ∨ run = Machine.lift (model.mapError .error) := by
  cases tracks with
  | ok same =>
      rw [same]
      exact Or.inr rfl
  | fail failure => exact Or.inr rfl
  | outOfMemory => exact Or.inl rfl

end Tracks

end Machine
