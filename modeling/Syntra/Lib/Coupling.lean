import Syntra.Lib.Program

/-!
# Two runs side by side

Relational rules for programs of atomic requests: two programs are coupled when
runs from related states come to related values and related states.  `Agree`
relates results that succeed alike or fail alike, `Matches` couples programs
that end so and keep an invariant of the two states.
-/

set_option autoImplicit false

universe u v w x y z

/-- Two successes with related values, or one failure twice. -/
inductive Agree {ε : Type u} {α : Type v} {β : Type w} (good : α → β → Prop) :
    Except ε α → Except ε β → Prop
  | ok {value : α} {value' : β} (related : good value value') : Agree good (.ok value) (.ok value')
  | error (e : ε) : Agree good (.error e) (.error e)

namespace Agree

variable {ε : Type u} {ε' : Type x} {α : Type v} {β : Type w} {γ : Type y}
  {good : α → β → Prop} {result : Except ε α} {result' : Except ε β}

theorem refl {good : α → α → Prop} (related : ∀ value, good value value) (result : Except ε α) :
    Agree good result result := by
  cases result with
  | ok value => exact .ok (related value)
  | error e => exact .error e

theorem imp {weaker : α → β → Prop} (agree : Agree good result result')
    (weakens : ∀ value value', good value value' → weaker value value') :
    Agree weaker result result' := by
  cases agree with
  | ok related => exact .ok (weakens _ _ related)
  | error e => exact .error e

theorem mapError (agree : Agree good result result') (failed : ε → ε') :
    Agree good (result.mapError failed) (result'.mapError failed) := by
  cases agree with
  | ok related => exact .ok related
  | error e => exact .error (failed e)

theorem map_eq (agree : Agree good result result') (image : α → γ) (image' : β → γ)
    (same : ∀ value value', good value value' → image value = image' value') :
    result.map image = result'.map image' := by
  cases agree with
  | ok related => exact congrArg Except.ok (same _ _ related)
  | error e => rfl

end Agree

namespace Program

variable {request : Type u} {answer : request → Type v} {σ : Type y}
  (perform : σ → (asked : request) → answer asked × σ)

section Couples

variable {α β : Type w} {γ δ : Type x}

/-- From states related by `pre` the two runs end as `post` says. -/
def Couples (pre : σ → σ → Prop) (first : Program request answer α)
    (second : Program request answer β) (post : α → β → σ → σ → Prop) : Prop :=
  ∀ state state', pre state state' →
    post (first.run perform state).1 (second.run perform state').1
      (first.run perform state).2 (second.run perform state').2

variable {perform} {pre : σ → σ → Prop} {post : γ → δ → σ → σ → Prop}

theorem Couples.done {value : γ} {value' : δ}
    (holds : ∀ state state', pre state state' → post value value' state state') :
    Couples perform pre (.done value) (.done value') post :=
  holds

theorem Couples.call {asked asked' : request} {next : answer asked → Program request answer γ}
    {next' : answer asked' → Program request answer δ}
    (mid : answer asked → answer asked' → σ → σ → Prop)
    (step : ∀ state state', pre state state' →
      mid (perform state asked).1 (perform state' asked').1
        (perform state asked).2 (perform state' asked').2)
    (rest : ∀ reply reply', Couples perform (mid reply reply') (next reply) (next' reply') post) :
    Couples perform pre (.call asked next) (.call asked' next') post :=
  fun state state' start => rest _ _ _ _ (step state state' start)

theorem Couples.bind {first : Program request answer α} {second : Program request answer β}
    {next : α → Program request answer γ} {next' : β → Program request answer δ}
    {mid : α → β → σ → σ → Prop} (start : Couples perform pre first second mid)
    (rest : ∀ value value', Couples perform (mid value value') (next value) (next' value') post) :
    Couples perform pre (first.bind next) (second.bind next') post := by
  intro state state' related
  rw [run_bind, run_bind]
  exact rest _ _ _ _ (start state state' related)

theorem Couples.weaken {first : Program request answer γ} {second : Program request answer δ}
    {stronger : σ → σ → Prop} {weaker : γ → δ → σ → σ → Prop}
    (couples : Couples perform pre first second post)
    (before : ∀ state state', stronger state state' → pre state state')
    (after : ∀ value value' state state', post value value' state state' →
      weaker value value' state state') :
    Couples perform stronger first second weaker :=
  fun state state' start => after _ _ _ _ (couples state state' (before state state' start))

end Couples

section Matches

variable {ε : Type w} {ε' : Type x} {α β : Type w} {γ δ : Type x}

/-- The runs keep `inv`, and succeed as `good` says or fail alike. -/
def Matches (inv pre : σ → σ → Prop) (first : Program request answer (Except ε α))
    (second : Program request answer (Except ε β)) (good : α → β → σ → σ → Prop) : Prop :=
  Couples perform pre first second fun result result' state state' =>
    inv state state' ∧ Agree (fun value value' => good value value' state state') result result'

variable {perform} {inv pre : σ → σ → Prop} {good : α → β → σ → σ → Prop}
  {ends : γ → δ → σ → σ → Prop}

theorem Matches.ok {value : γ} {value' : δ}
    (holds : ∀ state state', pre state state' →
      inv state state' ∧ ends value value' state state') :
    Matches (ε := ε') perform inv pre (.done (.ok value)) (.done (.ok value')) ends :=
  fun state state' start => ⟨(holds state state' start).1, .ok (holds state state' start).2⟩

theorem Matches.error {e : ε'} (holds : ∀ state state', pre state state' → inv state state') :
    Matches perform inv pre (.done (.error e)) (.done (.error e)) ends :=
  fun state state' start => ⟨holds state state' start, .error e⟩

theorem Matches.attempt {first : Program request answer (Except ε α)}
    {second : Program request answer (Except ε β)} {failed : ε → ε'}
    {next : α → Program request answer (Except ε' γ)}
    {next' : β → Program request answer (Except ε' δ)}
    (start : Matches perform inv pre first second good)
    (rest : ∀ value value', Matches perform inv
      (fun state state' => inv state state' ∧ good value value' state state')
      (next value) (next' value') ends) :
    Matches perform inv pre (first.attempt failed next) (second.attempt failed next') ends := by
  unfold Matches Program.attempt
  refine Couples.bind start fun result result' state state' ended => ?_
  obtain ⟨kept, agree⟩ := ended
  cases agree with
  | ok related => exact rest _ _ _ _ ⟨kept, related⟩
  | error e => exact ⟨kept, .error (failed e)⟩

/-- What is known of the values so far may be used from here on. -/
theorem Matches.assume {fact : Prop} {first : Program request answer (Except ε α)}
    {second : Program request answer (Except ε β)}
    (together : fact → Matches perform inv pre first second good) :
    Matches perform inv (fun state state' => pre state state' ∧ fact) first second good :=
  fun state state' start => together start.2 state state' start.1

theorem Matches.weaken {first : Program request answer (Except ε α)}
    {second : Program request answer (Except ε β)} {stronger : σ → σ → Prop}
    {weaker : α → β → σ → σ → Prop} (together : Matches perform inv pre first second good)
    (before : ∀ state state', stronger state state' → pre state state')
    (after : ∀ value value' state state', inv state state' → good value value' state state' →
      weaker value value' state state') :
    Matches perform inv stronger first second weaker :=
  Couples.weaken together before fun _ _ state state' ended =>
    ⟨ended.1, ended.2.imp fun value value' => after value value' state state' ended.1⟩

end Matches

end Program
