import Mathlib.Tactic.Common

/-!
# Programs of atomic requests

A program either is done with a value or makes one request and goes on with the
answer.  `run` performs the requests one after the other; the interleavings of
several programs are in `Lib.Pool`.
-/

set_option autoImplicit false

universe u v w x y z

inductive Program (request : Type u) (answer : request → Type v) (α : Type w) where
  | done (value : α)
  | call (asked : request) (next : answer asked → Program request answer α)

namespace Program

variable {request : Type u} {answer : request → Type v} {α : Type w} {β : Type x} {σ : Type y}

def ask (asked : request) : Program request answer (answer asked) := .call asked .done

def bind (program : Program request answer α) (next : α → Program request answer β) :
    Program request answer β :=
  match program with
  | .done value => next value
  | .call asked rest => .call asked fun reply => (rest reply).bind next

def run (perform : σ → (asked : request) → answer asked × σ) :
    Program request answer α → σ → α × σ
  | .done value, state => (value, state)
  | .call asked next, state =>
    let (reply, state) := perform state asked
    (next reply).run perform state

def next? : Program request answer α → Option request
  | .done _ => none
  | .call asked _ => some asked

/-- Goes on with the value of a program that succeeds, and fails as it fails. -/
def attempt {ε : Type w} {ε' : Type x} {γ : Type w} {δ : Type x}
    (program : Program request answer (Except ε γ)) (failed : ε → ε')
    (next : γ → Program request answer (Except ε' δ)) : Program request answer (Except ε' δ) :=
  program.bind fun
    | .ok value => next value
    | .error e => .done (.error (failed e))

variable (perform : σ → (asked : request) → answer asked × σ)

@[simp] theorem run_done (value : α) (state : σ) :
    (done value : Program request answer α).run perform state = (value, state) := rfl

@[simp] theorem run_call (asked : request) (next : answer asked → Program request answer α)
    (state : σ) :
    (call asked next).run perform state =
      (next (perform state asked).1).run perform (perform state asked).2 := rfl

@[simp] theorem run_ask (asked : request) (state : σ) :
    (ask asked).run perform state = perform state asked := rfl

theorem run_bind (program : Program request answer α) (next : α → Program request answer β)
    (state : σ) :
    (program.bind next).run perform state =
      (next (program.run perform state).1).run perform (program.run perform state).2 := by
  induction program generalizing state with
  | done value => rfl
  | call asked rest ih => exact ih _ _

theorem run_attempt {ε : Type w} {ε' : Type x} {γ : Type w} {δ : Type x}
    (program : Program request answer (Except ε γ)) (failed : ε → ε')
    (next : γ → Program request answer (Except ε' δ)) (state : σ) :
    (program.attempt failed next).run perform state =
      match program.run perform state with
      | (.ok value, later) => (next value).run perform later
      | (.error e, later) => (.error (failed e), later) := by
  rw [attempt, run_bind]
  rcases program.run perform state with ⟨result, later⟩
  cases result <;> rfl

variable {perform} in
theorem run_attempt_eq_ok {ε : Type w} {ε' : Type x} {γ : Type w} {δ : Type x}
    {program : Program request answer (Except ε γ)} {failed : ε → ε'}
    {next : γ → Program request answer (Except ε' δ)} {state final : σ} {value : δ} :
    (program.attempt failed next).run perform state = (.ok value, final) ↔
      ∃ first later, program.run perform state = (.ok first, later) ∧
        (next first).run perform later = (.ok value, final) := by
  rw [run_attempt]
  rcases program.run perform state with ⟨result, later⟩
  cases result <;> simp

/-- The requests of a run with their answers, in their order. -/
def trace (perform : σ → (asked : request) → answer asked × σ) :
    Program request answer α → σ → List ((asked : request) × answer asked)
  | .done _, _ => []
  | .call asked next, state =>
    ⟨asked, (perform state asked).1⟩ ::
      (next (perform state asked).1).trace perform (perform state asked).2

@[simp] theorem trace_done (value : α) (state : σ) :
    (done value : Program request answer α).trace perform state = [] := rfl

@[simp] theorem trace_call (asked : request) (next : answer asked → Program request answer α)
    (state : σ) :
    (call asked next).trace perform state =
      ⟨asked, (perform state asked).1⟩ ::
        (next (perform state asked).1).trace perform (perform state asked).2 := rfl

theorem trace_bind (program : Program request answer α) (next : α → Program request answer β)
    (state : σ) :
    (program.bind next).trace perform state =
      program.trace perform state ++
        (next (program.run perform state).1).trace perform (program.run perform state).2 := by
  induction program generalizing state with
  | done value => rfl
  | call asked rest ih => exact congrArg (⟨asked, (perform state asked).1⟩ :: ·) (ih _ _)

/-! ## Runs among others -/

/-- A run in surroundings that move too: before each request they make the moves of
one batch, and none when no batch is left. -/
def runAmid {μ : Type z} (perform : σ → (asked : request) → answer asked × σ)
    (arrive : σ → μ → σ) : Program request answer α → List (List μ) → σ → α × σ
  | .done value, _, state => (value, state)
  | .call asked next, batches, state =>
    let (reply, state) := perform ((batches.headD []).foldl arrive state) asked
    (next reply).runAmid perform arrive batches.tail state

theorem runAmid_idle {μ : Type z} (arrive : σ → μ → σ) (program : Program request answer α)
    (batches : List (List μ)) (idle : ∀ batch ∈ batches, batch = []) (state : σ) :
    program.runAmid perform arrive batches state = program.run perform state := by
  induction program generalizing batches state with
  | done value => rfl
  | call asked next ih =>
      have first : batches.headD [] = [] := by
        cases batches with
        | nil => rfl
        | cons batch batches => exact idle batch List.mem_cons_self
      simp only [runAmid, first, List.foldl_nil, run_call]
      exact ih _ _ (fun batch member => idle batch (List.mem_of_mem_tail member)) _

/-! ## What a run keeps -/

/-- The run keeps an invariant and comes to a value of some kind. -/
def Keeps (perform : σ → (asked : request) → answer asked × σ) (inv : σ → Prop) (post : α → Prop)
    (program : Program request answer α) : Prop :=
  ∀ state, inv state → inv (program.run perform state).2 ∧ post (program.run perform state).1

section Keeps

variable {perform} {inv : σ → Prop} {post : α → Prop} {ends : β → Prop}

theorem Keeps.done {value : α} (holds : post value) :
    (Program.done value : Program request answer α).Keeps perform inv post :=
  fun _ start => ⟨start, holds⟩

theorem Keeps.call {asked : request} {next : answer asked → Program request answer α}
    (good : answer asked → Prop)
    (kept : ∀ state, inv state → inv (perform state asked).2 ∧ good (perform state asked).1)
    (rest : ∀ reply, good reply → (next reply).Keeps perform inv post) :
    (Program.call asked next).Keeps perform inv post :=
  fun state start => rest _ (kept state start).2 _ (kept state start).1

theorem Keeps.bind {program : Program request answer α} {next : α → Program request answer β}
    (first : program.Keeps perform inv post)
    (rest : ∀ value, post value → (next value).Keeps perform inv ends) :
    (program.bind next).Keeps perform inv ends := by
  intro state start
  rw [run_bind]
  exact rest _ (first state start).2 _ (first state start).1

theorem Keeps.weaken {program : Program request answer α} {weaker : α → Prop}
    (keeps : program.Keeps perform inv post) (imp : ∀ value, post value → weaker value) :
    program.Keeps perform inv weaker :=
  fun state start => ⟨(keeps state start).1, imp _ (keeps state start).2⟩

end Keeps

/-! ## Monitored programs -/

/-- What an observer of a program knows after each answer, and what it allows
the program to ask then. -/
structure Monitor (request : Type u) (answer : request → Type v) (κ : Type z) where
  advance : κ → (asked : request) → answer asked → κ
  allows : κ → request → Prop

variable {κ : Type z}

/-- Whatever the answers are, the program asks only what the monitor allows, and
ends with `post`. -/
def Safe (monitor : Monitor request answer κ) (post : κ → α → Prop) :
    Program request answer α → κ → Prop
  | .done value, known => post known value
  | .call asked next, known =>
    monitor.allows known asked ∧
      ∀ reply, (next reply).Safe monitor post (monitor.advance known asked reply)

variable {monitor : Monitor request answer κ} {known : κ}

theorem safe_bind {program : Program request answer α} {next : α → Program request answer β}
    {post : κ → β → Prop} :
    (program.bind next).Safe monitor post known ↔
      program.Safe monitor (fun later value => (next value).Safe monitor post later) known := by
  induction program generalizing known with
  | done value => exact Iff.rfl
  | call asked rest ih => exact and_congr_right fun _ => forall_congr' fun reply => ih reply

theorem safe_attempt {ε : Type w} {ε' : Type x} {γ : Type w} {δ : Type x}
    {program : Program request answer (Except ε γ)} {failed : ε → ε'}
    {next : γ → Program request answer (Except ε' δ)} {post : κ → Except ε' δ → Prop} :
    (program.attempt failed next).Safe monitor post known ↔
      program.Safe monitor (fun later result => match result with
        | .ok value => (next value).Safe monitor post later
        | .error e => post later (.error (failed e))) known := by
  rw [attempt, safe_bind]
  refine iff_of_eq (congrArg (fun ends => program.Safe monitor ends known) ?_)
  funext later result
  cases result <;> rfl

theorem Safe.imp {program : Program request answer α} {post post' : κ → α → Prop}
    (safe : program.Safe monitor post known)
    (weaker : ∀ later value, post later value → post' later value) :
    program.Safe monitor post' known := by
  induction program generalizing known with
  | done value => exact weaker known value safe
  | call asked next ih => exact ⟨safe.1, fun reply => ih reply (safe.2 reply)⟩

/-- What every allowed request keeps, of the state and what is known of it, holds
after the run, and so does `post`. -/
theorem Safe.run_keeps {program : Program request answer α} {post : κ → α → Prop}
    (safe : program.Safe monitor post known) (inv : σ → κ → Prop)
    (kept : ∀ state known asked, inv state known → monitor.allows known asked →
      inv (perform state asked).2 (monitor.advance known asked (perform state asked).1))
    (state : σ) (start : inv state known) :
    ∃ later, inv (program.run perform state).2 later ∧
      post later (program.run perform state).1 := by
  induction program generalizing state known with
  | done value => exact ⟨known, start, safe⟩
  | call asked next ih => exact ih _ (safe.2 _) _ (kept state known asked start safe.1)

/-- The monitor that knows all answers so far, the last first. -/
def Monitor.seen (allows : List ((asked : request) × answer asked) → request → Prop) :
    Monitor request answer (List ((asked : request) × answer asked)) where
  advance seen asked reply := ⟨asked, reply⟩ :: seen
  allows

/-! ## Allowed requests -/

def Monitor.only (allowed : request → Prop) : Monitor request answer Unit where
  advance _ _ _ := ()
  allows _ asked := allowed asked

def Uses (allowed : request → Prop) (program : Program request answer α) : Prop :=
  program.Safe (Monitor.only allowed) (fun _ _ => True) ()

variable {allowed : request → Prop}

theorem Uses.bind {program : Program request answer α} (first : program.Uses allowed)
    {next : α → Program request answer β} (rest : ∀ value, (next value).Uses allowed) :
    (program.bind next).Uses allowed :=
  safe_bind.mpr (Safe.imp first fun _ value _ => rest value)

theorem Uses.attempt {ε : Type w} {ε' : Type x} {γ : Type w} {δ : Type x}
    {program : Program request answer (Except ε γ)} (first : program.Uses allowed)
    {failed : ε → ε'} {next : γ → Program request answer (Except ε' δ)}
    (rest : ∀ value, (next value).Uses allowed) :
    (program.attempt failed next).Uses allowed := by
  refine first.bind fun result => ?_
  cases result with
  | ok value => exact rest value
  | error e => trivial

theorem Uses.ask (asked : request) (permitted : allowed asked) :
    (Program.ask asked : Program request answer (answer asked)).Uses allowed :=
  ⟨permitted, fun _ => trivial⟩

/-- A program of allowed requests is safe under a monitor that allows them always. -/
theorem Safe.under {program : Program request answer α} {good : α → Prop}
    (safe : program.Safe (Monitor.only allowed) (fun _ => good) ())
    (permits : ∀ known asked, allowed asked → monitor.allows known asked) :
    program.Safe monitor (fun _ => good) known := by
  induction program generalizing known with
  | done value => exact safe
  | call asked next ih => exact ⟨permits known asked safe.1, fun reply => ih reply (safe.2 reply)⟩

theorem Safe.uses {program : Program request answer α} {post : κ → α → Prop}
    (safe : program.Safe monitor post known)
    (permits : ∀ known asked, monitor.allows known asked → allowed asked) :
    program.Uses allowed := by
  induction program generalizing known with
  | done value => trivial
  | call asked next ih => exact ⟨permits known asked safe.1, fun reply => ih reply (safe.2 reply)⟩

theorem Uses.mono {program : Program request answer α} {wider : request → Prop}
    (uses : program.Uses allowed) (wide : ∀ asked, allowed asked → wider asked) :
    program.Uses wider :=
  Safe.under uses fun _ => wide

/-- Allowed requests from whose answers the monitor learns nothing leave what it knows. -/
theorem Uses.still {program : Program request answer α} (uses : program.Uses allowed)
    (permits : ∀ asked, allowed asked → monitor.allows known asked)
    (silent : ∀ asked reply, allowed asked → monitor.advance known asked reply = known) :
    program.Safe monitor (fun later _ => later = known) known := by
  induction program with
  | done value => rfl
  | call asked next ih =>
      refine ⟨permits asked uses.1, fun reply => ?_⟩
      rw [silent asked reply uses.1]
      exact ih reply (uses.2 reply)

theorem Uses.any (program : Program request answer α) : program.Uses fun _ => True := by
  induction program with
  | done value => trivial
  | call asked next ih => exact ⟨trivial, ih⟩

inductive Makes : Program request answer α → request → Prop
  | now {asked : request} {next : answer asked → Program request answer α} :
      Makes (.call asked next) asked
  | later {asked other : request} {next : answer asked → Program request answer α}
      {reply : answer asked} (makes : Makes (next reply) other) : Makes (.call asked next) other

theorem Uses.makes (program : Program request answer α) : program.Uses program.Makes := by
  induction program with
  | done value => trivial
  | call asked next ih => exact ⟨.now, fun reply => (ih reply).mono fun other => .later⟩

theorem Uses.of_makes {program : Program request answer α} (uses : program.Uses allowed)
    {asked : request} (makes : program.Makes asked) : allowed asked := by
  induction makes with
  | now => exact uses.1
  | later makes ih => exact ih (uses.2 _)

theorem Uses.run_keeps {program : Program request answer α} (uses : program.Uses allowed)
    (inv : σ → Prop)
    (kept : ∀ state asked, inv state → allowed asked → inv (perform state asked).2)
    (state : σ) (start : inv state) : inv (program.run perform state).2 := by
  obtain ⟨_, held, -⟩ := Safe.run_keeps perform uses (fun state _ => inv state)
    (fun state _ asked => kept state asked) state start
  exact held

/-- A safe program that makes these requests only is safe where they alone are allowed. -/
theorem Safe.and_uses {program : Program request answer α} {post : κ → α → Prop}
    (safe : program.Safe monitor post known) (uses : program.Uses allowed) :
    program.Safe { monitor with
      allows := fun known asked => monitor.allows known asked ∧ allowed asked } post known := by
  induction program generalizing known with
  | done value => exact safe
  | call asked next ih =>
      exact ⟨⟨safe.1, uses.1⟩, fun reply => ih reply (safe.2 reply) (uses.2 reply)⟩

/-! ## Programs within larger ones -/

section Within

variable {request' : Type u} {answer' : request' → Type v}

/-- The program with each of its requests as one of a larger kind, and each answer read back. -/
def within (inject : request → request') (back : ∀ asked, answer' (inject asked) → answer asked) :
    Program request answer α → Program request' answer' α
  | .done value => .done value
  | .call asked next => .call (inject asked) fun reply => (next (back asked reply)).within inject back

variable {inject : request → request'} {back : ∀ asked, answer' (inject asked) → answer asked}

theorem Uses.within {program : Program request answer α} {allowed : request → Prop}
    {allowed' : request' → Prop} (uses : program.Uses allowed)
    (permits : ∀ asked, allowed asked → allowed' (inject asked)) :
    (program.within inject back).Uses allowed' := by
  induction program with
  | done value => trivial
  | call asked next ih => exact ⟨permits asked uses.1, fun reply => ih _ (uses.2 _)⟩

/-- A program within a larger one is as safe, as long as what the two monitors know stays
linked. -/
theorem Safe.within {κ' : Type z} {monitor' : Monitor request' answer' κ'} {known' : κ'}
    {program : Program request answer α} {post : κ → α → Prop} {post' : κ' → α → Prop}
    (safe : program.Safe monitor post known) (link : κ → κ' → Prop)
    (advances : ∀ known known' asked reply, link known known' →
      link (monitor.advance known asked (back asked reply))
        (monitor'.advance known' (inject asked) reply))
    (permits : ∀ known known' asked, link known known' → monitor.allows known asked →
      monitor'.allows known' (inject asked))
    (ends : ∀ known known' value, link known known' → post known value → post' known' value)
    (start : link known known') : (program.within inject back).Safe monitor' post' known' := by
  induction program generalizing known known' with
  | done value => exact ends known known' value start safe
  | call asked next ih =>
      exact ⟨permits known known' asked start safe.1, fun reply =>
        ih _ (safe.2 _) (advances known known' asked reply start)⟩

end Within

/-! ## What has been seen -/

/-- What a program has seen stays seen, so it may go by that from then on. -/
theorem safe_seen (program : Program request answer α)
    {kind : (asked : request) × answer asked → Prop}
    {allows : List ((asked : request) × answer asked) → request → Prop}
    {post : List ((asked : request) × answer asked) → α → Prop}
    {known : List ((asked : request) × answer asked)}
    (permits : ∀ later asked, (∃ entry ∈ later, kind entry) → allows later asked)
    (ends : ∀ later value, (∃ entry ∈ later, kind entry) → post later value)
    (found : ∃ entry ∈ known, kind entry) : program.Safe (.seen allows) post known := by
  induction program generalizing known with
  | done value => exact ends known value found
  | call asked next ih =>
      refine ⟨permits known asked found, fun reply => ih reply ?_⟩
      obtain ⟨entry, member, isKind⟩ := found
      exact ⟨entry, List.mem_cons_of_mem _ member, isKind⟩

/-- Whatever the program has seen at the start it has seen at the end. -/
theorem Safe.grows {program : Program request answer α}
    {allows : List ((asked : request) × answer asked) → request → Prop}
    {post : List ((asked : request) × answer asked) → α → Prop}
    {known : List ((asked : request) × answer asked)}
    (safe : program.Safe (.seen allows) post known) :
    program.Safe (.seen allows)
      (fun later value => (∀ entry ∈ known, entry ∈ later) ∧ post later value) known := by
  induction program generalizing known with
  | done value => exact ⟨fun _ member => member, safe⟩
  | call asked next ih =>
      refine ⟨safe.1, fun reply => (ih reply (safe.2 reply)).imp fun later value grown => ?_⟩
      exact ⟨fun entry member => grown.1 entry (List.mem_cons_of_mem _ member), grown.2⟩

/-- A run sees its trace, every entry of which is as the invariant makes it. -/
theorem Safe.run_seen {program : Program request answer α}
    {allows : List ((asked : request) × answer asked) → request → Prop}
    {post : List ((asked : request) × answer asked) → α → Prop}
    {known : List ((asked : request) × answer asked)}
    (safe : program.Safe (.seen allows) post known) (inv : σ → Prop)
    (truth : (asked : request) × answer asked → Prop)
    (kept : ∀ state asked, inv state →
      inv (perform state asked).2 ∧ truth ⟨asked, (perform state asked).1⟩)
    (state : σ) (start : inv state) :
    post ((program.trace perform state).reverse ++ known) (program.run perform state).1 ∧
      (∀ entry ∈ program.trace perform state, truth entry) ∧
      inv (program.run perform state).2 := by
  induction program generalizing state known with
  | done value => exact ⟨safe, by simp, start⟩
  | call asked next ih =>
      obtain ⟨held, told⟩ := kept state asked start
      obtain ⟨ends, truths, still⟩ := ih _ (safe.2 _) _ held
      refine ⟨?_, ?_, still⟩
      · rw [trace_call, List.reverse_cons, List.append_assoc]
        exact ends
      · intro entry member
        rcases List.mem_cons.mp member with rfl | later
        · exact told
        · exact truths entry later

theorem safe_any (program : Program request answer α)
    {post : List ((asked : request) × answer asked) → α → Prop}
    {known : List ((asked : request) × answer asked)} (always : ∀ seen value, post seen value) :
    program.Safe (.seen fun _ _ => True) post known := by
  induction program generalizing known with
  | done value => exact always known value
  | call asked next ih => exact ⟨trivial, fun reply => ih reply⟩

end Program
