import Mathlib.Algebra.Order.BigOperators.Group.List
import Mathlib.Algebra.Order.Ring.Nat
import Mathlib.Logic.Function.Basic
import Mathlib.Tactic.Common

/-!
# Permits

Fair semaphores, as tokio documents its own, and the clients that take permits of them and
give them back.  A permit that is given back goes to who has waited longest.  Somebody else
may keep free permits back and restore them, and a client may be dropped at any time: it
leaves its queue and gives back what it holds.

Where every client takes permits in the order of a rank and gives them all back, and some
permit of each semaphore is not kept back, nobody waits in vain.
-/

set_option autoImplicit false

universe u

namespace Permits

inductive Op (S : Type u) where
  | take (s : S)
  | give (s : S)
  deriving DecidableEq

structure Client (S : Type u) where
  /-- What is left to do, the permit that is waited for included. -/
  script : List (Op S)
  held : List S
  waits : Option S
  deriving DecidableEq

variable {S : Type u} [DecidableEq S]

namespace Client

def enter (script : List (Op S)) : Client S := { script, held := [], waits := none }

def wait (s : S) (client : Client S) : Client S := { client with waits := some s }

def receive (s : S) (client : Client S) : Client S :=
  { script := client.script.tail, held := s :: client.held, waits := none }

def give (s : S) (client : Client S) : Client S :=
  { client with script := client.script.tail, held := client.held.erase s }

def drop (client : Client S) : Client S :=
  { script := client.held.map .give, held := client.held, waits := none }

def left (client : Client S) : Nat :=
  2 * client.script.length + if client.waits.isSome then 0 else 1

end Client

end Permits

/-- The semaphores with the clients that have come, by their numbers in the queues. -/
structure Permits (S : Type u) where
  free : S → Nat
  /-- The permits that are kept back. -/
  kept : S → Nat
  queue : S → List Nat
  clients : List (Permits.Client S)

namespace Permits

variable {S : Type u} [DecidableEq S]

def start (capacity : S → Nat) : Permits S :=
  { free := capacity, kept := fun _ => 0, queue := fun _ => [], clients := [] }

def modify (state : Permits S) (i : Nat) (change : Client S → Client S) : Permits S :=
  { state with clients := state.clients.modify i change }

/-- One permit more, for who has waited longest or for anybody. -/
def release (state : Permits S) (s : S) : Permits S :=
  match state.queue s with
  | [] => { state with free := Function.update state.free s (state.free s + 1) }
  | i :: rest =>
    { state.modify i (Client.receive s) with queue := Function.update state.queue s rest }

inductive Move (S : Type u) where
  | arrive (script : List (Op S))
  | go (i : Nat)
  | drop (i : Nat)
  | keep (s : S)
  | restore (s : S)

/-- A client takes a free permit, or queues for the next one. -/
def take (state : Permits S) (i : Nat) (s : S) : Permits S :=
  if state.free s = 0 then
    { state.modify i (Client.wait s) with
      queue := Function.update state.queue s (state.queue s ++ [i]) }
  else
    { state.modify i (Client.receive s) with
      free := Function.update state.free s (state.free s - 1) }

def go (state : Permits S) (i : Nat) (client : Client S) : Option (Permits S) :=
  match client.waits, client.script with
  | none, .take s :: _ => some (state.take i s)
  | none, .give s :: _ => some ((state.modify i (Client.give s)).release s)
  | _, _ => none

def step (state : Permits S) : Move S → Option (Permits S)
  | .arrive script => some { state with clients := state.clients ++ [Client.enter script] }
  | .go i => (state.clients[i]?).bind fun client => state.go i client
  | .drop i => (state.clients[i]?).map fun _ =>
    { state.modify i Client.drop with queue := fun s => (state.queue s).erase i }
  | .keep s =>
    if state.free s = 0 then none
    else some { state with
      free := Function.update state.free s (state.free s - 1)
      kept := Function.update state.kept s (state.kept s + 1) }
  | .restore s =>
    if state.kept s = 0 then none
    else some
      ({ state with kept := Function.update state.kept s (state.kept s - 1) }.release s)

def holding (state : Permits S) (s : S) : Nat := (state.clients.map fun c => c.held.count s).sum

/-! ## Order -/

/-- The script takes permits in the order of their rank over those held, and gives all back. -/
def Ordered (rank : S → Nat) : List S → List (Op S) → Prop
  | held, [] => held = []
  | held, .take s :: rest => (∀ t ∈ held, rank t < rank s) ∧ Ordered rank (s :: held) rest
  | held, .give s :: rest => s ∈ held ∧ Ordered rank (held.erase s) rest

variable {rank capacity : S → Nat}

theorem ordered_give (rank : S → Nat) (held : List S) : Ordered rank held (held.map .give) := by
  induction held with
  | nil => rfl
  | cons s held ih => exact ⟨List.mem_cons_self, by rwa [List.erase_cons_head]⟩

theorem Ordered.length_le {held : List S} {script : List (Op S)}
    (ordered : Ordered rank held script) : held.length ≤ script.length := by
  induction script generalizing held with
  | nil => rw [Ordered] at ordered; simp [ordered]
  | cons op rest ih =>
      cases op with
      | take s =>
          have tail := ih ordered.2
          rw [List.length_cons] at tail ⊢
          omega
      | give s =>
          have tail := ih ordered.2
          rw [List.length_erase_of_mem ordered.1] at tail
          rw [List.length_cons]
          omega

/-- A script that takes permits from a rank on, and gives back what it took. -/
def Balanced (rank : S → Nat) (floor : Nat) (script : List (Op S)) : Prop :=
  ∀ (held : List S) (rest : List (Op S)), (∀ t ∈ held, rank t < floor) →
    Ordered rank held rest → Ordered rank held (script ++ rest)

theorem balanced_nil (rank : S → Nat) (floor : Nat) : Balanced rank floor [] :=
  fun _ _ _ ordered => ordered

theorem Balanced.append {floor : Nat} {first second : List (Op S)}
    (balanced : Balanced rank floor first) (then_balanced : Balanced rank floor second) :
    Balanced rank floor (first ++ second) := by
  intro held rest low ordered
  rw [List.append_assoc]
  exact balanced held _ low (then_balanced held rest low ordered)

theorem Balanced.under {floor : Nat} {s : S} {script : List (Op S)} (higher : floor ≤ rank s)
    (balanced : Balanced rank (rank s + 1) script) :
    Balanced rank floor (.take s :: (script ++ [.give s])) := by
  intro held rest low ordered
  have below : ∀ t ∈ held, rank t < rank s := fun t member =>
    Nat.lt_of_lt_of_le (low t member) higher
  refine ⟨below, ?_⟩
  show Ordered rank (s :: held) (script ++ [.give s] ++ rest)
  rw [List.append_assoc]
  refine balanced (s :: held) _ (fun t member => ?_) ⟨List.mem_cons_self, ?_⟩
  · rcases List.mem_cons.mp member with rfl | member
    · exact Nat.lt_succ_self _
    · exact Nat.lt_succ_of_lt (below t member)
  · rw [List.erase_cons_head]
    exact ordered

theorem Balanced.ordered {floor : Nat} {script : List (Op S)}
    (balanced : Balanced rank floor script) : Ordered rank [] script := by
  have ordered := balanced [] [] (by simp) rfl
  rwa [List.append_nil] at ordered

/-! ## What holds always -/

/-- A client keeps to the order, and waits for what it takes next. -/
structure Client.Sound (rank : S → Nat) (client : Client S) : Prop where
  ordered : Ordered rank client.held client.script
  waiting : ∀ s, client.waits = some s → client.script.head? = some (.take s)

/-- The permits are free, kept back, held, or lost for the moment; nobody queues while one is
free, and who waits is in the queue. -/
structure Inv (rank capacity : S → Nat) (lost : S → Nat) (state : Permits S) : Prop where
  counted : ∀ s, state.free s + state.kept s + state.holding s + lost s = capacity s
  busy : ∀ s, state.queue s ≠ [] → state.free s = 0
  queued : ∀ s i, i ∈ state.queue s ↔
    ∃ client, state.clients[i]? = some client ∧ client.waits = some s
  nodup : ∀ s, (state.queue s).Nodup
  sound : ∀ client ∈ state.clients, client.Sound rank

theorem inv_start (rank capacity : S → Nat) : (start capacity).Inv rank capacity 0 where
  counted s := by simp [start, holding]
  busy s filled := absurd rfl filled
  queued s i := by simp [start]
  nodup s := List.nodup_nil
  sound client member := by cases member

section Modify

variable {state : Permits S} {i : Nat} {client : Client S}

theorem sum_modify {α : Type u} {l : List α} {i : Nat} {a : α} (here : l[i]? = some a)
    (f : α → Nat) (g : α → α) :
    ((l.modify i g).map f).sum + f a = (l.map f).sum + f (g a) := by
  induction l generalizing i with
  | nil => simp at here
  | cons b l ih =>
      cases i with
      | zero =>
          cases here
          simp only [List.modify_zero_cons, List.map_cons, List.sum_cons]
          omega
      | succ i =>
          rw [List.getElem?_cons_succ] at here
          have tail := ih here
          simp only [List.modify_succ_cons, List.map_cons, List.sum_cons]
          omega

theorem holding_modify (change : Client S → Client S) (here : state.clients[i]? = some client)
    (s : S) :
    (state.modify i change).holding s + client.held.count s =
      state.holding s + (change client).held.count s :=
  sum_modify here (fun c => c.held.count s) change

theorem sound_modify {change : Client S → Client S} (here : state.clients[i]? = some client)
    (sound : ∀ c ∈ state.clients, c.Sound rank) (changed : (change client).Sound rank) :
    ∀ c ∈ (state.modify i change).clients, c.Sound rank := by
  intro c member
  obtain ⟨j, there⟩ := List.getElem?_of_mem member
  rw [modify, List.getElem?_modify] at there
  obtain ⟨old, before, rfl⟩ := Option.map_eq_some_iff.mp there
  split
  · rename_i same
    subst same
    rw [here] at before
    rwa [← Option.some.inj before]
  · exact sound _ (List.mem_of_getElem? before)

omit [DecidableEq S] in
theorem waits_modify (change : Client S → Client S) (here : state.clients[i]? = some client)
    (s : S) (j : Nat) :
    (∃ c, (state.modify i change).clients[j]? = some c ∧ c.waits = some s) ↔
      if j = i then (change client).waits = some s
      else ∃ c, state.clients[j]? = some c ∧ c.waits = some s := by
  rw [modify, List.getElem?_modify]
  by_cases same : j = i
  · rw [if_pos same, same, here]
    simp
  · rw [if_neg same]
    simp [Ne.symm same]

end Modify

/-! ## Permits that come back -/

theorem Client.Sound.receive {client : Client S} (sound : client.Sound rank) {s : S}
    {rest : List (Op S)} (next : client.script = .take s :: rest) :
    (client.receive s).Sound rank where
  ordered := by
    have ordered := sound.ordered
    rw [next] at ordered
    rw [Client.receive, next]
    exact ordered.2
  waiting t impossible := by cases impossible

theorem Client.Sound.next {client : Client S} (sound : client.Sound rank) {s : S}
    (waits : client.waits = some s) : ∃ rest, client.script = .take s :: rest := by
  have head := sound.waiting s waits
  cases shape : client.script with
  | nil =>
      rw [shape] at head
      cases head
  | cons op rest =>
      rw [shape] at head
      cases head
      exact ⟨rest, rfl⟩

theorem Inv.release {state : Permits S} {s : S}
    (inv : state.Inv rank capacity (Function.update 0 s 1)) :
    (state.release s).Inv rank capacity 0 := by
  unfold Permits.release
  cases shape : state.queue s with
  | nil =>
      refine ⟨fun t => ?_, fun t filled => ?_, inv.queued, inv.nodup, inv.sound⟩
      · have counted := inv.counted t
        by_cases same : t = s
        · subst same
          rw [Function.update_self] at counted
          simp only [Function.update_self, Pi.zero_apply]
          show _ + _ + state.holding t + 0 = _
          omega
        · rw [Function.update_of_ne same] at counted
          simp only [Function.update_of_ne same]
          exact counted
      · by_cases same : t = s
        · subst same
          exact absurd shape filled
        · simp only [Function.update_of_ne same]
          exact inv.busy t filled
  | cons i rest =>
      dsimp only
      have member : i ∈ state.queue s := by
        rw [shape]
        exact List.mem_cons_self
      obtain ⟨client, here, waits⟩ := (inv.queued s i).mp member
      obtain ⟨script, next⟩ := (inv.sound client (List.mem_of_getElem? here)).next waits
      have once := inv.nodup s
      rw [shape, List.nodup_cons] at once
      refine ⟨fun t => ?_, fun t filled => ?_, fun t j => ?_, fun t => ?_, ?_⟩
      · have counted := inv.counted t
        have moved := holding_modify (Client.receive s) here t
        simp only [Client.receive, List.count_cons] at moved
        show state.free t + state.kept t + (state.modify i (Client.receive s)).holding t + 0 = _
        by_cases same : t = s
        · subst same
          rw [Function.update_self] at counted
          simp only [BEq.rfl, if_true] at moved
          omega
        · rw [Function.update_of_ne same] at counted
          rw [if_neg (by simpa using Ne.symm same)] at moved
          simp only [Pi.zero_apply] at counted
          omega
      · dsimp only at filled
        apply inv.busy t
        by_cases same : t = s
        · subst same
          rw [shape]
          exact List.cons_ne_nil i rest
        · rwa [Function.update_of_ne same] at filled
      · refine Iff.trans ?_ (waits_modify (Client.receive s) here t j).symm
        dsimp only
        by_cases other : j = i
        · rw [if_pos other, other]
          simp only [Client.receive, reduceCtorEq, iff_false]
          by_cases same : t = s
          · subst same
            rw [Function.update_self]
            exact once.1
          · rw [Function.update_of_ne same, inv.queued]
            intro also
            obtain ⟨own, there, waitsToo⟩ := also
            rw [here] at there
            rw [← Option.some.inj there, waits] at waitsToo
            exact same (Option.some.inj waitsToo).symm
        · rw [if_neg other]
          by_cases same : t = s
          · subst same
            rw [Function.update_self, ← inv.queued, shape, List.mem_cons]
            simp [other]
          · rw [Function.update_of_ne same, inv.queued]
      · dsimp only
        by_cases same : t = s
        · subst same
          rw [Function.update_self]
          exact once.2
        · rw [Function.update_of_ne same]
          exact inv.nodup t
      · exact sound_modify here inv.sound
          ((inv.sound client (List.mem_of_getElem? here)).receive next)

/-! ## Steps -/

section Steps

variable {state next : Permits S} {lost lost' : S → Nat} {i : Nat} {client : Client S} {s : S}

/-- A client that goes on waiting, or goes on not waiting. -/
theorem Inv.modify {change : Client S → Client S} (inv : state.Inv rank capacity lost)
    (here : state.clients[i]? = some client) (same : (change client).waits = client.waits)
    (sound : (change client).Sound rank)
    (counts : ∀ t, (change client).held.count t + lost' t = client.held.count t + lost t) :
    (state.modify i change).Inv rank capacity lost' where
  counted t := by
    have counted := inv.counted t
    have moved := holding_modify change here t
    have balanced := counts t
    show state.free t + state.kept t + (state.modify i change).holding t + lost' t = capacity t
    omega
  busy := inv.busy
  queued t j := by
    refine Iff.trans ?_ (waits_modify change here t j).symm
    refine (inv.queued t j).trans ?_
    split
    · rename_i own
      rw [own, here, same]
      simp
    · exact Iff.rfl
  nodup := inv.nodup
  sound := sound_modify here inv.sound sound

theorem Inv.borrow (inv : state.Inv rank capacity 0) (free : state.free s ≠ 0) :
    ({ state with free := Function.update state.free s (state.free s - 1) } :
      Permits S).Inv rank capacity (Function.update 0 s 1) where
  counted t := by
    have counted := inv.counted t
    rw [Pi.zero_apply] at counted
    show Function.update state.free s _ t + state.kept t + state.holding t + _ = _
    by_cases same : t = s
    · subst same
      rw [Function.update_self, Function.update_self]
      omega
    · rw [Function.update_of_ne same, Function.update_of_ne same]
      exact counted
  busy t filled := by
    have none_free := inv.busy t filled
    by_cases same : t = s
    · subst same
      exact absurd none_free free
    · show Function.update state.free s _ t = 0
      rw [Function.update_of_ne same]
      exact none_free
  queued := inv.queued
  nodup := inv.nodup
  sound := inv.sound

theorem Inv.rekeep {kept : S → Nat} (inv : state.Inv rank capacity lost)
    (balanced : ∀ t, kept t + lost' t = state.kept t + lost t) :
    ({ state with kept } : Permits S).Inv rank capacity lost' where
  counted t := by
    have counted := inv.counted t
    have same := balanced t
    show state.free t + kept t + state.holding t + lost' t = capacity t
    omega
  busy := inv.busy
  queued := inv.queued
  nodup := inv.nodup
  sound := inv.sound

theorem Inv.restored (inv : state.Inv rank capacity 0) (kept : state.kept s ≠ 0) :
    ({ state with kept := Function.update state.kept s (state.kept s - 1) } :
      Permits S).Inv rank capacity (Function.update 0 s 1) := by
  refine Inv.rekeep inv fun t => ?_
  rw [Pi.zero_apply, Function.update_apply, Function.update_apply]
  by_cases same : t = s
  · subst same
    simp only [if_true]
    omega
  · simp [same]

theorem Inv.enqueue (inv : state.Inv rank capacity 0)
    (here : state.clients[i]? = some client) (idle : client.waits = none)
    (sound : (client.wait s).Sound rank) (full : state.free s = 0) :
    ({ state.modify i (Client.wait s) with
      queue := Function.update state.queue s (state.queue s ++ [i]) } :
      Permits S).Inv rank capacity 0 := by
  have outside : ∀ t, i ∉ state.queue t := by
    intro t member
    obtain ⟨own, there, waits⟩ := (inv.queued t i).mp member
    rw [here] at there
    rw [← Option.some.inj there, idle] at waits
    cases waits
  refine ⟨fun t => ?_, fun t filled => ?_, fun t j => ?_, fun t => ?_, ?_⟩
  · have counted := inv.counted t
    have moved := holding_modify (Client.wait s) here t
    simp only [Client.wait] at moved
    show state.free t + state.kept t + (state.modify i (Client.wait s)).holding t + _ = _
    omega
  · by_cases same : t = s
    · exact same ▸ full
    · apply inv.busy t
      dsimp only at filled
      rwa [Function.update_of_ne same] at filled
  · refine Iff.trans ?_ (waits_modify (Client.wait s) here t j).symm
    dsimp only
    by_cases own : j = i
    · rw [if_pos own, own]
      by_cases same : t = s
      · subst same
        simp [Client.wait]
      · rw [Function.update_of_ne same]
        simp [Client.wait, outside t, Ne.symm same]
    · rw [if_neg own, ← inv.queued]
      by_cases same : t = s
      · subst same
        rw [Function.update_self, List.mem_append, List.mem_singleton, or_iff_left own]
      · rw [Function.update_of_ne same]
  · dsimp only
    by_cases same : t = s
    · subst same
      rw [Function.update_self, List.nodup_append]
      refine ⟨inv.nodup t, by simp, fun j member k other => ?_⟩
      rw [List.mem_singleton.mp other]
      exact fun same => outside t (same ▸ member)
    · rw [Function.update_of_ne same]
      exact inv.nodup t
  · exact sound_modify here inv.sound sound

theorem Inv.drop (inv : state.Inv rank capacity 0) (here : state.clients[i]? = some client) :
    ({ state.modify i Client.drop with queue := fun s => (state.queue s).erase i } :
      Permits S).Inv rank capacity 0 := by
  refine ⟨fun t => ?_, fun t filled => ?_, fun t j => ?_, fun t => ?_, ?_⟩
  · have counted := inv.counted t
    have moved := holding_modify Client.drop here t
    simp only [Client.drop] at moved
    show state.free t + state.kept t + (state.modify i Client.drop).holding t + _ = _
    omega
  · apply inv.busy t
    intro empty
    dsimp only at filled
    rw [empty] at filled
    exact filled rfl
  · refine Iff.trans ?_ (waits_modify Client.drop here t j).symm
    dsimp only
    rw [(inv.nodup t).mem_erase_iff]
    split
    · rename_i own
      simp [own, Client.drop]
    · rename_i apart
      rw [← inv.queued, and_iff_right apart]
  · exact (inv.nodup t).erase i
  · refine sound_modify here inv.sound ⟨ordered_give rank client.held, fun s impossible => ?_⟩
    cases impossible

theorem Inv.arrive (inv : state.Inv rank capacity 0) {script : List (Op S)}
    (ordered : Ordered rank [] script) :
    ({ state with clients := state.clients ++ [Client.enter script] } :
      Permits S).Inv rank capacity 0 where
  counted t := by
    have counted := inv.counted t
    simp only [holding, List.map_append, List.sum_append] at counted ⊢
    simpa [Client.enter] using counted
  busy := inv.busy
  queued t j := by
    refine (inv.queued t j).trans ?_
    constructor
    · intro waiting
      obtain ⟨own, here, waits⟩ := waiting
      refine ⟨own, ?_, waits⟩
      rw [List.getElem?_append_left (List.getElem?_eq_some_iff.mp here).1]
      exact here
    · intro waiting
      obtain ⟨own, here, waits⟩ := waiting
      rw [List.getElem?_append] at here
      split at here
      · exact ⟨own, here, waits⟩
      · rw [List.getElem?_singleton] at here
        split at here
        · cases here
          cases waits
        · cases here
  nodup := inv.nodup
  sound := by
    intro own member
    rcases List.mem_append.mp member with before | new
    · exact inv.sound own before
    · rw [List.mem_singleton.mp new]
      exact ⟨ordered, fun s impossible => by cases impossible⟩

theorem Inv.sound_of_get (inv : state.Inv rank capacity lost)
    (here : state.clients[i]? = some client) : client.Sound rank :=
  inv.sound client (List.mem_of_getElem? here)

/-- What a client may do next. -/
theorem go_cases (taken : state.go i client = some next) :
    client.waits = none ∧
      ((∃ s rest, client.script = .take s :: rest ∧ next = state.take i s) ∨
        ∃ s rest, client.script = .give s :: rest ∧
          next = (state.modify i (Client.give s)).release s) := by
  unfold go at taken
  split at taken
  · rename_i s rest idle shape
    exact ⟨idle, Or.inl ⟨s, rest, shape, (Option.some.inj taken).symm⟩⟩
  · rename_i s rest idle shape
    exact ⟨idle, Or.inr ⟨s, rest, shape, (Option.some.inj taken).symm⟩⟩
  · cases taken

theorem Inv.take (inv : state.Inv rank capacity 0) (here : state.clients[i]? = some client)
    (idle : client.waits = none) {rest : List (Op S)} (shape : client.script = .take s :: rest) :
    (state.take i s).Inv rank capacity 0 := by
  have sound := inv.sound_of_get here
  unfold Permits.take
  split
  · rename_i full
    refine inv.enqueue here idle ⟨sound.ordered, fun t waits => ?_⟩ full
    rw [← Option.some.inj waits]
    exact congrArg List.head? shape
  · rename_i free
    refine Inv.modify (inv.borrow free) here ?_ (sound.receive shape) fun t => ?_
    · exact idle.symm
    · rw [Client.receive, List.count_cons, Pi.zero_apply, Function.update_apply]
      by_cases same : t = s
      · simp [same]
      · simp [same, Ne.symm same]

theorem Inv.given (inv : state.Inv rank capacity 0) (here : state.clients[i]? = some client)
    (idle : client.waits = none) {rest : List (Op S)} (shape : client.script = .give s :: rest) :
    (state.modify i (Client.give s)).Inv rank capacity (Function.update 0 s 1) := by
  have ordered := (inv.sound_of_get here).ordered
  rw [shape] at ordered
  refine Inv.modify inv here rfl ⟨?_, fun t waits => ?_⟩ fun t => ?_
  · rw [Client.give, shape]
    exact ordered.2
  · rw [Client.give, idle] at waits
    cases waits
  · rw [Client.give, List.count_erase, Pi.zero_apply, Function.update_apply]
    by_cases same : t = s
    · subst same
      have held := List.count_pos_iff.mpr ordered.1
      simp only [BEq.rfl, if_true]
      omega
    · simp [same, Ne.symm same]

def Move.Proper (rank : S → Nat) : Move S → Prop
  | .arrive script => Ordered rank [] script
  | _ => True

/-- Every move keeps the invariant. -/
theorem Inv.step (inv : state.Inv rank capacity 0) {move : Move S}
    (taken : state.step move = some next) (proper : move.Proper rank) :
    next.Inv rank capacity 0 := by
  cases move with
  | arrive script =>
      rw [← Option.some.inj taken]
      exact inv.arrive proper
  | go i =>
      obtain ⟨client, here, taken⟩ := Option.bind_eq_some_iff.mp taken
      obtain ⟨idle, ⟨s, rest, shape, rfl⟩ | ⟨s, rest, shape, rfl⟩⟩ := go_cases taken
      · exact inv.take here idle shape
      · exact (inv.given here idle shape).release
  | drop i =>
      obtain ⟨client, here, rfl⟩ := Option.map_eq_some_iff.mp taken
      exact inv.drop here
  | keep s =>
      simp only [Permits.step, Option.ite_none_left_eq_some, Option.some.injEq] at taken
      obtain ⟨free, rfl⟩ := taken
      refine Inv.rekeep (inv.borrow free) fun t => ?_
      rw [Pi.zero_apply, Function.update_apply, Function.update_apply]
      by_cases same : t = s
      · simp [same]
      · simp [same]
  | restore s =>
      simp only [Permits.step, Option.ite_none_left_eq_some, Option.some.injEq] at taken
      obtain ⟨kept, rfl⟩ := taken
      exact (inv.restored kept).release

/-! ## Nobody waits in vain -/

def Client.Finished (client : Client S) : Prop := client.script = []

/-- Where everybody waits and all can be served, whom one waits for waits for more. -/
theorem waits_higher (inv : state.Inv rank capacity 0) (room : ∀ s, state.kept s < capacity s)
    (stuck : ∀ (i : Nat) (client : Client S), state.clients[i]? = some client →
      ¬ client.Finished → client.waits ≠ none)
    (here : state.clients[i]? = some client) (waits : client.waits = some s) :
    ∃ (j : Nat) (other : Client S) (t : S), state.clients[j]? = some other ∧
      other.waits = some t ∧ rank s < rank t := by
  have member : i ∈ state.queue s := (inv.queued s i).mpr ⟨client, here, waits⟩
  have full := inv.busy s (List.ne_nil_of_mem member)
  have counted := inv.counted s
  have spare := room s
  rw [full, Pi.zero_apply] at counted
  have somebody : ∃ n ∈ state.clients.map fun c => c.held.count s, n ≠ 0 := by
    by_contra nobody
    push Not at nobody
    have empty : state.holding s = 0 := List.sum_eq_zero nobody
    omega
  obtain ⟨n, counts, positive⟩ := somebody
  obtain ⟨other, present, rfl⟩ := List.mem_map.mp counts
  have holds : s ∈ other.held := List.count_pos_iff.mp (Nat.pos_of_ne_zero positive)
  obtain ⟨j, there⟩ := List.getElem?_of_mem present
  have sound := inv.sound other present
  have unfinished : ¬ other.Finished := by
    intro finished
    have empty := sound.ordered
    rw [finished] at empty
    rw [show other.held = [] from empty] at holds
    cases holds
  obtain ⟨t, waitsToo⟩ := Option.ne_none_iff_exists'.mp (stuck j other there unfinished)
  obtain ⟨rest, next⟩ := sound.next waitsToo
  have ordered := sound.ordered
  rw [next] at ordered
  exact ⟨j, other, t, there, waitsToo, ordered.1 s holds⟩

/-- While a client has something left to do, some client can go on. -/
theorem Inv.goes (inv : state.Inv rank capacity 0) (room : ∀ s, state.kept s < capacity s)
    (here : state.clients[i]? = some client) (unfinished : ¬ client.Finished) :
    ∃ j next, state.step (.go j) = some next := by
  by_contra none_goes
  push Not at none_goes
  have stuck : ∀ (j : Nat) (other : Client S), state.clients[j]? = some other →
      ¬ other.Finished → other.waits ≠ none := by
    intro j other there busy idle
    cases shape : other.script with
    | nil => exact busy shape
    | cons op rest =>
        cases op with
        | take s =>
            apply none_goes j (state.take j s)
            simp [Permits.step, there, go, idle, shape]
        | give s =>
            apply none_goes j ((state.modify j (Client.give s)).release s)
            simp [Permits.step, there, go, idle, shape]
  -- Ranks would be waited at without bound, and there are finitely many clients.
  have unbounded : ∀ n, ∃ (j : Nat) (other : Client S) (t : S),
      state.clients[j]? = some other ∧ other.waits = some t ∧ n ≤ rank t := by
    intro n
    induction n with
    | zero =>
        obtain ⟨s, waits⟩ := Option.ne_none_iff_exists'.mp (stuck i client here unfinished)
        exact ⟨i, client, s, here, waits, Nat.zero_le _⟩
    | succ n ih =>
        obtain ⟨j, other, t, there, waits, high⟩ := ih
        obtain ⟨k, third, u, present, waitsToo, higher⟩ := waits_higher inv room stuck there waits
        exact ⟨k, third, u, present, waitsToo, Nat.succ_le_of_lt (Nat.lt_of_le_of_lt high higher)⟩
  obtain ⟨j, other, t, there, waits, high⟩ :=
    unbounded ((state.clients.map fun c => c.waits.elim 0 rank).sum + 1)
  have bounded : other.waits.elim 0 rank ≤ (state.clients.map fun c => c.waits.elim 0 rank).sum :=
    List.le_sum_of_mem (List.mem_map.mpr ⟨other, List.mem_of_getElem? there, rfl⟩)
  rw [waits, Option.elim_some] at bounded
  omega

/-! ## How many moves there are -/

def left (state : Permits S) : Nat := (state.clients.map Client.left).sum

omit [DecidableEq S] in
theorem left_modify (change : Client S → Client S) (here : state.clients[i]? = some client) :
    (state.modify i change).left + client.left = state.left + (change client).left :=
  sum_modify here Client.left change

theorem Inv.left_release (inv : state.Inv rank capacity lost) (s : S) :
    (state.release s).left ≤ state.left := by
  unfold Permits.release
  split
  · exact Nat.le_refl _
  · rename_i j rest shape
    have member : j ∈ state.queue s := by
      rw [shape]
      exact List.mem_cons_self
    obtain ⟨own, there, waits⟩ := (inv.queued s j).mp member
    obtain ⟨script, next⟩ := (inv.sound_of_get there).next waits
    have moved := left_modify (Client.receive s) there
    simp only [Client.left, Client.receive, next, waits, List.tail_cons, List.length_cons,
      Option.isSome_some, Option.isSome_none, if_true, Bool.false_eq_true, if_false] at moved
    show (state.modify j (Client.receive s)).left ≤ state.left
    omega

/-- A move of a client leaves fewer. -/
theorem Inv.left_go (inv : state.Inv rank capacity 0)
    (taken : state.step (.go i) = some next) : next.left < state.left := by
  obtain ⟨client, here, taken⟩ := Option.bind_eq_some_iff.mp taken
  obtain ⟨idle, ⟨s, rest, shape, rfl⟩ | ⟨s, rest, shape, rfl⟩⟩ := go_cases taken
  · unfold Permits.take
    split
    · have moved := left_modify (Client.wait s) here
      simp only [Client.left, Client.wait, idle, Option.isSome_some, Option.isSome_none, if_true,
        Bool.false_eq_true, if_false] at moved
      show (state.modify i (Client.wait s)).left < state.left
      omega
    · have moved := left_modify (Client.receive s) here
      simp only [Client.left, Client.receive, shape, idle, List.tail_cons, List.length_cons,
        Option.isSome_none, Bool.false_eq_true, if_false] at moved
      show (state.modify i (Client.receive s)).left < state.left
      omega
  · have moved := left_modify (Client.give s) here
    simp only [Client.left, Client.give, shape, idle, List.tail_cons, List.length_cons,
      Option.isSome_none, Bool.false_eq_true, if_false] at moved
    have released := (inv.given here idle shape).left_release s
    omega

theorem Client.Sound.left_drop (sound : client.Sound rank) : client.drop.left ≤ client.left := by
  simp only [Client.left, Client.drop, List.length_map, Option.isSome_none, Bool.false_eq_true,
    if_false]
  cases waits : client.waits with
  | none =>
      have shorter := sound.ordered.length_le
      simp only [Option.isSome_none, Bool.false_eq_true, if_false]
      omega
  | some s =>
      obtain ⟨rest, next⟩ := sound.next waits
      have ordered := sound.ordered
      rw [next] at ordered
      have shorter := ordered.2.length_le
      rw [List.length_cons] at shorter
      rw [next, List.length_cons]
      omega

def Move.arrivals : Move S → Nat
  | .arrive script => 2 * script.length + 1
  | _ => 0

def Move.isGo : Move S → Bool
  | .go _ => true
  | _ => false

theorem Inv.left_step (inv : state.Inv rank capacity 0) {move : Move S}
    (taken : state.step move = some next) :
    next.left + (if move.isGo then 1 else 0) ≤ state.left + move.arrivals := by
  cases move with
  | arrive script =>
      rw [← Option.some.inj taken]
      simp [left, Client.left, Client.enter, Move.isGo, Move.arrivals]
  | go i =>
      have fewer := inv.left_go taken
      simp only [Move.isGo, if_true, Move.arrivals]
      omega
  | drop i =>
      obtain ⟨client, here, rfl⟩ := Option.map_eq_some_iff.mp taken
      have moved := left_modify Client.drop here
      have dropped := (inv.sound_of_get here).left_drop
      show (state.modify i Client.drop).left + 0 ≤ state.left + 0
      omega
  | keep s =>
      simp only [Permits.step, Option.ite_none_left_eq_some, Option.some.injEq] at taken
      rw [← taken.2]
      exact Nat.le_refl _
  | restore s =>
      simp only [Permits.step, Option.ite_none_left_eq_some, Option.some.injEq] at taken
      obtain ⟨kept, rfl⟩ := taken
      exact (inv.restored kept).left_release s

theorem release_kept (state : Permits S) (s : S) : (state.release s).kept = state.kept := by
  unfold Permits.release
  split <;> rfl

theorem kept_go (taken : state.step (.go i) = some next) : next.kept = state.kept := by
  obtain ⟨client, here, taken⟩ := Option.bind_eq_some_iff.mp taken
  obtain ⟨-, ⟨s, rest, -, rfl⟩ | ⟨s, rest, -, rfl⟩⟩ := go_cases taken
  · unfold Permits.take
    split <;> rfl
  · rw [release_kept]
    rfl

/-- Where nobody can go on, everybody is done. -/
theorem Inv.all_finished (inv : state.Inv rank capacity 0)
    (room : ∀ s, state.kept s < capacity s) (halted : ∀ j, state.step (.go j) = none) :
    ∀ client ∈ state.clients, client.Finished := by
  intro client member
  obtain ⟨i, here⟩ := List.getElem?_of_mem member
  by_contra unfinished
  obtain ⟨j, further, goes⟩ := inv.goes room here unfinished
  rw [halted j] at goes
  cases goes

end Steps

end Permits
