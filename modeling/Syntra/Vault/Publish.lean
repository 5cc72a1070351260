import Syntra.Lib.Pool
import Syntra.Vault

/-!
# Publishing a blob

All writers of one content share the name of the temporary file.  As long as a
writer creates it only when no other is between its own creation and its
renaming, the published file holds the bytes of one writer and no renaming
fails.
-/

set_option autoImplicit false

namespace Syntra

open FileSystem Program

namespace Publish

abbrev Writer := Call (FileSystem.Request FilePath) FileSystem.Request.Answer (Except Error Unit)

abbrev Writers :=
  Pool (FileSystem FilePath) (FileSystem.Request FilePath) FileSystem.Request.Answer
    (Except Error Unit)

/-- The temporary file of a path. -/
def tmp (path : FilePath) : FilePath := path.withExtension "syntra.tmp"

theorem tmp_ne (hash : Digest) : tmp (pathFor hash) ≠ pathFor hash := by
  intro same
  have extension := congrArg FilePath.extension same
  simp [tmp, pathFor, FilePath.withExtension, essenceExtension] at extension

def isWriting (writer : Writer) : Bool :=
  match writer.next? with
  | some (.write _ _) | some (.rename _ _) => true
  | _ => false

/-- Nobody is writing when the temporary file is created. -/
def Exclusive (pool : Writers) (index : Nat) : Prop :=
  ∀ writer name, pool.calls[index]? = some writer → writer.next? = some (.create name) →
    ∀ other ∈ pool.calls, isWriting other = false

/-! ## Where a writer stands -/

def finish (path : FilePath) (fuel : Nat) (file : File) (remaining : Bytes) :
    Action FilePath Unit :=
  andThen (writeAll fuel file remaining) fun _ => send (.rename (tmp path) path)

/-- Not begun, with bytes of the offered kind, or done. -/
def Settled (path : FilePath) (offered : Bytes → Prop) (writer : Writer) : Prop :=
  (∃ bytes, offered bytes ∧ writer.rest = writeAtomic path bytes) ∨ writer.rest = .done (.ok ())

/-- The temporary file holds what the writer has written so far. -/
def Writing (path : FilePath) (offered : Bytes → Prop) (fs : FileSystem FilePath)
    (writer : Writer) : Prop :=
  ∃ written remaining fuel inode, offered (written ++ remaining) ∧ remaining.length ≤ fuel ∧
    fs.entry (tmp path) = some inode ∧ fs.contents inode = written ∧
    writer.rest = finish path fuel ⟨inode, written.length⟩ remaining

theorem writeAtomic_eq (path : FilePath) (bytes : Bytes) :
    ∃ next, writeAtomic path bytes = .call (.create (tmp path)) next ∧
      ∀ file, next (.ok file) = finish path bytes.length file bytes :=
  ⟨_, rfl, fun _ => rfl⟩

theorem finish_nil (path : FilePath) (fuel : Nat) (file : File) :
    ∃ next, finish path fuel file [] = .call (.rename (tmp path) path) next ∧
      next (.ok ()) = .done (.ok ()) := by
  cases fuel <;> exact ⟨_, rfl, rfl⟩

theorem finish_cons (path : FilePath) (fuel : Nat) (file : File) (byte : UInt8) (rest : Bytes) :
    ∃ next, finish path (fuel + 1) file (byte :: rest) =
        .call (.write file (byte :: rest)) next ∧
      ∀ count, next (.ok (count + 1)) =
        finish path fuel ⟨file.inode, file.position + (count + 1)⟩
          ((byte :: rest).drop (count + 1)) :=
  ⟨_, rfl, fun _ => rfl⟩

theorem Writing.is_writing {path : FilePath} {offered : Bytes → Prop} {fs : FileSystem FilePath}
    {writer : Writer} (writing : Writing path offered fs writer) : isWriting writer = true := by
  obtain ⟨written, remaining, fuel, inode, -, enough, -, -, rest⟩ := writing
  cases remaining with
  | nil =>
      obtain ⟨next, renames, -⟩ := finish_nil path fuel ⟨inode, written.length⟩
      simp [isWriting, Call.next?, rest, renames]
  | cons byte remaining =>
      cases fuel with
      | zero => simp at enough
      | succ fuel =>
          obtain ⟨next, writes, -⟩ := finish_cons path fuel ⟨inode, written.length⟩ byte remaining
          simp [isWriting, Call.next?, rest, writes]

/-! ## One step of the file system -/

/-- What the published file holds, if there is one, is of the offered kind. -/
def Complete (path : FilePath) (offered : Bytes → Prop) (fs : FileSystem FilePath) : Prop :=
  ∀ inode, fs.entry path = some inode → offered (fs.contents inode)

variable {path : FilePath} {offered : Bytes → Prop} {fs : FileSystem FilePath}

theorem create_step (apart : tmp path ≠ path) (complete : Complete path offered fs) :
    ∃ inode, (fs.perform (.create (tmp path))).1 = .ok ⟨inode, 0⟩ ∧
      (fs.perform (.create (tmp path))).2.entry (tmp path) = some inode ∧
      (fs.perform (.create (tmp path))).2.contents inode = [] ∧
      (fs.perform (.create (tmp path))).2.entry path = fs.entry path ∧
      Complete path offered (fs.perform (.create (tmp path))).2 := by
  cases found : fs.entry (tmp path) with
  | some inode =>
      refine ⟨inode, by simp [perform, found], by simp [perform, found], by simp [perform, found],
        by simp [perform, found], ?_⟩
      intro published present
      simp only [perform, found] at present ⊢
      have other : published ≠ inode := by
        rintro rfl
        exact apart (fs.single _ _ _ found present)
      rw [Function.update_of_ne other]
      exact complete published present
  | none =>
      refine ⟨fs.fresh, by simp [perform, found], by simp [perform, found, link],
        by simp [perform, found, link], by simp [perform, found, link, Ne.symm apart], ?_⟩
      intro published present
      simp only [perform, found, link, Function.update_of_ne (Ne.symm apart)] at present ⊢
      have other : published ≠ fs.fresh := (fs.used _ _ present).ne
      rw [Function.update_of_ne other]
      exact complete published present

theorem write_step (apart : tmp path ≠ path) (complete : Complete path offered fs)
    (inode : Nat) (found : fs.entry (tmp path) = some inode) (bytes : Bytes) :
    (fs.perform (.write ⟨inode, (fs.contents inode).length⟩ bytes)).1 = .ok (fs.taken bytes) ∧
      (fs.perform (.write ⟨inode, (fs.contents inode).length⟩ bytes)).2.entry = fs.entry ∧
      (fs.perform (.write ⟨inode, (fs.contents inode).length⟩ bytes)).2.contents inode =
        fs.contents inode ++ bytes.take (fs.taken bytes) ∧
      Complete path offered (fs.perform (.write ⟨inode, (fs.contents inode).length⟩ bytes)).2 := by
  refine ⟨rfl, rfl, ?_, ?_⟩
  · simp only [perform, Function.update_self, writeAt_end]
  · intro published present
    simp only [perform] at present ⊢
    have other : published ≠ inode := by
      rintro rfl
      exact apart (fs.single _ _ _ found present)
    rw [Function.update_of_ne other]
    exact complete published present

theorem rename_step (inode : Nat) (found : fs.entry (tmp path) = some inode)
    (whole : offered (fs.contents inode)) :
    (fs.perform (.rename (tmp path) path)).1 = .ok () ∧
      (fs.perform (.rename (tmp path) path)).2.entry path = some inode ∧
      Complete path offered (fs.perform (.rename (tmp path) path)).2 := by
  have moved : fs.perform (.rename (tmp path) path) = (.ok (), fs.move (tmp path) path) := by
    simp [perform, found]
  rw [moved]
  have entry : (fs.move (tmp path) path).entry path = some inode := by simp [move, found]
  refine ⟨rfl, entry, ?_⟩
  intro published present
  rw [entry, Option.some.injEq] at present
  rw [← present]
  exact whole

/-! ## Runs -/

/-- At most one writer has begun and not finished; once one has finished the
file is there. -/
structure Coordinated (path : FilePath) (offered : Bytes → Prop) (pool : Writers) : Prop where
  complete : Complete path offered pool.state
  active : ∃ active : Option Nat, ∀ index writer, pool.calls[index]? = some writer →
    (active = some index → Writing path offered pool.state writer) ∧
    (active ≠ some index → Settled path offered writer)
  published : ∀ writer ∈ pool.calls, writer.rest = .done (.ok ()) →
    pool.state.entry path ≠ none

/-- What a step leaves of the pool, when the writers other than `index` are settled. -/
theorem coordinated_set {pool : Writers} {index : Nat} {writer moved : Writer}
    {after : FileSystem FilePath} (present : pool.calls[index]? = some writer)
    (others : ∀ other found, pool.calls[other]? = some found → other ≠ index →
      Settled path offered found)
    (complete : Complete path offered after)
    (stands : Writing path offered after moved ∨
      moved.rest = .done (.ok ()) ∧ after.entry path ≠ none)
    (kept : (∃ found ∈ pool.calls, found.rest = .done (.ok ())) → after.entry path ≠ none) :
    Coordinated path offered { state := after, calls := pool.calls.set index moved } := by
  have inside : index < pool.calls.length := (List.getElem?_eq_some_iff.mp present).1
  refine ⟨complete, ?_, ?_⟩
  · rcases stands with writing | ⟨finished, -⟩
    · refine ⟨some index, fun other found here => ?_⟩
      by_cases same : index = other
      · subst same
        rw [List.getElem?_set_self inside, Option.some.injEq] at here
        subst here
        exact ⟨fun _ => writing, fun apart => absurd rfl apart⟩
      · rw [List.getElem?_set_ne same] at here
        exact ⟨fun active => absurd (Option.some.inj active) same,
          fun _ => others other found here (Ne.symm same)⟩
    · refine ⟨none, fun other found here => ⟨fun active => by simp at active, fun _ => ?_⟩⟩
      by_cases same : index = other
      · subst same
        rw [List.getElem?_set_self inside, Option.some.injEq] at here
        subst here
        exact Or.inr finished
      · rw [List.getElem?_set_ne same] at here
        exact others other found here (Ne.symm same)
  · intro found member finished
    rcases List.mem_or_eq_of_mem_set member with before | rfl
    · exact kept ⟨found, before, finished⟩
    · rcases stands with writing | ⟨-, there⟩
      · have working := writing.is_writing
        simp [isWriting, Call.next?, finished] at working
      · exact there

theorem exclusive_step (apart : tmp path ≠ path) (pool next : Writers) (index : Nat)
    (coordinated : Coordinated path offered pool) (exclusive : Exclusive pool index)
    (taken : Pool.step perform pool index = some next) : Coordinated path offered next := by
  obtain ⟨writer, request, rest, present, shape, rfl⟩ := Pool.step_eq_some taken
  obtain ⟨complete, ⟨active, stand⟩, published⟩ := coordinated
  by_cases here : active = some index
  · -- the writer at work goes on; the others are settled
    have others : ∀ other found, pool.calls[other]? = some found → other ≠ index →
        Settled path offered found := fun other found at_ different =>
      (stand other found at_).2 (by rw [here]; simpa using Ne.symm different)
    obtain ⟨written, remaining, fuel, inode, whole, enough, found, holds, goes⟩ :=
      (stand index writer present).1 here
    cases remaining with
    | nil =>
        obtain ⟨after, renames, ends⟩ := finish_nil path fuel ⟨inode, written.length⟩
        rw [goes, renames] at shape
        cases shape
        rw [List.append_nil, ← holds] at whole
        obtain ⟨answer, entry, still⟩ := rename_step inode found whole
        refine coordinated_set present others still (Or.inr ⟨?_, ?_⟩) ?_
        · rw [answer]
          exact ends
        · rw [entry]
          simp
        · intro _
          rw [entry]
          simp
    | cons byte remaining =>
        cases fuel with
        | zero => simp at enough
        | succ fuel =>
            obtain ⟨after, writes, goesOn⟩ :=
              finish_cons path fuel ⟨inode, written.length⟩ byte remaining
            rw [goes, writes] at shape
            cases shape
            subst holds
            obtain ⟨answer, entry, holds, still⟩ :=
              write_step apart complete inode found (byte :: remaining)
            have positive := pool.state.taken_pos (byte :: remaining) (by simp)
            obtain ⟨count, counted⟩ := Nat.exists_eq_add_one_of_ne_zero positive.ne'
            rw [counted] at answer holds
            refine coordinated_set present others still (Or.inl ?_) ?_
            · refine ⟨_, (byte :: remaining).drop (count + 1), fuel, inode, ?_, ?_, ?_, holds, ?_⟩
              · rwa [List.append_assoc, List.take_append_drop]
              · rw [List.length_drop]
                rw [List.length_cons] at enough ⊢
                omega
              · rw [entry]
                exact found
              · rw [answer]
                have shorter : count + 1 ≤ (byte :: remaining).length := by
                  rw [← counted]
                  exact Nat.min_le_left _ _
                rw [goesOn count, List.length_append, List.length_take, Nat.min_eq_left shorter]
            · rintro ⟨other, member, finished⟩
              rw [entry]
              exact published other member finished
  · rcases (stand index writer present).2 here with ⟨bytes, isOffered, waits⟩ | finished
    · obtain ⟨after, creates, goesOn⟩ := writeAtomic_eq path bytes
      rw [waits, creates] at shape
      cases shape
      have idle := exclusive writer (tmp path) present (by simp [Call.next?, waits, creates])
      have others : ∀ other found, pool.calls[other]? = some found → other ≠ index →
          Settled path offered found := by
        intro other found at_ _
        refine (stand other found at_).2 fun running => ?_
        have working := ((stand other found at_).1 running).is_writing
        rw [idle found (List.mem_of_getElem? at_)] at working
        simp at working
      obtain ⟨inode, answer, found, empty, entry, still⟩ := create_step apart complete
      refine coordinated_set present others still (Or.inl ?_) ?_
      · refine ⟨[], bytes, bytes.length, inode, isOffered, le_refl _, found, empty, ?_⟩
        rw [answer]
        exact goesOn ⟨inode, 0⟩
      · rintro ⟨other, member, finished⟩
        rw [entry]
        exact published other member finished
    · rw [finished] at shape
      cases shape

theorem coordinated_start (fs : FileSystem FilePath) (complete : Complete path offered fs)
    (callers : List Bytes) (allOffered : ∀ bytes ∈ callers, offered bytes) :
    Coordinated path offered (Pool.start fs (callers.map (writeAtomic path))) := by
  refine ⟨complete, ⟨none, fun index writer present => ⟨fun active => by simp at active, ?_⟩⟩, ?_⟩
  · intro _
    rw [Pool.getElem?_start, List.getElem?_map] at present
    obtain ⟨program, found, rfl⟩ := Option.map_eq_some_iff.mp present
    obtain ⟨bytes, caller, rfl⟩ := Option.map_eq_some_iff.mp found
    exact Or.inl ⟨bytes, allOffered bytes (List.mem_of_getElem? caller), rfl⟩
  · intro writer member finished
    obtain ⟨program, found, rfl⟩ := List.mem_map.mp member
    obtain ⟨bytes, -, rfl⟩ := List.mem_map.mp found
    obtain ⟨next, creates, -⟩ := writeAtomic_eq path bytes
    rw [Call.fresh, creates] at finished
    cases finished

/-- Where the temporary file is created only when nobody is writing, every writer
succeeds and every read sees all of what one writer wrote, or what was there before. -/
theorem exclusive_publish (hash : Digest) (fs : FileSystem FilePath) (callers : List Bytes)
    (moves : List Nat) (final : Writers)
    (run : Run.exec (Pool.step perform)
      (Pool.start fs (callers.map (writeAtomic (pathFor hash)))) moves = some final)
    (exclusive : Run.Meets (Pool.step perform) Exclusive
      (Pool.start fs (callers.map (writeAtomic (pathFor hash)))) moves) :
    (∀ index reply, final.returned index = some reply → reply = .ok ()) ∧
      (∀ bytes, (final.state.perform (.read (pathFor hash))).1 = .ok bytes →
        bytes ∈ callers ∨ (fs.perform (.read (pathFor hash))).1 = .ok bytes) ∧
      ((∃ index reply, final.returned index = some reply) →
        ∃ bytes, (final.state.perform (.read (pathFor hash))).1 = .ok bytes) := by
  let offered (bytes : Bytes) : Prop :=
    bytes ∈ callers ∨ (fs.perform (.read (pathFor hash))).1 = .ok bytes
  have before : Complete (pathFor hash) offered fs := by
    intro inode present
    exact Or.inr (by simp [perform, present])
  have coordinated : Coordinated (pathFor hash) offered final :=
    Run.invariant Exclusive (Coordinated (pathFor hash) offered)
      (fun pool index next held allowed taken =>
        exclusive_step (tmp_ne hash) pool next index held allowed taken)
      _ final moves
      (coordinated_start fs before callers fun bytes member => Or.inl member) exclusive run
  obtain ⟨complete, ⟨active, stand⟩, published⟩ := coordinated
  have ends : ∀ index reply, final.returned index = some reply →
      ∃ writer ∈ final.calls, writer.rest = .done (.ok ()) ∧ reply = .ok () := by
    intro index reply returned
    obtain ⟨writer, present, finished⟩ := Option.bind_eq_some_iff.mp returned
    have idle : isWriting writer = false := by
      unfold Call.returned at finished
      split at finished
      · rename_i value rest
        simp [isWriting, Call.next?, rest]
      · simp at finished
    have settled := (stand index writer present).2 fun running => by
      rw [((stand index writer present).1 running).is_writing] at idle
      simp at idle
    rcases settled with ⟨bytes, -, waits⟩ | rest
    · obtain ⟨next, creates, -⟩ := writeAtomic_eq (pathFor hash) bytes
      simp [Call.returned, waits, creates] at finished
    · refine ⟨writer, List.mem_of_getElem? present, rest, ?_⟩
      simpa [Call.returned, rest] using finished.symm
  refine ⟨fun index reply returned => (ends index reply returned).choose_spec.2.2, ?_, ?_⟩
  · intro bytes read
    cases entry : final.state.entry (pathFor hash) with
    | none => simp [perform, entry] at read
    | some inode =>
        simp only [perform, entry, Except.ok.injEq] at read
        exact read ▸ complete inode entry
  · rintro ⟨index, reply, returned⟩
    obtain ⟨writer, member, rest, -⟩ := ends index reply returned
    obtain ⟨inode, entry⟩ := Option.ne_none_iff_exists'.mp (published writer member rest)
    exact ⟨final.state.contents inode, by simp [perform, entry]⟩

def emptyFiles : FileSystem FilePath where
  contents _ := []
  entry _ := none
  fresh := 0
  accepts _ := 3
  used := by simp
  single := by simp

def someHash : Digest := ⟨List.replicate 32 7, by decide⟩

theorem exclusive_publish_two :
    ∃ final, Run.exec (Pool.step perform)
        (Pool.start emptyFiles ([[1, 2], [9]].map (writeAtomic (pathFor someHash))))
        [0, 0, 0, 1, 1, 1] = some final ∧
      (∀ index reply, final.returned index = some reply → reply = .ok ()) := by
  refine ⟨_, rfl, (exclusive_publish someHash emptyFiles [[1, 2], [9]]
    [0, 0, 0, 1, 1, 1] _ rfl ?_).1⟩
  refine Run.meets_cons rfl (fun _ _ _ _ => by decide) (Run.meets_cons rfl ?_
    (Run.meets_cons rfl ?_ (Run.meets_cons rfl (fun _ _ _ _ => by decide)
      (Run.meets_cons rfl ?_ (Run.meets_cons rfl ?_ trivial))))) <;>
    intro writer name present creates <;> cases present <;> cases creates

/-- The second writer truncates what the first has written, and the first publishes
that; then the second finds its file gone. -/
theorem shared_tmp_tears :
    ∃ torn final, Run.exec (Pool.step perform)
        (Pool.start emptyFiles ([[1, 2, 3], [9]].map (writeAtomic (pathFor someHash))))
        [0, 0, 1, 0] = some torn ∧
      (torn.state.perform (.read (pathFor someHash))).1 = .ok [] ∧
      Run.exec (Pool.step perform) torn [1, 1] = some final ∧
      final.returned 1 = some (.error .notFound) := by
  refine ⟨_, _, rfl, ?_, rfl, ?_⟩
  · rfl
  · rfl

end Publish

end Syntra
