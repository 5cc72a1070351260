import Mathlib
import Syntra.Lib.Fallible
import Syntra.Lib.Like
import Syntra.Lib.Text
import Syntra.Tenancy

/-!
# Searching objects by name

`list_grants` escapes the text it looks for with backslashes.  PostgreSQL reads them
as escapes and finds the text itself; SQLite reads them as characters, and does not
tell upper from lower case.
-/

set_option autoImplicit false

namespace Syntra

open Like

inductive DbType where
  | sqlite | postgres
  deriving Repr, DecidableEq

/-! ## `LIKE` -/

/-- SQLite has no escape character unless `ESCAPE` names one. -/
def sqliteTokens (pattern : List Char) : List Token :=
  pattern.map fun c => if c = '%' then .many else if c = '_' then .one else .exactly c

/-- PostgreSQL escapes with the backslash; `none` when nothing follows it. -/
def postgresTokens : List Char → Option (List Token)
  | [] => some []
  | '\\' :: c :: rest => (postgresTokens rest).map (.exactly c :: ·)
  | ['\\'] => none
  | '%' :: rest => (postgresTokens rest).map (.many :: ·)
  | '_' :: rest => (postgresTokens rest).map (.one :: ·)
  | c :: rest => (postgresTokens rest).map (.exactly c :: ·)

/-- ASCII letters are folded by SQLite. -/
def foldsTo (c d : Char) : Bool := decide (c.toLower = d.toLower)

/-- What a pattern finds.  Left out are the pattern of more than 50000 bytes, which SQLite
refuses, and NUL, at which SQLite ends a text and which PostgreSQL does not store. -/
def DbType.like (kind : DbType) (pattern : List Char) : Except DbError (String → Bool) :=
  match kind with
  | .sqlite => .ok fun name => accepts foldsTo (sqliteTokens pattern) name.toList
  | .postgres =>
    match postgresTokens pattern with
    | some tokens => .ok fun name => accepts (fun c d => decide (c = d)) tokens name.toList
    | none => .error "LIKE pattern must not end with escape character"

/-! ## The list of grants -/

def Database.grantsOf (db : Database) (tenantId : String) : List GrantRow :=
  (db.grants.rows.filter fun row => row.1 = tenantId).map (·.2)

/-- `ORDER BY updated_at_ms DESC LIMIT ?`. -/
def DbType.page (kind : DbType) (rows : List GrantRow) (limit : Int) :
    Except DbError (List GrantRow) :=
  let sorted := rows.mergeSort fun a b => decide (b.updatedAtMs ≤ a.updatedAtMs)
  if limit < 0 then
    match kind with
    | .sqlite => .ok sorted
    | .postgres => .error "LIMIT must not be negative"
  else .ok (sorted.take limit.toNat)

def replaceChar (c : Char) (replacement : List Char) (text : List Char) : List Char :=
  text.flatMap fun d => if d = c then replacement else [d]

/-- The pattern that is sent for a text. -/
def escapedPattern (pattern : String) : List Char :=
  '%' :: (replaceChar '_' ['\\', '_'] (replaceChar '%' ['\\', '%']
    (replaceChar '\\' ['\\', '\\'] pattern.toList)) ++ ['%'])

def listGrants (kind : DbType) (db : Database) (tenantId : String) (limit : Int)
    (nameLike : Option String) : Except DbError (List GrantRow) :=
  match nameLike with
  | some pattern => do
    let matching ← kind.like (escapedPattern pattern)
    kind.page ((db.grantsOf tenantId).filter fun row => matching row.name) limit
  | none => kind.page (db.grantsOf tenantId) limit

/-! ## What the pattern means -/

/-- A character that the pattern language of PostgreSQL does not read as itself. -/
def Special (c : Char) : Prop := c = '\\' ∨ c = '%' ∨ c = '_'

instance (c : Char) : Decidable (Special c) := inferInstanceAs (Decidable (_ ∨ _))

/-- The characters that stand for one of the text in the pattern. -/
def escapeChar (c : Char) : List Char := if Special c then ['\\', c] else [c]

/-- No replacement touches what an earlier one put in. -/
theorem escapedPattern_eq (pattern : String) :
    escapedPattern pattern = '%' :: (pattern.toList.flatMap escapeChar ++ ['%']) := by
  have once : ∀ text : List Char, replaceChar '_' ['\\', '_'] (replaceChar '%' ['\\', '%']
      (replaceChar '\\' ['\\', '\\'] text)) = text.flatMap escapeChar := by
    intro text
    simp only [replaceChar, List.flatMap_assoc]
    congr 1
    funext c
    unfold escapeChar
    by_cases backslash : c = '\\'
    · subst backslash
      decide
    · by_cases percent : c = '%'
      · subst percent
        decide
      · by_cases underscore : c = '_'
        · subst underscore
          decide
        · simp [Special, backslash, percent, underscore]
  rw [escapedPattern, once]

theorem postgresTokens_plain {c : Char} (plain : ¬ Special c) (rest : List Char) :
    postgresTokens (c :: rest) = (postgresTokens rest).map (.exactly c :: ·) := by
  simp only [Special, not_or] at plain
  obtain ⟨backslash, percent, underscore⟩ := plain
  rw [postgresTokens.eq_def]
  split <;> simp_all

theorem postgresTokens_escape (text rest : List Char) :
    postgresTokens (text.flatMap escapeChar ++ rest) =
      (postgresTokens rest).map (text.map .exactly ++ ·) := by
  induction text with
  | nil => simp
  | cons c text ih =>
      rw [List.flatMap_cons, List.append_assoc]
      by_cases special : Special c
      · rw [escapeChar, if_pos special, List.cons_append, List.singleton_append, postgresTokens,
          ih, Option.map_map]
        rfl
      · rw [escapeChar, if_neg special, List.singleton_append, postgresTokens_plain special, ih,
          Option.map_map]
        rfl

theorem postgresTokens_pattern (pattern : String) :
    postgresTokens (escapedPattern pattern) =
      some (.many :: (pattern.toList.map .exactly ++ [.many])) := by
  rw [escapedPattern_eq, postgresTokens, postgresTokens_escape]
  rfl

/-! ## What SQLite reads -/

/-- The texts that SQLite finds for a search: a letter in either case, two backslashes
for a backslash, a backslash and any text for `%`, a backslash and any character for `_`. -/
inductive SqliteReads : List Char → List Char → Prop where
  | nil : SqliteReads [] []
  | backslash {text part : List Char} (rest : SqliteReads text part) :
      SqliteReads ('\\' :: text) ('\\' :: '\\' :: part)
  | percent {text part : List Char} (between : List Char) (rest : SqliteReads text part) :
      SqliteReads ('%' :: text) ('\\' :: (between ++ part))
  | underscore {text part : List Char} (c : Char) (rest : SqliteReads text part) :
      SqliteReads ('_' :: text) ('\\' :: c :: part)
  | plain {text part : List Char} {c d : Char} (ordinary : ¬ Special c)
      (same : c.toLower = d.toLower) (rest : SqliteReads text part) :
      SqliteReads (c :: text) (d :: part)

theorem foldsTo_iff {c : Char} (other : c.isAlpha = false) {d : Char} :
    foldsTo c d = true ↔ d = c := by
  rw [foldsTo, decide_eq_true_eq]
  constructor
  · intro same
    have letters : d.isAlpha = c.isAlpha := by
      rw [← Char.isAlpha_toLower_eq_isAlpha, ← same, Char.isAlpha_toLower_eq_isAlpha]
    have notUpper : ∀ {x : Char}, x.isAlpha = false → ¬ x.isUpper = true := by
      intro x none upper
      simp [Char.isAlpha, upper] at none
    rw [Char.toLower_eq_of_not_isUpper (notUpper other),
      Char.toLower_eq_of_not_isUpper (notUpper (letters.trans other))] at same
    exact same.symm
  · rintro rfl
    rfl

theorem denotes_reading {text part : List Char} :
    Denotes foldsTo (sqliteTokens (text.flatMap escapeChar)) part ↔ SqliteReads text part := by
  have slash : ∀ {d : Char}, foldsTo '\\' d = true ↔ d = '\\' := foldsTo_iff (by decide)
  induction text generalizing part with
  | nil =>
      constructor
      · intro denotes
        cases denotes
        exact .nil
      · intro reading
        cases reading
        exact .nil
  | cons c text ih =>
      have tokens : ∀ head, escapeChar c = head →
          sqliteTokens ((c :: text).flatMap escapeChar) =
            sqliteTokens head ++ sqliteTokens (text.flatMap escapeChar) := by
        rintro head rfl
        simp [sqliteTokens]
      by_cases special : Special c
      · rw [tokens _ (if_pos special)]
        rcases special with rfl | rfl | rfl
        · constructor
          · intro denotes
            cases denotes with
            | exactly first denotes =>
                cases denotes with
                | exactly second denotes =>
                    cases slash.mp first
                    cases slash.mp second
                    exact .backslash (ih.mp denotes)
          · intro reading
            cases reading with
            | backslash rest =>
                exact .exactly (slash.mpr rfl) (.exactly (slash.mpr rfl) (ih.mpr rest))
            | plain ordinary => exact absurd (Or.inl rfl) ordinary
        · constructor
          · intro denotes
            cases denotes with
            | exactly first denotes =>
                cases denotes with
                | many between denotes =>
                    cases slash.mp first
                    exact .percent between (ih.mp denotes)
          · intro reading
            cases reading with
            | percent between rest => exact .exactly (slash.mpr rfl) (.many between (ih.mpr rest))
            | plain ordinary => exact absurd (Or.inr (Or.inl rfl)) ordinary
        · constructor
          · intro denotes
            cases denotes with
            | exactly first denotes =>
                cases denotes with
                | one d denotes =>
                    cases slash.mp first
                    exact .underscore d (ih.mp denotes)
          · intro reading
            cases reading with
            | underscore d rest => exact .exactly (slash.mpr rfl) (.one d (ih.mpr rest))
            | plain ordinary => exact absurd (Or.inr (Or.inr rfl)) ordinary
      · have single : sqliteTokens [c] = [.exactly c] := by
          simp only [Special, not_or] at special
          simp [sqliteTokens, special]
        rw [tokens _ (if_neg special), single]
        constructor
        · intro denotes
          cases denotes with
          | exactly equal denotes =>
              exact .plain special (of_decide_eq_true equal) (ih.mp denotes)
        · intro reading
          cases reading with
          | plain ordinary same rest => exact .exactly (decide_eq_true same) (ih.mpr rest)
          | backslash rest => exact absurd (Or.inl rfl) special
          | percent between rest => exact absurd (Or.inr (Or.inl rfl)) special
          | underscore d rest => exact absurd (Or.inr (Or.inr rfl)) special

def SqliteFinds (text name : String) : Prop :=
  ∃ part, part <:+: name.toList ∧ SqliteReads text.toList part

theorem like_sqlite (text : String) :
    ∃ matching, DbType.sqlite.like (escapedPattern text) = .ok matching ∧
      ∀ name, matching name = true ↔ SqliteFinds text name := by
  refine ⟨_, rfl, fun name => ?_⟩
  have tokens : sqliteTokens (escapedPattern text) =
      .many :: (sqliteTokens (text.toList.flatMap escapeChar) ++ [.many]) := by
    rw [escapedPattern_eq]
    simp [sqliteTokens]
  rw [accepts_iff, tokens, denotes_within]
  simp only [denotes_reading, SqliteFinds]

theorem like_postgres (text : String) :
    ∃ matching, DbType.postgres.like (escapedPattern text) = .ok matching ∧
      ∀ name, matching name = true ↔ Text.contains name text = true := by
  refine ⟨_, by simp only [DbType.like, postgresTokens_pattern]; rfl, fun name => ?_⟩
  rw [accepts_iff, denotes_within, Text.contains_iff]
  simp only [denotes_literal]
  constructor
  · rintro ⟨part, within, rfl⟩
    exact within
  · intro within
    exact ⟨_, within, rfl⟩

/-! ## What a search returns -/

theorem page_all (kind : DbType) {rows : List GrantRow} {limit : Int}
    (room : (rows.length : Int) ≤ limit) :
    kind.page rows limit =
      .ok (rows.mergeSort fun a b => decide (b.updatedAtMs ≤ a.updatedAtMs)) := by
  have sorted :=
    (List.mergeSort_perm rows fun a b => decide (b.updatedAtMs ≤ a.updatedAtMs)).length_eq
  unfold DbType.page
  dsimp only
  rw [if_neg (by omega), List.take_of_length_le (by omega)]

theorem listGrants_matching {kind : DbType} {db : Database} {tenantId text : String} {limit : Int}
    {matching : String → Bool} (like : kind.like (escapedPattern text) = .ok matching)
    (room : ((db.grantsOf tenantId).length : Int) ≤ limit) :
    listGrants kind db tenantId limit (some text) =
      .ok (((db.grantsOf tenantId).filter fun row => matching row.name).mergeSort
        fun a b => decide (b.updatedAtMs ≤ a.updatedAtMs)) := by
  have fewer :=
    List.length_filter_le (fun row : GrantRow => matching row.name) (db.grantsOf tenantId)
  simp only [listGrants, like, Fallible.ok_bind]
  exact page_all kind (by omega)

/-- Both databases answer with exactly the rows that have the text in their names. -/
structure LiteralSearch (db : Database) (tenantId : String) (limit : Int) (text : String) :
    Prop where
  sqlite : ∃ rows, listGrants .sqlite db tenantId limit (some text) = .ok rows ∧
    rows.Perm ((db.grantsOf tenantId).filter fun row => Text.contains row.name text)
  postgres : ∃ rows, listGrants .postgres db tenantId limit (some text) = .ok rows ∧
    rows.Perm ((db.grantsOf tenantId).filter fun row => Text.contains row.name text)
  same : listGrants .sqlite db tenantId limit (some text) =
    listGrants .postgres db tenantId limit (some text)

theorem literalSearch_iff {db : Database} {tenantId text : String} {limit : Int}
    (room : ((db.grantsOf tenantId).length : Int) ≤ limit) :
    LiteralSearch db tenantId limit text ↔
      ∀ row ∈ db.grantsOf tenantId,
        (Text.contains row.name text = true ↔ SqliteFinds text row.name) := by
  obtain ⟨lite, liteLike, reads⟩ := like_sqlite text
  obtain ⟨full, fullLike, contains⟩ := like_postgres text
  have liteRows := listGrants_matching liteLike room
  have fullRows := listGrants_matching fullLike room
  have exact_ : full = fun name => Text.contains name text := by
    funext name
    exact Bool.eq_iff_iff.mpr (contains name)
  subst exact_
  constructor
  · intro literal row member
    obtain ⟨rows, listed, perm⟩ := literal.sqlite
    rw [liteRows, Except.ok.injEq] at listed
    have both := ((List.mergeSort_perm _ _).symm.trans (listed ▸ perm)).mem_iff (a := row)
    simp only [List.mem_filter, member, true_and, reads] at both
    exact both.symm
  · intro agree
    have same : ((db.grantsOf tenantId).filter fun row => lite row.name) =
        (db.grantsOf tenantId).filter fun row => Text.contains row.name text := by
      apply List.filter_congr
      intro row member
      rw [Bool.eq_iff_iff, reads, agree row member]
    rw [same] at liteRows
    exact ⟨⟨_, liteRows, List.mergeSort_perm _ _⟩, ⟨_, fullRows, List.mergeSort_perm _ _⟩,
      liteRows.trans fullRows.symm⟩

/-! ## The texts for which every search is literal -/

theorem SqliteReads.backslashes {text part : List Char} (reading : SqliteReads text part) :
    2 * text.count '\\' + text.count '%' + text.count '_' ≤ part.count '\\' := by
  induction reading with
  | nil => simp
  | backslash rest ih =>
      simp
      omega
  | percent between rest ih =>
      simp
      omega
  | @underscore text part c rest ih =>
      have more := List.Sublist.count_le '\\' (List.sublist_cons_self c part)
      simp
      omega
  | plain ordinary same rest ih =>
      simp only [Special, not_or] at ordinary
      simp only [List.count_cons, beq_iff_eq, ordinary, if_false]
      omega

theorem reading_plain {text part : List Char}
    (plain : ∀ c ∈ text, ¬ Special c ∧ c.isAlpha = false) :
    SqliteReads text part ↔ part = text := by
  induction text generalizing part with
  | nil =>
      constructor
      · intro reading
        cases reading
        rfl
      · rintro rfl
        exact .nil
  | cons c text ih =>
      obtain ⟨ordinary, other⟩ := plain c List.mem_cons_self
      have rest := fun part => @ih part fun d member => plain d (List.mem_cons_of_mem _ member)
      constructor
      · intro reading
        cases reading with
        | plain _ same after =>
            rw [(rest _).mp after, (foldsTo_iff other).mp (decide_eq_true same)]
        | backslash after => exact absurd (Or.inl rfl) ordinary
        | percent between after => exact absurd (Or.inr (Or.inl rfl)) ordinary
        | underscore d after => exact absurd (Or.inr (Or.inr rfl)) ordinary
      · rintro rfl
        exact .plain ordinary rfl ((rest _).mpr rfl)

def swapCase (c : Char) : Char := if c.isUpper then c.toLower else c.toUpper

theorem toLower_swapCase (c : Char) : c.toLower = (swapCase c).toLower := by
  unfold swapCase
  split <;> simp

theorem swapCase_ne {c : Char} (letter : c.isAlpha = true) : swapCase c ≠ c := by
  intro same
  unfold swapCase at same
  split at same
  · rename_i upper
    rw [← same, Char.isUpper_toLower_eq_false] at upper
    cases upper
  · rename_i lower
    have isLower : c.isLower = true := by simpa [Char.isAlpha, lower] using letter
    rw [← same, Char.isLower_toUpper_eq_false] at isLower
    cases isLower

theorem reading_swapCase {text : List Char} (ordinary : ∀ c ∈ text, ¬ Special c) :
    SqliteReads text (text.map swapCase) := by
  induction text with
  | nil => exact .nil
  | cons c text ih =>
      exact .plain (ordinary c List.mem_cons_self) (toLower_swapCase c)
        (ih fun d member => ordinary d (List.mem_cons_of_mem _ member))

def namedGrant (tenantId name : String) : Database where
  grants :=
    { rows := [(tenantId, { objectHash := "h", refs := 1, originalSize := 1, essenceSize := 1,
                            name, createdAtMs := 1, updatedAtMs := 1 })]
      unique := List.nodup_singleton _ }
  events := Table.empty

theorem namedGrant_literal {tenantId name text : String}
    (literal : LiteralSearch (namedGrant tenantId name) tenantId 1 text) :
    Text.contains name text = true ↔ SqliteFinds text name := by
  have rows : (namedGrant tenantId name).grantsOf tenantId =
      [{ objectHash := "h", refs := 1, originalSize := 1, essenceSize := 1, name,
         createdAtMs := 1, updatedAtMs := 1 }] := by
    simp [Database.grantsOf, namedGrant]
  exact (literalSearch_iff (by simp [rows])).mp literal _ (by rw [rows]; exact List.mem_cons_self)

theorem plain_of_literal {text : String} (tenantId : String)
    (literal : ∀ name, LiteralSearch (namedGrant tenantId name) tenantId 1 text) :
    ∀ c ∈ text.toList, ¬ Special c ∧ c.isAlpha = false := by
  have ordinary : ∀ c ∈ text.toList, ¬ Special c := by
    intro c member special
    have itself : Text.contains text text = true := Text.contains_iff.mpr List.infix_rfl
    obtain ⟨part, within, reading⟩ := (namedGrant_literal (literal text)).mp itself
    have asked := reading.backslashes
    have had := within.sublist.count_le '\\'
    have present := List.count_pos_iff.mpr member
    rcases special with rfl | rfl | rfl <;> omega
  intro c member
  refine ⟨ordinary c member, ?_⟩
  by_contra letter
  rw [Bool.not_eq_false] at letter
  have readIt : SqliteFinds text (String.ofList (text.toList.map swapCase)) :=
    ⟨_, by simp, reading_swapCase ordinary⟩
  have within := Text.contains_iff.mp
    ((namedGrant_literal (literal (String.ofList (text.toList.map swapCase)))).mpr readIt)
  rw [String.toList_ofList] at within
  have same := within.eq_of_length (by simp)
  obtain ⟨i, inside, rfl⟩ := List.getElem_of_mem member
  have swapped := congrArg (·[i]?) same
  simp only [List.getElem?_map, List.getElem?_eq_getElem inside, Option.map_some,
    Option.some.injEq] at swapped
  exact swapCase_ne letter swapped.symm

/-- On PostgreSQL a search is always literal.  On SQLite it is for the texts whose every
reading is the text itself, which the names of a tenant may hide: over all grants, for
the texts without ASCII letters, `%`, `_` and backslashes. -/
theorem listGrants_literal_iff (tenantId text : String) :
    (∀ (db : Database) (limit : Int), ((db.grantsOf tenantId).length : Int) ≤ limit →
      (LiteralSearch db tenantId limit text ↔
        ∀ row ∈ db.grantsOf tenantId,
          (Text.contains row.name text = true ↔ SqliteFinds text row.name))) ∧
    ((∀ (db : Database) (limit : Int), ((db.grantsOf tenantId).length : Int) ≤ limit →
      LiteralSearch db tenantId limit text) ↔
      ∀ c ∈ text.toList, ¬ Special c ∧ c.isAlpha = false) := by
  refine ⟨fun db limit room => literalSearch_iff room, ?_, ?_⟩
  · intro literal
    apply plain_of_literal tenantId
    intro name
    exact literal (namedGrant tenantId name) 1 (by simp [Database.grantsOf, namedGrant])
  · intro plain db limit room
    rw [literalSearch_iff room]
    intro row _
    simp only [Text.contains_iff, SqliteFinds, reading_plain plain]
    constructor
    · intro within
      exact ⟨_, within, rfl⟩
    · rintro ⟨part, within, rfl⟩
      exact within

/-- A text of digits is found on both databases. -/
theorem listGrants_literal_iff_digits :
    LiteralSearch (namedGrant "t" "notas 2024.csv") "t" 10 "2024" :=
  (listGrants_literal_iff "t" "2024").2.mpr (by simp [Special]) _ 10 (by decide)

/-- SQLite does not find `50%` in a name that contains it. -/
theorem listGrants_misses_percent :
    ¬ ∀ (db : Database) (tenantId text : String) (limit : Int),
      ((db.grantsOf tenantId).length : Int) ≤ limit → LiteralSearch db tenantId limit text := by
  intro always
  have literal := always (namedGrant "t" "desconto 50%.csv") "t" "50%" 10 (by decide)
  have listed : listGrants .sqlite (namedGrant "t" "desconto 50%.csv") "t" 10 (some "50%") =
      .ok [] := by
    decide +kernel
  have answered : listGrants .postgres (namedGrant "t" "desconto 50%.csv") "t" 10 (some "50%") ≠
      .ok [] := by
    decide +kernel
  exact answered (literal.same.symm.trans listed)

end Syntra
