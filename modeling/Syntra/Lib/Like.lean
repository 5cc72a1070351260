import Mathlib.Data.List.Infix
import Mathlib.Tactic.Common

/-!
# Patterns with wildcards

The patterns of SQL's `LIKE`: characters, `_` for any one and `%` for any number of
them.  How characters are compared, and whether there is an escape character, differs
between databases.
-/

set_option autoImplicit false

namespace Like

inductive Token where
  | many
  | one
  | exactly (c : Char)
  deriving Repr, DecidableEq

def accepts (same : Char → Char → Bool) : List Token → List Char → Bool
  | [], text => text.isEmpty
  | .many :: tokens, text => text.tails.any (accepts same tokens)
  | .one :: tokens, text =>
    match text with
    | [] => false
    | _ :: rest => accepts same tokens rest
  | .exactly c :: tokens, text =>
    match text with
    | [] => false
    | d :: rest => same c d && accepts same tokens rest

/-- The texts of a pattern. -/
inductive Denotes (same : Char → Char → Bool) : List Token → List Char → Prop where
  | nil : Denotes same [] []
  | many {tokens : List Token} {rest : List Char} (part : List Char)
      (after : Denotes same tokens rest) : Denotes same (.many :: tokens) (part ++ rest)
  | one {tokens : List Token} {rest : List Char} (c : Char) (after : Denotes same tokens rest) :
      Denotes same (.one :: tokens) (c :: rest)
  | exactly {tokens : List Token} {rest : List Char} {c d : Char} (equal : same c d = true)
      (after : Denotes same tokens rest) : Denotes same (.exactly c :: tokens) (d :: rest)

variable {same : Char → Char → Bool} {tokens more : List Token} {text : List Char}

theorem accepts_iff : accepts same tokens text = true ↔ Denotes same tokens text := by
  induction tokens generalizing text with
  | nil =>
      constructor
      · intro accepted
        rw [List.isEmpty_iff.mp accepted]
        exact .nil
      · intro denotes
        cases denotes
        rfl
  | cons token tokens ih =>
      cases token with
      | many =>
          simp only [accepts, List.any_eq_true, List.mem_tails, ih]
          constructor
          · rintro ⟨rest, ⟨part, rfl⟩, after⟩
            exact .many part after
          · intro denotes
            cases denotes with
            | many part after => exact ⟨_, List.suffix_append part _, after⟩
      | one =>
          cases text with
          | nil =>
              constructor
              · intro accepted
                simp [accepts] at accepted
              · intro denotes
                cases denotes
          | cons c rest =>
              rw [accepts, ih]
              constructor
              · exact .one c
              · intro denotes
                cases denotes with
                | one c after => exact after
      | exactly c =>
          cases text with
          | nil =>
              constructor
              · intro accepted
                simp [accepts] at accepted
              · intro denotes
                cases denotes
          | cons d rest =>
              simp only [accepts, Bool.and_eq_true, ih]
              constructor
              · rintro ⟨equal, after⟩
                exact .exactly equal after
              · intro denotes
                cases denotes with
                | exactly equal after => exact ⟨equal, after⟩

theorem denotes_append :
    Denotes same (tokens ++ more) text ↔
      ∃ first rest, text = first ++ rest ∧ Denotes same tokens first ∧ Denotes same more rest := by
  induction tokens generalizing text with
  | nil =>
      constructor
      · intro denotes
        exact ⟨[], text, rfl, .nil, denotes⟩
      · rintro ⟨first, rest, rfl, none, denotes⟩
        cases none
        exact denotes
  | cons token tokens ih =>
      constructor
      · intro denotes
        cases denotes with
        | many part after =>
            obtain ⟨first, rest, rfl, here, there⟩ := ih.mp after
            exact ⟨part ++ first, rest, by simp, .many part here, there⟩
        | one c after =>
            obtain ⟨first, rest, rfl, here, there⟩ := ih.mp after
            exact ⟨c :: first, rest, rfl, .one c here, there⟩
        | exactly equal after =>
            obtain ⟨first, rest, rfl, here, there⟩ := ih.mp after
            exact ⟨_ :: first, rest, rfl, .exactly equal here, there⟩
      · rintro ⟨first, rest, rfl, here, there⟩
        cases here with
        | many part after =>
            rw [List.append_assoc]
            exact .many part (ih.mpr ⟨_, rest, rfl, after, there⟩)
        | one c after => exact .one c (ih.mpr ⟨_, rest, rfl, after, there⟩)
        | exactly equal after => exact .exactly equal (ih.mpr ⟨_, rest, rfl, after, there⟩)

theorem denotes_many : Denotes same [.many] text := by
  have whole : Denotes same [.many] (text ++ []) := .many text .nil
  rwa [List.append_nil] at whole

/-- A pattern between two `%` is looked for anywhere. -/
theorem denotes_within :
    Denotes same (.many :: (tokens ++ [.many])) text ↔
      ∃ part, part <:+: text ∧ Denotes same tokens part := by
  constructor
  · intro denotes
    cases denotes with
    | many before after =>
        obtain ⟨part, rest, rfl, here, -⟩ := denotes_append.mp after
        exact ⟨part, ⟨before, rest, List.append_assoc ..⟩, here⟩
  · rintro ⟨part, ⟨before, rest, rfl⟩, here⟩
    rw [List.append_assoc]
    exact .many before (denotes_append.mpr ⟨part, rest, rfl, here, denotes_many⟩)

theorem denotes_literal {literal : List Char} :
    Denotes (fun c d => decide (c = d)) (literal.map .exactly) text ↔ text = literal := by
  induction literal generalizing text with
  | nil =>
      constructor
      · intro denotes
        cases denotes
        rfl
      · rintro rfl
        exact .nil
  | cons c literal ih =>
      constructor
      · intro denotes
        cases denotes with
        | exactly equal after => rw [ih.mp after, of_decide_eq_true equal]
      · rintro rfl
        exact .exactly (decide_eq_true rfl) (ih.mpr rfl)

end Like
