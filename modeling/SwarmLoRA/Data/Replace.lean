import Mathlib.Data.List.Infix

namespace Data.Replace

variable {α : Type*} [DecidableEq α]

/-- `skip` elements are still those of an occurrence that has been replaced. -/
def replaceFrom (old new : List α) : Nat → List α → List α
  | _, [] => []
  | skip + 1, _ :: xs => replaceFrom old new skip xs
  | 0, x :: xs =>
      if old <+: x :: xs then new ++ replaceFrom old new (old.length - 1) xs
      else x :: replaceFrom old new 0 xs

/-- The pattern is not empty. -/
def replace (old new xs : List α) : List α := replaceFrom old new 0 xs

variable {old new xs : List α}

theorem replaceFrom_append {skip : Nat} {occurrence : List α} (h : occurrence.length = skip) :
    replaceFrom old new skip (occurrence ++ xs) = replaceFrom old new 0 xs := by
  induction occurrence generalizing skip with
  | nil =>
      subst h
      rfl
  | cons x occurrence ih =>
      subst h
      rw [List.cons_append, List.length_cons, replaceFrom]
      exact ih rfl

/-- An occurrence at the front is replaced. -/
theorem replace_append (hOld : old ≠ []) :
    replace old new (old ++ xs) = new ++ replace old new xs := by
  obtain ⟨a, rest, rfl⟩ := List.exists_cons_of_ne_nil hOld
  rw [replace, List.cons_append, replaceFrom, if_pos ⟨xs, List.cons_append⟩]
  rw [List.length_cons, Nat.add_sub_cancel, replaceFrom_append rfl]
  rfl

/-- Nothing is replaced where the pattern does not occur. -/
theorem replace_of_absent (h : ¬ old <:+: xs) : replace old new xs = xs := by
  induction xs with
  | nil => rfl
  | cons x xs ih =>
      rw [List.infix_cons_iff, not_or] at h
      rw [replace, replaceFrom, if_neg h.1]
      exact congrArg (x :: ·) (ih h.2)

theorem length_replaceFrom_le (skip : Nat) :
    (replaceFrom old [] skip xs).length ≤ xs.length := by
  induction xs generalizing skip with
  | nil => cases skip <;> exact Nat.le_refl _
  | cons x xs ih =>
      cases skip with
      | succ skip => exact (ih skip).trans (Nat.le_succ _)
      | zero =>
          rw [replaceFrom]
          split
          · exact (ih _).trans (Nat.le_succ _)
          · exact Nat.succ_le_succ (ih 0)

/-- Taking out a pattern that occurs makes the list shorter. -/
theorem length_replace_lt (hOld : old ≠ []) (h : old <:+: xs) :
    (replace old [] xs).length < xs.length := by
  induction xs with
  | nil => exact absurd (List.infix_nil.mp h) hOld
  | cons x xs ih =>
      rw [replace, replaceFrom]
      split
      next => exact Nat.lt_succ_of_le (length_replaceFrom_le _)
      next hPrefix =>
        exact Nat.succ_lt_succ (ih ((List.infix_cons_iff.mp h).resolve_left hPrefix))

/-- A pattern of one element is replaced element by element. -/
theorem replace_singleton (a b : α) (xs : List α) :
    replace [a] [b] xs = xs.map fun x => if x = a then b else x := by
  induction xs with
  | nil => rfl
  | cons x xs ih =>
      rw [List.map_cons, ← ih, replace, replaceFrom]
      by_cases hx : x = a
      · rw [if_pos hx, if_pos ⟨xs, by rw [hx]; rfl⟩]
        rfl
      · rw [if_neg hx, if_neg]
        · rfl
        · rintro ⟨rest, hRest⟩
          exact hx (List.cons.inj hRest).1.symm

end Data.Replace
