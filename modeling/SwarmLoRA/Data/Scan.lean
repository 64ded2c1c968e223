import Mathlib.Data.Finset.Sort
import Mathlib.Order.Bounds.Basic

namespace Data

/-- A representation of finite sets, with what the loop over a set asks of it: a test for emptiness,
the least member, and the removal of a member. -/
structure Scan (μ ι : Type*) [LinearOrder ι] where
  members : μ → Finset ι
  isEmpty : μ → Bool
  first : μ → Option ι
  remove : μ → ι → μ
  isEmpty_iff : ∀ m, isEmpty m = true ↔ members m = ∅
  first_eq_some : ∀ m i, first m = some i ↔ IsLeast (members m : Set ι) i
  members_remove : ∀ m i, members (remove m i) = (members m).erase i

namespace Scan

variable {μ ι : Type*} [LinearOrder ι] (scan : Scan μ ι)

theorem exists_first {m : μ} (h : (scan.members m).Nonempty) :
    ∃ i, scan.first m = some i :=
  ⟨_, (scan.first_eq_some m _).mpr ((scan.members m).isLeast_min' h)⟩

theorem first_eq_none_iff (m : μ) : scan.first m = none ↔ scan.members m = ∅ := by
  constructor
  · intro hNone
    by_contra hSome
    obtain ⟨i, hi⟩ := scan.exists_first (Finset.nonempty_iff_ne_empty.mpr hSome)
    rw [hNone] at hi
    cases hi
  · intro hEmpty
    cases hFirst : scan.first m with
    | none => rfl
    | some i =>
        have hMem := ((scan.first_eq_some m i).mp hFirst).1
        rw [hEmpty] at hMem
        simp at hMem

variable {σ : Type*} (body : σ → ι → σ)

/-- Take the least member out and run the body on it until no member is left. `none` is a loop
that still runs when the fuel is out. -/
def loop : Nat → μ → σ → Option σ
  | 0, m, s => if scan.isEmpty m then some s else none
  | fuel + 1, m, s =>
      if scan.isEmpty m then some s
      else match scan.first m with
        | none => none
        | some i => loop fuel (scan.remove m i) (body s i)

theorem loop_of_isEmpty {m : μ} (h : scan.isEmpty m = true) (fuel : Nat) (s : σ) :
    scan.loop body fuel m s = some s := by
  cases fuel <;> rw [loop, if_pos h]

theorem loop_of_first {m : μ} {i : ι} (h : scan.first m = some i) (fuel : Nat) (s : σ) :
    scan.loop body (fuel + 1) m s = scan.loop body fuel (scan.remove m i) (body s i) := by
  have hMem : i ∈ scan.members m := by simpa using ((scan.first_eq_some m i).mp h).1
  have hSome : ¬ scan.isEmpty m = true := by
    rw [scan.isEmpty_iff]
    exact Finset.ne_empty_of_mem hMem
  rw [loop, if_neg hSome, h]

variable {scan} in
/-- What comes first is the head of the members in ascending order. -/
theorem sort_of_first {m : μ} {i : ι} (h : scan.first m = some i) :
    (scan.members m).sort = i :: (scan.members (scan.remove m i)).sort := by
  obtain ⟨hMem, hLeast⟩ := (scan.first_eq_some m i).mp h
  have hInsert : scan.members m = insert i ((scan.members m).erase i) :=
    (Finset.insert_erase (by simpa using hMem)).symm
  rw [scan.members_remove]
  conv_lhs => rw [hInsert]
  refine Finset.sort_insert _ (fun j hj => hLeast ?_) (Finset.notMem_erase i _)
  simpa using Finset.mem_of_mem_erase hj

/-- The loop ends after one round for each member, and has then run its body on the members in
ascending order. -/
theorem loop_eq {fuel : Nat} {m : μ} (h : (scan.members m).card ≤ fuel) (s : σ) :
    scan.loop body fuel m s = some ((scan.members m).sort.foldl body s) := by
  induction fuel generalizing m s with
  | zero =>
      have hEmpty : scan.members m = ∅ := Finset.card_eq_zero.mp (Nat.le_zero.mp h)
      rw [scan.loop_of_isEmpty body ((scan.isEmpty_iff m).mpr hEmpty), hEmpty]
      simp
  | succ fuel ih =>
      rcases (scan.members m).eq_empty_or_nonempty with hEmpty | hSome
      · rw [scan.loop_of_isEmpty body ((scan.isEmpty_iff m).mpr hEmpty), hEmpty]
        simp
      · obtain ⟨i, hi⟩ := scan.exists_first hSome
        have hMem : i ∈ scan.members m := by simpa using ((scan.first_eq_some m i).mp hi).1
        have hCard : (scan.members (scan.remove m i)).card ≤ fuel := by
          rw [scan.members_remove, Finset.card_erase_of_mem hMem]
          omega
        rw [scan.loop_of_first body hi, ih hCard, sort_of_first hi, List.foldl_cons]

/-- With less fuel than members the loop is still running. -/
theorem loop_eq_none {fuel : Nat} {m : μ} (h : fuel < (scan.members m).card) (s : σ) :
    scan.loop body fuel m s = none := by
  have hSome : (scan.members m).Nonempty := Finset.card_pos.mp (by omega)
  induction fuel generalizing m s with
  | zero =>
      rw [loop, if_neg]
      rw [scan.isEmpty_iff]
      exact hSome.ne_empty
  | succ fuel ih =>
      obtain ⟨i, hi⟩ := scan.exists_first hSome
      have hMem : i ∈ scan.members m := by simpa using ((scan.first_eq_some m i).mp hi).1
      have hCard : fuel < (scan.members (scan.remove m i)).card := by
        rw [scan.members_remove, Finset.card_erase_of_mem hMem]
        omega
      rw [scan.loop_of_first body hi, ih hCard _ (Finset.card_pos.mp (by omega))]

end Scan

end Data
