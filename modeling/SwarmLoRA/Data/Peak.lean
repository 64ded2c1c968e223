import Mathlib.Algebra.Order.BigOperators.Group.List
import Mathlib.Algebra.Order.Ring.Int
import Mathlib.Order.Bounds.Basic
import Mathlib.Tactic.Ring

namespace Data.Peak

/-- What a job holds, and in how many more steps it may come to hold one more. -/
structure Job where
  held : Int
  left : Int

namespace Job

/-- One step of a job. -/
def advance (j : Job) : Job := ⟨j.held + 1, j.left - 1⟩

end Job

/-- What the jobs hold together after so many more steps, if none ends before it has to. -/
def demand (jobs : List Job) (steps : Int) : Int :=
  ((jobs.filter fun j => steps ≤ j.left).map fun j => j.held + steps).sum

/-- What the first `i + 1` jobs hold together when job `i` has nothing left to take. -/
def level (jobs : List Job) (i : Nat) (j : Job) : Int :=
  j.left * (i + 1) + ((jobs.take (i + 1)).map (·.held)).sum

/-- The jobs never hold more together. -/
def Within (jobs : List Job) (budget : Int) : Prop :=
  ∀ steps, 0 ≤ steps → demand jobs steps ≤ budget

variable {jobs jobs' : List Job} {steps budget : Int} {i : Nat} {j : Job}

@[simp] theorem demand_nil : demand [] steps = 0 := rfl

@[simp] theorem demand_append :
    demand (jobs ++ jobs') steps = demand jobs steps + demand jobs' steps := by
  simp [demand]

theorem demand_perm (hPerm : jobs.Perm jobs') : demand jobs steps = demand jobs' steps :=
  ((hPerm.filter _).map _).sum_eq

theorem sum_map_add_const (jobs : List Job) (steps : Int) :
    (jobs.map fun j => j.held + steps).sum = steps * jobs.length + (jobs.map (·.held)).sum := by
  induction jobs with
  | nil => simp
  | cons j jobs ih =>
      simp only [List.map_cons, List.sum_cons, List.length_cons, ih]
      push_cast
      ring

/-- Fewer jobs hold no more. -/
theorem demand_le_of_sublist (hSub : jobs.Sublist jobs') (hHeld : ∀ j ∈ jobs', 0 ≤ j.held)
    (hSteps : 0 ≤ steps) : demand jobs steps ≤ demand jobs' steps := by
  refine ((hSub.filter _).map _).sum_le_sum fun x hx => ?_
  obtain ⟨j, hj, rfl⟩ := List.mem_map.mp hx
  have := hHeld j (List.mem_of_mem_filter hj)
  omega

theorem demand_advance : demand (jobs.map Job.advance) steps = demand jobs (steps + 1) := by
  unfold demand
  rw [List.filter_map, List.map_map]
  have hSame : (jobs.filter ((fun j => decide (steps ≤ j.left)) ∘ Job.advance)) =
      jobs.filter fun j => decide (steps + 1 ≤ j.left) := by
    refine List.filter_congr fun j _ => ?_
    show decide (steps ≤ j.left - 1) = decide (steps + 1 ≤ j.left)
    rw [decide_eq_decide]
    omega
  rw [hSame]
  congr 2
  funext j
  simp only [Function.comp_apply, Job.advance]
  ring

/-- Jobs that hold less and have less left never come to hold more. -/
theorem demand_le_of_le {α : Type} {l : List α} {f g : α → Job} (hSteps : 0 ≤ steps)
    (hPos : ∀ a ∈ l, 0 ≤ (f a).held) (hHeld : ∀ a ∈ l, (g a).held ≤ (f a).held)
    (hLeft : ∀ a ∈ l, (g a).left ≤ (f a).left) :
    demand (l.map g) steps ≤ demand (l.map f) steps := by
  induction l with
  | nil => exact le_rfl
  | cons a l ih =>
      have hRest := ih (fun b hb => hPos b (List.mem_cons_of_mem _ hb))
        (fun b hb => hHeld b (List.mem_cons_of_mem _ hb))
        (fun b hb => hLeft b (List.mem_cons_of_mem _ hb))
      have hFirst : demand [g a] steps ≤ demand [f a] steps := by
        have h1 := hPos a List.mem_cons_self
        have h2 := hHeld a List.mem_cons_self
        have h3 := hLeft a List.mem_cons_self
        unfold demand
        by_cases hg : steps ≤ (g a).left
        · have hf : steps ≤ (f a).left := hg.trans h3
          simpa [hg, hf] using h2
        · by_cases hf : steps ≤ (f a).left
          · simp only [hg, hf, decide_false, decide_true, List.filter_cons_of_pos,
              List.filter_cons_of_neg, List.filter_nil, List.map_nil, List.sum_nil, List.map_cons,
              List.sum_cons, not_false_eq_true, Bool.false_eq_true]
            omega
          · simp [hg, hf]
      calc demand ((a :: l).map g) steps = demand ([g a] ++ l.map g) steps := rfl
        _ = demand [g a] steps + demand (l.map g) steps := demand_append
        _ ≤ demand [f a] steps + demand (l.map f) steps := add_le_add hFirst hRest
        _ = demand ([f a] ++ l.map f) steps := demand_append.symm

namespace Within

theorem mono {budget' : Int} (h : Within jobs budget) (hBudget : budget ≤ budget') :
    Within jobs budget' :=
  fun steps hSteps => (h steps hSteps).trans hBudget

theorem sublist (h : Within jobs' budget) (hSub : jobs.Sublist jobs')
    (hHeld : ∀ j ∈ jobs', 0 ≤ j.held) : Within jobs budget :=
  fun steps hSteps => (demand_le_of_sublist hSub hHeld hSteps).trans (h steps hSteps)

theorem perm (h : Within jobs budget) (hPerm : jobs.Perm jobs') : Within jobs' budget :=
  fun steps hSteps => (demand_perm hPerm).symm.trans_le (h steps hSteps)

theorem lower {α : Type} {l : List α} {f g : α → Job} (h : Within (jobs ++ l.map f) budget)
    (hPos : ∀ a ∈ l, 0 ≤ (f a).held) (hHeld : ∀ a ∈ l, (g a).held ≤ (f a).held)
    (hLeft : ∀ a ∈ l, (g a).left ≤ (f a).left) : Within (jobs ++ l.map g) budget := by
  intro steps hSteps
  have := demand_le_of_le hSteps hPos hHeld hLeft
  have hAll := h steps hSteps
  rw [demand_append] at hAll ⊢
  omega

/-- A step of the jobs keeps them within the budget. -/
theorem advance (h : Within jobs budget) : Within (jobs.map Job.advance) budget :=
  fun steps hSteps => demand_advance.trans_le (h (steps + 1) (by omega))

/-- What jobs hold that may go on. -/
theorem held_le (h : Within jobs budget) (hLeft : ∀ j ∈ jobs, 0 ≤ j.left) :
    (jobs.map (·.held)).sum ≤ budget := by
  have hNow := h 0 le_rfl
  unfold demand at hNow
  rw [List.filter_eq_self.mpr fun j hj => decide_eq_true (hLeft j hj)] at hNow
  simpa using hNow

end Within

/-- Jobs that have the most left first. -/
abbrev Descending (jobs : List Job) : Prop := jobs.Pairwise fun j j' => j'.left ≤ j.left

/-- The jobs that go on for so many steps are the first ones. -/
theorem filter_eq_take (hSorted : Descending jobs) :
    (jobs.filter fun j => steps ≤ j.left) =
      jobs.take (jobs.filter fun j => steps ≤ j.left).length := by
  induction jobs with
  | nil => rfl
  | cons j jobs ih =>
      obtain ⟨hFirst, hRest⟩ := List.pairwise_cons.mp hSorted
      by_cases hj : steps ≤ j.left
      · rw [List.filter_cons_of_pos (by simpa using hj), List.length_cons, List.take_succ_cons,
          ← ih hRest]
      · have hNone : ((j :: jobs).filter fun j => decide (steps ≤ j.left)) = [] := by
          rw [List.filter_eq_nil_iff]
          intro k hk
          rcases List.mem_cons.mp hk with rfl | hk
          · simpa using hj
          · have := hFirst k hk
            simp only [decide_eq_true_eq]
            omega
        rw [hNone]
        rfl

/-- What the jobs hold at any time is no more than at the time when the last of those that are
still there has to end. -/
theorem demand_le_level (hSorted : Descending jobs) (hHeld : ∀ j ∈ jobs, 0 ≤ j.held)
    (hLeft : ∀ j ∈ jobs, 0 ≤ j.left) (hSome : jobs ≠ []) :
    ∃ (i : Nat) (hi : i < jobs.length), demand jobs steps ≤ level jobs i jobs[i] := by
  obtain ⟨k, hk⟩ : ∃ k, (jobs.filter fun j => steps ≤ j.left).length = k := ⟨_, rfl⟩
  have hTake : (jobs.filter fun j => steps ≤ j.left) = jobs.take _ := filter_eq_take hSorted
  have hLength : k ≤ jobs.length := hk ▸ List.length_filter_le _ _
  rw [hk] at hTake
  have hDemand : demand jobs steps = steps * k + ((jobs.take k).map (·.held)).sum := by
    rw [demand, sum_map_add_const, hk, hTake]
  cases k with
  | zero =>
      have hPos : 0 < jobs.length := List.length_pos_iff.mpr hSome
      refine ⟨0, hPos, ?_⟩
      have hMem : jobs[0] ∈ jobs := List.getElem_mem _
      have hSum : 0 ≤ ((jobs.take (0 + 1)).map (·.held)).sum := by
        refine List.sum_nonneg fun x hx => ?_
        obtain ⟨j, hj, rfl⟩ := List.mem_map.mp hx
        exact hHeld j (List.mem_of_mem_take hj)
      have := hLeft _ hMem
      rw [hDemand, level]
      simp only [Nat.cast_zero, mul_zero, List.take_zero, List.map_nil, List.sum_nil]
      omega
  | succ k =>
      have hLast : jobs[k] ∈ jobs.filter fun j => steps ≤ j.left := by
        rw [hTake]
        exact List.mem_take_iff_getElem.mpr ⟨k, by omega, rfl⟩
      have hGoes : steps ≤ jobs[k].left := by simpa using List.of_mem_filter hLast
      refine ⟨k, by omega, ?_⟩
      rw [hDemand, level]
      have hMul : steps * ((k : Int) + 1) ≤ jobs[k].left * ((k : Int) + 1) :=
        mul_le_mul_of_nonneg_right hGoes (by omega)
      push_cast
      omega

theorem level_le_demand (hSorted : Descending jobs) (hHeld : ∀ j ∈ jobs, 0 ≤ j.held)
    (hLeft : ∀ j ∈ jobs, 0 ≤ j.left) (hi : i < jobs.length) :
    level jobs i jobs[i] ≤ demand jobs jobs[i].left := by
  have hSub : (jobs.take (i + 1)).Sublist (jobs.filter fun j => jobs[i].left ≤ j.left) := by
    have hAll : (jobs.take (i + 1)).filter (fun j => jobs[i].left ≤ j.left) =
        jobs.take (i + 1) := by
      rw [List.filter_eq_self]
      intro j hj
      obtain ⟨k, hk, rfl⟩ := List.mem_take_iff_getElem.mp hj
      rw [decide_eq_true_eq]
      rcases (show k ≤ i by omega).lt_or_eq with hlt | rfl
      · exact List.pairwise_iff_getElem.mp hSorted k i (by omega) hi hlt
      · exact le_rfl
    rw [← hAll]
    exact (List.take_sublist _ _).filter _
  have hLevel : level jobs i jobs[i] =
      ((jobs.take (i + 1)).map fun j => j.held + jobs[i].left).sum := by
    rw [sum_map_add_const, List.length_take_of_le (by omega), level]
    push_cast
    rfl
  rw [hLevel, demand]
  refine (hSub.map _).sum_le_sum fun x hx => ?_
  obtain ⟨j, hj, rfl⟩ := List.mem_map.mp hx
  have := hHeld j (List.mem_of_mem_filter hj)
  have := hLeft _ (List.getElem_mem hi)
  omega

/-- The greatest of the levels is the most that the jobs can come to hold. -/
theorem isGreatest_demand (hSorted : Descending jobs) (hHeld : ∀ j ∈ jobs, 0 ≤ j.held)
    (hLeft : ∀ j ∈ jobs, 0 ≤ j.left) {peak : Int}
    (hPeak : (jobs.mapIdx fun i j => level jobs i j).max? = some peak) :
    IsGreatest (Set.image (demand jobs) {steps | 0 ≤ steps}) peak := by
  obtain ⟨hMem, hMax⟩ := List.max?_eq_some_iff.mp hPeak
  obtain ⟨i, hi, hAt⟩ := List.mem_mapIdx.mp hMem
  have hUpper : ∀ steps, demand jobs steps ≤ peak := by
    intro steps
    obtain ⟨k, hk, hBound⟩ := demand_le_level hSorted hHeld hLeft
      (List.ne_nil_of_length_pos (by omega))
    exact hBound.trans (hMax _ (List.mem_mapIdx.mpr ⟨k, hk, rfl⟩))
  constructor
  · refine ⟨jobs[i].left, hLeft _ (List.getElem_mem hi), le_antisymm (hUpper _) ?_⟩
    rw [← hAt]
    exact level_le_demand hSorted hHeld hLeft hi
  · rintro _ ⟨steps, _, rfl⟩
    exact hUpper steps

/-- Jobs are within a budget if the greatest of the levels is. -/
theorem within_iff (hSorted : Descending jobs) (hHeld : ∀ j ∈ jobs, 0 ≤ j.held)
    (hLeft : ∀ j ∈ jobs, 0 ≤ j.left) {peak : Int}
    (hPeak : (jobs.mapIdx fun i j => level jobs i j).max? = some peak) :
    Within jobs budget ↔ peak ≤ budget := by
  obtain ⟨⟨steps, hSteps, hAt⟩, hUpper⟩ := isGreatest_demand hSorted hHeld hLeft hPeak
  constructor
  · intro h
    exact hAt ▸ h steps hSteps
  · intro h steps hSteps
    exact (hUpper ⟨steps, hSteps, rfl⟩).trans h

end Data.Peak
