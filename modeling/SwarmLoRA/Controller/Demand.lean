import Mathlib.Algebra.BigOperators.Ring.Finset
import Mathlib.Algebra.Order.BigOperators.Group.List
import SwarmLoRA.Controller.Scheduler
import SwarmLoRA.Data.Rounding
import SwarmLoRA.Data.Tally

namespace Controller

open Data

abbrev Rates := OrderedDict AdapterId ℚ

/-- What the policy is set up with, and what the controller has set last. -/
structure LoRantScheduler where
  swap_protection : ℚ := 1 / 10
  proactive_headroom : ℚ := 1 / 5
  adapter_rates : Rates := ∅
  pending_depth : Nat := 0
  recent_drops : Nat := 0

namespace LoRantScheduler

variable (self : LoRantScheduler) (adapter_rates : Rates) (busy_workers max_workers : Nat)

def pool_size : Int :=
  let effective_demand := busy_workers + self.pending_depth + self.recent_drops
  min (truncate (effective_demand * (1 + self.proactive_headroom))) max_workers

/-- The rounded share of a rate, at least one. -/
def rounded_share (pool_size : Int) (total_rate rate : ℚ) : Int :=
  max 1 (round_half_even (pool_size * (rate / total_rate)))

/-- The items of the dictionary of targets. -/
def compute_demand_targets : List (AdapterId × Int) :=
  let total_rate := adapter_rates.values.sum
  if total_rate ≤ 0 then []
  else
    let pool_size := self.pool_size busy_workers max_workers
    let targets := (adapter_rates.items.filter fun i => 0 < i.2).map fun i =>
      (i.1, rounded_share pool_size total_rate i.2)
    let total_target : Int := (targets.map (·.2)).sum
    if (max_workers : Int) < total_target then
      let scale : ℚ := max_workers / total_target
      targets.map fun i => (i.1, max 1 (truncate (i.2 * scale)))
    else targets

/-- What the targets are to be: one of at least one for each adapter with a positive rate and for no
other, and together no more than the pool may have. -/
structure FitsPool (targets : List (AdapterId × Int)) : Prop where
  active : ∀ aid, (∃ target, (aid, target) ∈ targets) ↔ 0 < adapter_rates.get aid 0
  least : ∀ i ∈ targets, 1 ≤ i.2
  clamped : (targets.map (·.2)).sum ≤ max_workers

/-- The rounded shares of the rates that are positive. -/
def rounded_shares : List Int :=
  (adapter_rates.values.filter (0 < ·)).map
    (rounded_share (self.pool_size busy_workers max_workers) adapter_rates.values.sum)

/-- The share passes the half-way mark above `k`, as `round` counts it: at the mark itself it stays with
an even `k`. -/
def Passes (share : ℚ) (k : Nat) : Prop := k + 1 / 2 < share ∨ share = k + 1 / 2 ∧ k % 2 = 1

instance (share : ℚ) (k : Nat) : Decidable (Passes share k) :=
  inferInstanceAs (Decidable (_ ∨ _))

/-- How many of the half-way marks above two and more the shares of the pool pass, over all adapters
with a positive rate. -/
def marks_passed : Nat :=
  ((adapter_rates.values.filter (0 < ·)).map fun rate =>
    ((List.range max_workers).filter fun k => 2 ≤ k ∧
      Passes (self.pool_size busy_workers max_workers * (rate / adapter_rates.values.sum)) k).length).sum

/-- The marks that are passed are no more than the workers that are left over when every adapter with
a positive rate has one. -/
def MarksSpared : Prop :=
  (adapter_rates.values.filter (0 < ·)).length +
    self.marks_passed adapter_rates busy_workers max_workers ≤ max_workers

instance : Decidable (self.MarksSpared adapter_rates busy_workers max_workers) :=
  inferInstanceAs (Decidable (_ ≤ _))

/-- The defect: the rounded shares are too much for the pool, so they are scaled, and the floor of one
lifts a share that the scaling has brought below one. -/
def FloorLifts (shares : List Int) : Prop :=
  max_workers < shares.sum ∧ ∃ t ∈ shares, (t * (max_workers / shares.sum) : ℚ) < 1

/-- The shares sum to the pool at most, or what is too much can be taken, in proportion and rounded
up, from those that are two at least. -/
def GivesWay (shares : List Int) : Prop :=
  shares.sum ≤ max_workers ∨ shares.sum - max_workers ≤
    ((shares.filter (2 ≤ ·)).map fun t : Int => ⌈(t * (shares.sum - max_workers) / shares.sum : ℚ)⌉).sum

end LoRantScheduler

namespace LoRantScheduler

section Clamp

variable {shares : List Int} {m : Nat}

/-- What the clamp leaves of a share. -/
theorem clamp_eq {t total : Int} (ht : 1 ≤ t) (hOver : m < total) (hLess : total < 2 * m) :
    max 1 (truncate (t * (m / total : ℚ))) =
      t - if 2 ≤ t then ⌈(t * (total - m) / total : ℚ)⌉ else 0 := by
  have hTotal : (0 : ℚ) < total := by
    exact_mod_cast (Nat.cast_nonneg m).trans_lt hOver
  have hOver' : (m : ℚ) < total := by exact_mod_cast hOver
  have hLess' : (total : ℚ) < 2 * m := by exact_mod_cast hLess
  have hShare : (0 : ℚ) ≤ t * (m / total : ℚ) := by
    have ht' : (0 : ℚ) ≤ t := by exact_mod_cast zero_le_one.trans ht
    positivity
  rw [truncate_of_nonneg hShare]
  split
  · rename_i hTwo
    have hKept : (t * (m / total) : ℚ) = t - t * (total - m) / total := by
      field_simp
      ring
    have hOne : 1 ≤ ⌊(t * (m / total) : ℚ)⌋ := by
      rw [Int.le_floor, mul_div_assoc', le_div_iff₀ hTotal]
      have hTwo' : (2 : ℚ) ≤ t := by exact_mod_cast hTwo
      push_cast
      nlinarith
    rw [max_eq_right hOne, hKept, sub_eq_add_neg, Int.floor_intCast_add, Int.floor_neg, ← sub_eq_add_neg]
  · obtain rfl : t = 1 := by omega
    have hZero : ⌊((1 : Int) * (m / total) : ℚ)⌋ = 0 := by
      rw [Int.floor_eq_zero_iff]
      refine ⟨hShare, ?_⟩
      rw [Int.cast_one, one_mul, div_lt_one hTotal]
      exact hOver'
    rw [hZero]
    rfl

theorem sum_clamp (hOne : ∀ t ∈ shares, 1 ≤ t) (hOver : m < shares.sum)
    (hLess : shares.sum < 2 * m) :
    (shares.map fun t : Int => max 1 (truncate (t * (m / shares.sum : ℚ)))).sum =
      shares.sum -
        ((shares.filter (2 ≤ ·)).map fun t : Int => ⌈(t * (shares.sum - m) / shares.sum : ℚ)⌉).sum := by
  have hEach : shares.map (fun t : Int => max 1 (truncate (t * (m / shares.sum : ℚ)))) =
      shares.map fun t : Int =>
        t - if 2 ≤ t then ⌈(t * (shares.sum - m) / shares.sum : ℚ)⌉ else 0 :=
    List.map_congr_left fun t ht => clamp_eq (hOne t ht) hOver hLess
  have hTaken : (shares.map fun t : Int =>
      if 2 ≤ t then ⌈(t * (shares.sum - m) / shares.sum : ℚ)⌉ else 0).sum =
        ((shares.filter (2 ≤ ·)).map fun t : Int =>
          ⌈(t * (shares.sum - m) / shares.sum : ℚ)⌉).sum := by
    rw [List.sum_map_ite]
    simp
  have hBoth : shares.sum = (shares.map fun t : Int =>
        t - if 2 ≤ t then ⌈(t * (shares.sum - m) / shares.sum : ℚ)⌉ else 0).sum +
      (shares.map fun t : Int =>
        if 2 ≤ t then ⌈(t * (shares.sum - m) / shares.sum : ℚ)⌉ else 0).sum := by
    rw [← List.sum_map_add]
    simp only [sub_add_cancel, List.map_id']
  rw [hEach, ← hTaken]
  exact eq_sub_of_add_eq hBoth.symm

end Clamp

section Sums

variable {adapter_rates : Rates}

theorem one_le_rounded_share (pool_size : Int) (total_rate rate : ℚ) :
    1 ≤ rounded_share pool_size total_rate rate :=
  le_max_left ..

/-- The rates that are not positive do not count. -/
theorem sum_positive (hRates : ∀ rate ∈ adapter_rates.values, 0 ≤ rate) :
    (adapter_rates.values.filter (0 < ·)).sum = adapter_rates.values.sum := by
  have hSplit := List.sum_map_filter_add_sum_map_filter_not (fun rate : ℚ => 0 < rate) id
    adapter_rates.values
  have hRest : (adapter_rates.values.filter fun rate => ¬ 0 < rate).sum = 0 := by
    refine List.sum_eq_zero fun rate hMem => ?_
    obtain ⟨hValue, hNot⟩ := List.mem_filter.mp hMem
    exact (not_lt.mp (of_decide_eq_true hNot)).antisymm (hRates rate hValue)
  rw [List.map_id, List.map_id, List.map_id, hRest, add_zero] at hSplit
  exact hSplit

/-- What is due to the adapters is the pool in all. -/
theorem sum_due (hRates : ∀ rate ∈ adapter_rates.values, 0 ≤ rate)
    (hTotal : 0 < adapter_rates.values.sum) (pool_size : ℚ) :
    ((adapter_rates.values.filter (0 < ·)).map fun rate =>
      pool_size * (rate / adapter_rates.values.sum)).sum = pool_size := by
  have hAll : ((adapter_rates.values.filter (0 < ·)).map fun rate => rate).sum =
      adapter_rates.values.sum := by
    rw [List.map_id']
    exact sum_positive hRates
  simp only [div_eq_mul_inv]
  rw [List.sum_map_mul_left, List.sum_map_mul_right, hAll, mul_inv_cancel₀ hTotal.ne', mul_one]

/-- A share is less than one above what is its due, unless there is no pool to share. -/
theorem rounded_share_lt {pool_size : Int} {total_rate rate : ℚ} (hPool : 0 < pool_size)
    (hTotal : 0 < total_rate) (hRate : 0 < rate) :
    (rounded_share pool_size total_rate rate : ℚ) < pool_size * (rate / total_rate) + 1 := by
  have hPool' : (0 : ℚ) < pool_size := by exact_mod_cast hPool
  have hDue : 0 < pool_size * (rate / total_rate) := by positivity
  have hRound := round_half_even_le (pool_size * (rate / total_rate))
  unfold rounded_share
  push_cast
  refine max_lt ?_ ?_
  · linarith
  · linarith

theorem rounded_share_zero (total_rate rate : ℚ) : rounded_share 0 total_rate rate = 1 := by
  unfold rounded_share
  rw [Int.cast_zero, zero_mul, round_half_even_zero]
  rfl

variable {self : LoRantScheduler} {busy_workers max_workers : Nat}

theorem pool_size_nonneg (hHeadroom : 0 ≤ self.proactive_headroom) :
    0 ≤ self.pool_size busy_workers max_workers := by
  refine le_min (truncate_nonneg ?_) (Int.natCast_nonneg _)
  positivity

/-- Shares that are too much for the pool are less than two times too much. -/
theorem sum_rounded_shares_lt (hRates : ∀ rate ∈ adapter_rates.values, 0 ≤ rate)
    (hHeadroom : 0 ≤ self.proactive_headroom) (hTotal : 0 < adapter_rates.values.sum)
    (hRoom : (adapter_rates.values.filter (0 < ·)).length ≤ max_workers)
    (hOver : max_workers < (self.rounded_shares adapter_rates busy_workers max_workers).sum) :
    (self.rounded_shares adapter_rates busy_workers max_workers).sum < 2 * max_workers := by
  let pool_size := self.pool_size busy_workers max_workers
  let positive := adapter_rates.values.filter (0 < ·)
  have hSome : positive ≠ [] := by
    intro hNil
    have hSum := sum_positive hRates
    rw [show adapter_rates.values.filter (0 < ·) = [] from hNil, List.sum_nil] at hSum
    exact hTotal.ne hSum
  have hPool : 0 < pool_size := by
    refine (pool_size_nonneg hHeadroom).lt_of_ne fun hZero => ?_
    have hOnes : (self.rounded_shares adapter_rates busy_workers max_workers).sum = positive.length := by
      unfold rounded_shares
      rw [← hZero, List.map_congr_left fun rate _ => rounded_share_zero _ rate, List.map_const',
        List.sum_replicate, nsmul_one]
    rw [hOnes] at hOver
    exact absurd (Int.ofNat_lt.mp hOver) (not_lt.mpr hRoom)
  have hLess : ((self.rounded_shares adapter_rates busy_workers max_workers).sum : ℚ) <
      pool_size + positive.length := by
    have hDue : ((positive.map fun rate => pool_size * (rate / adapter_rates.values.sum) + 1).sum : ℚ) =
        pool_size + positive.length := by
      rw [List.sum_map_add, sum_due hRates hTotal, List.map_const', List.sum_replicate, nsmul_one]
    unfold rounded_shares
    rw [Int.cast_list_sum, List.map_map, ← hDue]
    refine List.sum_lt_sum_of_ne_nil hSome _ _ fun rate hMem => ?_
    exact rounded_share_lt hPool hTotal (of_decide_eq_true (List.mem_filter.mp hMem).2)
  have hSize : (pool_size : ℚ) ≤ max_workers := by exact_mod_cast min_le_right _ _
  have hRoom' : (positive.length : ℚ) ≤ max_workers := by exact_mod_cast hRoom
  have hTwice : ((self.rounded_shares adapter_rates busy_workers max_workers).sum : ℚ) <
      2 * max_workers := by linarith
  exact_mod_cast hTwice

/-- The targets before the clamp are the rounded shares. -/
theorem map_snd_targets (f : Int → Int) :
    (((adapter_rates.items.filter fun i => 0 < i.2).map fun i => (i.1,
      f (rounded_share (self.pool_size busy_workers max_workers) adapter_rates.values.sum i.2))).map
        (·.2)) = (self.rounded_shares adapter_rates busy_workers max_workers).map f := by
  unfold rounded_shares
  rw [← OrderedDict.map_snd_items, List.filter_map, List.map_map, List.map_map, List.map_map]
  rfl

/-- The targets are the rounded shares, with the clamp where they are too much. -/
theorem compute_demand_targets_eq (hTotal : 0 < adapter_rates.values.sum) :
    let shares := self.rounded_shares adapter_rates busy_workers max_workers
    let clamp : Int → Int := if max_workers < shares.sum then
      fun t => max 1 (truncate (t * (max_workers / shares.sum))) else id
    self.compute_demand_targets adapter_rates busy_workers max_workers =
      (adapter_rates.items.filter fun i => 0 < i.2).map fun i => (i.1, clamp
        (rounded_share (self.pool_size busy_workers max_workers) adapter_rates.values.sum i.2)) := by
  have hShares : ((adapter_rates.items.filter fun i => 0 < i.2).map fun i => (i.1,
      rounded_share (self.pool_size busy_workers max_workers) adapter_rates.values.sum i.2)).map
        (·.2) = self.rounded_shares adapter_rates busy_workers max_workers :=
    (map_snd_targets id).trans (List.map_id _)
  dsimp only
  unfold compute_demand_targets
  simp only [if_neg (not_le.mpr hTotal), hShares]
  split
  · rw [List.map_map]
    rfl
  · rfl

theorem sum_pos_of_mem (hRates : ∀ rate ∈ adapter_rates.values, 0 ≤ rate) {rate : ℚ}
    (hMem : rate ∈ adapter_rates.values) (hPos : 0 < rate) : 0 < adapter_rates.values.sum :=
  hPos.trans_le (List.single_le_sum hRates rate hMem)

/-- Without a positive rate there is nothing to share out. -/
theorem rounded_shares_eq_nil (hRates : ∀ rate ∈ adapter_rates.values, 0 ≤ rate)
    (hTotal : ¬ 0 < adapter_rates.values.sum) :
    self.rounded_shares adapter_rates busy_workers max_workers = [] := by
  unfold rounded_shares
  rw [List.map_eq_nil_iff, List.filter_eq_nil_iff]
  intro rate hMem hPos
  exact hTotal (sum_pos_of_mem hRates hMem (of_decide_eq_true hPos))

theorem get_pos_iff {aid : AdapterId} : 0 < adapter_rates.get aid 0 ↔
    ∃ rate, (aid, rate) ∈ adapter_rates.items.filter fun i => 0 < i.2 := by
  simp only [List.mem_filter, OrderedDict.mem_items, OrderedDict.get, decide_eq_true_eq]
  cases adapter_rates.find aid with
  | none => simp
  | some rate => simp

/-- Every adapter with a positive rate has a target, and no other one has. -/
theorem mem_targets_iff (hRates : ∀ rate ∈ adapter_rates.values, 0 ≤ rate) {aid : AdapterId} :
    (∃ target, (aid, target) ∈ self.compute_demand_targets adapter_rates busy_workers max_workers) ↔
      0 < adapter_rates.get aid 0 := by
  rw [get_pos_iff]
  by_cases hTotal : 0 < adapter_rates.values.sum
  · rw [compute_demand_targets_eq hTotal]
    simp only [List.mem_map, Prod.mk.injEq]
    constructor
    · rintro ⟨target, ⟨aid', rate⟩, hMem, rfl, -⟩
      exact ⟨rate, hMem⟩
    · rintro ⟨rate, hMem⟩
      exact ⟨_, (aid, rate), hMem, rfl, rfl⟩
  · have hNone : self.compute_demand_targets adapter_rates busy_workers max_workers = [] :=
      if_pos (not_lt.mp hTotal)
    rw [hNone]
    refine iff_of_false (fun ⟨_, hMem⟩ => List.not_mem_nil hMem) ?_
    rintro ⟨rate, hMem⟩
    obtain ⟨hItem, hPos⟩ := List.mem_filter.mp hMem
    have hValue : rate ∈ adapter_rates.values :=
      adapter_rates.map_snd_items ▸ List.mem_map_of_mem (f := (·.2)) hItem
    exact hTotal (sum_pos_of_mem hRates hValue (of_decide_eq_true hPos))

theorem one_le_target : ∀ i ∈ self.compute_demand_targets adapter_rates busy_workers max_workers,
    1 ≤ i.2 := by
  by_cases hTotal : 0 < adapter_rates.values.sum
  · rw [compute_demand_targets_eq hTotal, List.forall_mem_map]
    intro i _
    dsimp only
    split
    · exact le_max_left ..
    · exact one_le_rounded_share _ _ _
  · have hNone : self.compute_demand_targets adapter_rates busy_workers max_workers = [] :=
      if_pos (not_lt.mp hTotal)
    rw [hNone]
    simp


/-- What the targets sum to. -/
theorem sum_targets_le_iff (hRates : ∀ rate ∈ adapter_rates.values, 0 ≤ rate)
    (hHeadroom : 0 ≤ self.proactive_headroom)
    (hRoom : (adapter_rates.values.filter (0 < ·)).length ≤ max_workers) :
    ((self.compute_demand_targets adapter_rates busy_workers max_workers).map (·.2)).sum ≤
        max_workers ↔
      GivesWay max_workers (self.rounded_shares adapter_rates busy_workers max_workers) := by
  unfold GivesWay
  by_cases hTotal : 0 < adapter_rates.values.sum
  · rw [compute_demand_targets_eq hTotal, map_snd_targets]
    by_cases hOver : max_workers < (self.rounded_shares adapter_rates busy_workers max_workers).sum
    · have hOne : ∀ t ∈ self.rounded_shares adapter_rates busy_workers max_workers, 1 ≤ t := by
        unfold rounded_shares
        exact List.forall_mem_map.mpr fun rate _ => one_le_rounded_share _ _ rate
      rw [if_pos hOver, sum_clamp hOne hOver
        (sum_rounded_shares_lt hRates hHeadroom hTotal hRoom hOver)]
      have hNot := not_le.mpr hOver
      constructor
      · intro hFits
        exact .inr (by linarith)
      · intro hGives
        have hGives := hGives.resolve_left hNot
        linarith
    · rw [if_neg hOver, List.map_id]
      exact iff_of_true (not_lt.mp hOver) (.inl (not_lt.mp hOver))
  · have hNone : self.compute_demand_targets adapter_rates busy_workers max_workers = [] :=
      if_pos (not_lt.mp hTotal)
    rw [hNone, rounded_shares_eq_nil hRates hTotal]
    exact iff_of_true (Int.natCast_nonneg _) (.inl (Int.natCast_nonneg _))

end Sums

section Marks

variable {self : LoRantScheduler} {adapter_rates : Rates} {busy_workers max_workers : Nat}

/-- From two on, a rounded share goes beyond an integer if the share passes the mark above it. -/
theorem passes_iff {pool_size : Int} {total_rate rate : ℚ} {k : Nat} (hTwo : 2 ≤ k) :
    Passes (pool_size * (rate / total_rate)) k ↔
      (k : Int) < rounded_share pool_size total_rate rate := by
  have hOne : ¬ (k : Int) < 1 := by omega
  have hOdd : (k : Int) % 2 = 1 ↔ k % 2 = 1 := by omega
  rw [rounded_share, lt_max_iff, or_iff_right hOne, lt_round_half_even_iff, hOdd]
  rfl

theorem length_filter_range (m : Nat) (t : Int) :
    ((List.range m).filter fun k : Nat => 2 ≤ k ∧ (k : Int) < t).length = min m t.toNat - 2 := by
  induction m with
  | zero => simp
  | succ m ih =>
      rw [List.range_succ, List.filter_append, List.length_append, ih]
      by_cases hLast : 2 ≤ m ∧ (m : Int) < t
      · rw [List.filter_cons_of_pos (by simpa using hLast)]
        simp only [List.filter_nil, List.length_singleton]
        omega
      · rw [List.filter_cons_of_neg (by simpa using hLast)]
        simp only [List.filter_nil, List.length_nil]
        omega

/-- The marks that are passed are what the rounded shares have beyond two. -/
theorem marks_passed_eq : self.marks_passed adapter_rates busy_workers max_workers =
    ((self.rounded_shares adapter_rates busy_workers max_workers).map fun t =>
      min max_workers t.toNat - 2).sum := by
  unfold marks_passed rounded_shares
  rw [List.map_map]
  refine congrArg List.sum (List.map_congr_left fun rate _ => ?_)
  rw [Function.comp_apply, ← length_filter_range]
  refine congrArg List.length (List.filter_congr fun k _ => ?_)
  by_cases hTwo : 2 ≤ k
  · simp only [hTwo, true_and, passes_iff hTwo]
  · simp only [hTwo, false_and]

theorem length_rounded_shares :
    (self.rounded_shares adapter_rates busy_workers max_workers).length =
      (adapter_rates.values.filter (0 < ·)).length :=
  List.length_map _

theorem one_le_of_mem_shares {t : Int}
    (ht : t ∈ self.rounded_shares adapter_rates busy_workers max_workers) : 1 ≤ t := by
  obtain ⟨rate, -, rfl⟩ := List.mem_map.mp ht
  exact one_le_rounded_share _ _ rate

/-- No share is rounded to more than the pool has workers. -/
theorem rounded_share_le (hRates : ∀ rate ∈ adapter_rates.values, 0 ≤ rate)
    (hHeadroom : 0 ≤ self.proactive_headroom) (hSome : 1 ≤ max_workers) {rate : ℚ}
    (hMem : rate ∈ adapter_rates.values.filter (0 < ·)) :
    rounded_share (self.pool_size busy_workers max_workers) adapter_rates.values.sum rate ≤
      max_workers := by
  obtain ⟨hValue, hPos⟩ := List.mem_filter.mp hMem
  have hTotal := sum_pos_of_mem hRates hValue (of_decide_eq_true hPos)
  have hPool : (0 : ℚ) ≤ self.pool_size busy_workers max_workers := by
    exact_mod_cast pool_size_nonneg hHeadroom
  have hPart : rate / adapter_rates.values.sum ≤ 1 :=
    (div_le_one hTotal).mpr (List.single_le_sum hRates rate hValue)
  have hSize : (self.pool_size busy_workers max_workers : ℚ) ≤ max_workers := by
    exact_mod_cast min_le_right _ _
  have hShare : (self.pool_size busy_workers max_workers : ℚ) * (rate / adapter_rates.values.sum) ≤
      max_workers := (mul_le_of_le_one_right hPool hPart).trans hSize
  have hRound := round_half_even_le
    (self.pool_size busy_workers max_workers * (rate / adapter_rates.values.sum))
  refine max_le (by exact_mod_cast hSome) (Int.lt_add_one_iff.mp ?_)
  have hLess : (round_half_even (self.pool_size busy_workers max_workers *
      (rate / adapter_rates.values.sum)) : ℚ) < max_workers + 1 := by linarith
  exact_mod_cast hLess

/-- In a scaling down every share of two or more gives way by one at least. -/
theorem length_le_sum_ceil {shares : List Int} {m : Nat} (hOver : m < shares.sum) :
    ((shares.filter (2 ≤ ·)).length : Int) ≤
      ((shares.filter (2 ≤ ·)).map fun t : Int => ⌈(t * (shares.sum - m) / shares.sum : ℚ)⌉).sum := by
  have hSum : (0 : ℚ) < shares.sum := by exact_mod_cast (Int.natCast_nonneg m).trans_lt hOver
  have hExcess : (0 : ℚ) < shares.sum - m := by
    rw [sub_pos]
    exact_mod_cast hOver
  have hEach : ∀ t ∈ shares.filter (2 ≤ ·), (1 : Int) ≤ ⌈(t * (shares.sum - m) / shares.sum : ℚ)⌉ := by
    intro t ht
    have hTwo : (2 : Int) ≤ t := of_decide_eq_true (List.mem_filter.mp ht).2
    have hPos : (0 : ℚ) < t := by exact_mod_cast zero_lt_two.trans_le hTwo
    exact Int.one_le_ceil_iff.mpr (by positivity)
  calc ((shares.filter (2 ≤ ·)).length : Int) = ((shares.filter (2 ≤ ·)).map fun _ => (1 : Int)).sum := by
        simp
    _ ≤ _ := List.sum_le_sum hEach

/-- A share is one, one more from two on, and the marks that it passes beyond that. -/
theorem sum_le_marks {shares : List Int} {m : Nat} (hAtMost : ∀ t ∈ shares, t ≤ m) :
    shares.sum ≤ shares.length + (shares.filter (2 ≤ ·)).length +
      ((shares.map fun t => min m t.toNat - 2).sum : Nat) := by
  induction shares with
  | nil => simp
  | cons t rest ih =>
      have hRest := ih fun t ht => hAtMost t (List.mem_cons_of_mem _ ht)
      have hFirst := hAtMost t List.mem_cons_self
      rw [List.sum_cons, List.map_cons, List.sum_cons, List.length_cons, List.filter_cons]
      split
      · rw [List.length_cons]
        omega
      · rename_i hSmall
        have hSmall : t < 2 := by simpa using hSmall
        omega

/-- The marks count nothing twice: with one for each share they are at most the sum. -/
theorem marks_le_sum {shares : List Int} (m : Nat) (hOne : ∀ t ∈ shares, 1 ≤ t) :
    (shares.length : Int) + ((shares.map fun t => min m t.toNat - 2).sum : Nat) ≤ shares.sum := by
  induction shares with
  | nil => simp
  | cons t rest ih =>
      have hRest := ih fun t ht => hOne t (List.mem_cons_of_mem _ ht)
      have hFirst := hOne t List.mem_cons_self
      rw [List.map_cons, List.sum_cons, List.sum_cons, List.length_cons]
      omega

/-- Where every share is two at least, one mark less than the share is no more than its due. -/
theorem marks_le_due {pool_size : Int} {total_rate rate : ℚ} (m : Nat)
    (hTwo : 2 ≤ rounded_share pool_size total_rate rate) :
    (1 + (min m (rounded_share pool_size total_rate rate).toNat - 2 : Nat) : ℚ) ≤
      pool_size * (rate / total_rate) := by
  have hRound := round_half_even_le (pool_size * (rate / total_rate))
  have hShare : rounded_share pool_size total_rate rate =
      round_half_even (pool_size * (rate / total_rate)) := by
    unfold rounded_share at hTwo ⊢
    omega
  have hLess : (1 + (min m (rounded_share pool_size total_rate rate).toNat - 2 : Nat) : Int) ≤
      rounded_share pool_size total_rate rate - 1 := by omega
  have hLess' : (1 + (min m (rounded_share pool_size total_rate rate).toNat - 2 : Nat) : ℚ) ≤
      rounded_share pool_size total_rate rate - 1 := by exact_mod_cast hLess
  rw [hShare] at hLess' ⊢
  linarith

/-- The shares of two or more make room enough if the marks are spared. -/
theorem givesWay_of_marks (hRates : ∀ rate ∈ adapter_rates.values, 0 ≤ rate)
    (hHeadroom : 0 ≤ self.proactive_headroom)
    (hSpared : self.MarksSpared adapter_rates busy_workers max_workers) :
    GivesWay max_workers (self.rounded_shares adapter_rates busy_workers max_workers) := by
  rcases le_or_gt (self.rounded_shares adapter_rates busy_workers max_workers).sum max_workers with
    hFits | hOver
  · exact .inl hFits
  · refine .inr ((?_ : _ ≤ _).trans (length_le_sum_ceil hOver))
    have hSpared : (self.rounded_shares adapter_rates busy_workers max_workers).length +
        ((self.rounded_shares adapter_rates busy_workers max_workers).map fun t =>
          min max_workers t.toNat - 2).sum ≤ max_workers := by
      rw [length_rounded_shares, ← marks_passed_eq]
      exact hSpared
    have hAtMost : ∀ t ∈ self.rounded_shares adapter_rates busy_workers max_workers,
        t ≤ max_workers := by
      intro t ht
      have hSome := List.length_pos_of_mem ht
      obtain ⟨rate, hMem, rfl⟩ := List.mem_map.mp ht
      exact rounded_share_le hRates hHeadroom (by omega) hMem
    generalize self.rounded_shares adapter_rates busy_workers max_workers = shares at *
    have hSplit := sum_le_marks hAtMost
    omega

/-- Only where the clamp's floor lifts a share can the marks be more than can be spared. -/
theorem floorLifts_of_marks (hRates : ∀ rate ∈ adapter_rates.values, 0 ≤ rate)
    (hMarks : ¬ self.MarksSpared adapter_rates busy_workers max_workers) :
    FloorLifts max_workers (self.rounded_shares adapter_rates busy_workers max_workers) := by
  have hMarks := not_le.mp hMarks
  have hOver : max_workers < (self.rounded_shares adapter_rates busy_workers max_workers).sum := by
    have hSum := @marks_le_sum (self.rounded_shares adapter_rates busy_workers max_workers)
      max_workers fun t => one_le_of_mem_shares
    rw [length_rounded_shares, ← marks_passed_eq] at hSum
    omega
  refine ⟨hOver, ?_⟩
  have hOver' : (max_workers : ℚ) <
      (self.rounded_shares adapter_rates busy_workers max_workers).sum := by exact_mod_cast hOver
  have hSum : (0 : ℚ) < (self.rounded_shares adapter_rates busy_workers max_workers).sum :=
    (Nat.cast_nonneg max_workers).trans_lt hOver'
  by_contra hNone
  push Not at hNone
  -- a share of one would be lifted
  have hTwo : ∀ rate ∈ adapter_rates.values.filter (0 < ·), 2 ≤
      rounded_share (self.pool_size busy_workers max_workers) adapter_rates.values.sum rate := by
    intro rate hMem
    by_contra hSmall
    have hOne : rounded_share (self.pool_size busy_workers max_workers) adapter_rates.values.sum rate =
        1 := by
      have := one_le_rounded_share (self.pool_size busy_workers max_workers)
        adapter_rates.values.sum rate
      omega
    have hScaled := hNone _ (List.mem_map_of_mem (f := rounded_share
      (self.pool_size busy_workers max_workers) adapter_rates.values.sum) hMem)
    rw [hOne, Int.cast_one, one_mul, one_le_div hSum] at hScaled
    exact absurd hOver' (not_lt.mpr hScaled)
  have hTotal : 0 < adapter_rates.values.sum := by
    by_contra hNot
    rw [rounded_shares_eq_nil hRates hNot, List.sum_nil, Int.cast_zero] at hSum
    exact lt_irrefl _ hSum
  have hDue : ((adapter_rates.values.filter (0 < ·)).length +
      self.marks_passed adapter_rates busy_workers max_workers : ℚ) ≤
        self.pool_size busy_workers max_workers := by
    rw [marks_passed_eq, rounded_shares, List.map_map, Nat.cast_list_sum, List.map_map]
    calc _ = ((adapter_rates.values.filter (0 < ·)).map fun rate => (1 + (min max_workers
          (rounded_share (self.pool_size busy_workers max_workers) adapter_rates.values.sum
            rate).toNat - 2 : Nat) : ℚ)).sum := by
          rw [List.sum_map_add, List.map_const', List.sum_replicate, nsmul_one]
          rfl
      _ ≤ _ := List.sum_le_sum fun rate hMem => marks_le_due max_workers (hTwo rate hMem)
      _ = _ := sum_due hRates hTotal _
  have hSize : self.pool_size busy_workers max_workers ≤ max_workers := min_le_right _ _
  have hFits : ((adapter_rates.values.filter (0 < ·)).length +
      self.marks_passed adapter_rates busy_workers max_workers : Int) ≤
        self.pool_size busy_workers max_workers := by exact_mod_cast hDue
  omega

end Marks

/-- The targets fit the pool if the half-way marks above two that the shares pass are no more than the
workers that are left over. Where they are more, the clamp's floor of one lifts a share. -/
theorem demand_fits_of_marks {self : LoRantScheduler} {adapter_rates : Rates}
    {busy_workers max_workers : Nat} (hRates : ∀ rate ∈ adapter_rates.values, 0 ≤ rate)
    (hHeadroom : 0 ≤ self.proactive_headroom)
    (hRoom : (adapter_rates.values.filter (0 < ·)).length ≤ max_workers) :
    (self.MarksSpared adapter_rates busy_workers max_workers →
      FitsPool adapter_rates max_workers
        (self.compute_demand_targets adapter_rates busy_workers max_workers)) ∧
    (¬ self.MarksSpared adapter_rates busy_workers max_workers →
      FloorLifts max_workers (self.rounded_shares adapter_rates busy_workers max_workers)) := by
  refine ⟨fun hSpared => ⟨fun _ => mem_targets_iff hRates, one_le_target, ?_⟩,
    floorLifts_of_marks hRates⟩
  rw [sum_targets_le_iff hRates hHeadroom hRoom]
  exact givesWay_of_marks hRates hHeadroom hSpared

/-- One adapter has ten times the rate of each of the others. -/
def one_favoured : Rates :=
  (((OrderedDict.empty.set (some "a") 10).set (some "b") 1).set (some "c") 1).set (some "d") 1

/-- With seven workers the shares of eight are clamped and fit; with four the floor lifts. -/
theorem demand_fits_of_marks_favoured :
    FitsPool one_favoured 7 (({} : LoRantScheduler).compute_demand_targets one_favoured 6 7) ∧
      FloorLifts 4 (({} : LoRantScheduler).rounded_shares one_favoured 4 4) :=
  ⟨(demand_fits_of_marks (by decide +kernel) (by decide +kernel) (by decide +kernel)).1
      (by decide +kernel),
    (demand_fits_of_marks (by decide +kernel) (by decide +kernel) (by decide +kernel)).2
      (by decide +kernel)⟩

/-- Four workers are as many as there are adapters, but the targets sum to five. -/
theorem targets_exceed_pool :
    (∀ rate ∈ one_favoured.values, 0 ≤ rate) ∧
      (one_favoured.values.filter (0 < ·)).length ≤ 4 ∧
        ¬ FitsPool one_favoured 4 (({} : LoRantScheduler).compute_demand_targets one_favoured 4 4) :=
  ⟨by decide +kernel, by decide +kernel, fun h => absurd h.clamped (by decide +kernel)⟩

end LoRantScheduler

end Controller
