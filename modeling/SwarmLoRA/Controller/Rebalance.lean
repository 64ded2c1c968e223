import Mathlib.Data.List.Sigma
import Mathlib.Logic.Function.Iterate
import Mathlib.Order.Basic
import Mathlib.Order.Monotone.Basic
import SwarmLoRA.Controller.Demand

namespace Machine

variable {α : Type} {round : α → α} {done : α → Prop} {measure : α → Nat} {x : α}

/-- The rounds come to be done, and nothing that a round has left comes back. The latter rules out a
run that swings before it comes to rest. -/
structure Settles (round : α → α) (done : α → Prop) (x : α) : Prop where
  rests : ∃ n, done (round^[n] x)
  forward : ∀ i j, i < j → round^[i + 1] x ≠ round^[i] x → round^[j] x ≠ round^[i] x

theorem antitone_measure (hDone : ∀ y, done y → round y = y)
    (hFalls : ∀ n, ¬ done (round^[n] x) → measure (round (round^[n] x)) < measure (round^[n] x)) :
    Antitone fun n => measure (round^[n] x) := by
  refine antitone_nat_of_succ_le fun n => ?_
  rw [Function.iterate_succ_apply']
  by_cases hNow : done (round^[n] x)
  · exact (congrArg measure (hDone _ hNow)).le
  · exact (hFalls n hNow).le

theorem settles_of_measure (measure : α → Nat) (hDone : ∀ y, done y → round y = y)
    (hFalls : ∀ n, ¬ done (round^[n] x) → measure (round (round^[n] x)) < measure (round^[n] x)) :
    Settles round done x where
  rests := by
    by_contra hNever
    have hEach (n : Nat) : measure (round^[n] x) + n ≤ measure x := by
      induction n with
      | zero => exact le_rfl
      | succ n ih =>
          have hLess := hFalls n fun hNow => hNever ⟨n, hNow⟩
          rw [Function.iterate_succ_apply']
          omega
    have hLast := hEach (measure x + 1)
    omega
  forward := by
    intro i j hLess hLeft hBack
    rw [Function.iterate_succ_apply'] at hLeft
    have hFirst := hFalls i fun hNow => hLeft (hDone _ hNow)
    have hLater : measure (round^[j] x) ≤ measure (round^[i + 1] x) :=
      antitone_measure hDone hFalls (Nat.succ_le_of_lt hLess)
    rw [Function.iterate_succ_apply', hBack] at hLater
    omega

end Machine

/-!
The swaps that the LoRant policy proposes for idle workers, and where rounds of them lead.
-/

namespace Controller

open Data

/-- A snapshot with the time that the worker has been idle. -/
structure IdleSnapshot extends WorkerSnapshot where
  idle_time : ℚ
  deriving DecidableEq

/-- The snapshots of the workers, each under its id. A round is a function of these, of the rates
and of the limit. -/
structure Snapshots where
  workers : List IdleSnapshot
  nodup : (workers.map (·.worker_id)).Nodup
  deriving DecidableEq

/-- The rate that protects the last worker of an adapter, none for an adapter without a name. -/
def protecting_rate (adapter_rates : Rates) : AdapterId → ℚ
  | some name => if name = "" then 0 else adapter_rates.get (some name) 0
  | none => 0

def count_workers_per_adapter (workers : List IdleSnapshot) : OrderedDict AdapterId Int :=
  OrderedDict.tally (·.adapter_id) workers

/-- One worker less for its adapter, if it has one. -/
def forget_worker (worker_counts : OrderedDict AdapterId Int) (adapter_id : AdapterId) :
    OrderedDict AdapterId Int :=
  if adapter_id ≠ none then
    worker_counts.set adapter_id (worker_counts.get adapter_id 1 - 1)
  else worker_counts

/-- The operations on floats that a score is computed with. Nothing is assumed of them, so each of them
may round its result in any way. -/
structure ScoreArithmetic where
  sum : List ℚ → ℚ
  mul : ℚ → ℚ → ℚ
  div : ℚ → ℚ → ℚ

/-- The operations without rounding, which floats agree with while all results are exact. -/
def ScoreArithmetic.exact : ScoreArithmetic := ⟨List.sum, (· * ·), (· / ·)⟩

namespace LoRantScheduler

variable (self : LoRantScheduler) (arithmetic : ScoreArithmetic) (adapter_rates : Rates)

/-- How overserved an adapter is. -/
def overserve_score (adapter_id : AdapterId) (worker_counts : OrderedDict AdapterId Int) :
    WithTop ℚ :=
  if adapter_id = none then ⊤
  else
    let rate := adapter_rates.get adapter_id 0
    if rate ≤ 0 then ⊤
    else
      let total_rate := arithmetic.sum adapter_rates.values
      if total_rate ≤ 0 then ⊤
      else
        let share := arithmetic.div rate total_rate
        let count := worker_counts.get adapter_id 0
        let target := max 1 (arithmetic.mul share worker_counts.values.sum)
        (arithmetic.div count target : ℚ)

/-- Overserved workers go to underserved adapters, two at most. `remaining` begins with the adapter
whose turn it is. -/
def rebalance_loop (rebalances : List (WorkerId × AdapterId)) :
    List (AdapterId × Int) → OrderedDict AdapterId Int → List IdleSnapshot →
      List (WorkerId × AdapterId)
  | [], _, _ => rebalances
  | _, _, [] => rebalances
  | (target_aid, deficit) :: remaining, worker_counts, w :: swappable =>
      if w.adapter_id = target_aid then
        rebalance_loop rebalances ((target_aid, deficit) :: remaining) worker_counts swappable
      else if worker_counts.get w.adapter_id 0 ≤ 1 ∧ 0 < protecting_rate adapter_rates w.adapter_id then
        rebalance_loop rebalances ((target_aid, deficit) :: remaining) worker_counts swappable
      else
        let rebalances := rebalances ++ [(w.worker_id, target_aid)]
        let worker_counts := forget_worker worker_counts w.adapter_id
        let worker_counts := worker_counts.set target_aid (worker_counts.get target_aid 0 + 1)
        let remaining := if deficit - 1 ≤ 0 then remaining else (target_aid, deficit - 1) :: remaining
        if 2 ≤ rebalances.length then rebalances
        else rebalance_loop rebalances remaining worker_counts swappable

def underserved (targets : List (AdapterId × Int)) (worker_counts : OrderedDict AdapterId Int) :
    List (AdapterId × Int) :=
  (targets.map fun i => (i.1, i.2 - worker_counts.get i.1 0)).filter fun i => 0 < i.2

/-- Ready, not busy and idle for long enough, with an adapter that is overserved. -/
def swappable (workers : List IdleSnapshot) (worker_counts : OrderedDict AdapterId Int) :
    List IdleSnapshot :=
  workers.filter fun w => w.status = .ready ∧ ¬ 0 < w.active_requests ∧
    ¬ w.idle_time < self.swap_protection ∧
      1 < overserve_score arithmetic adapter_rates w.adapter_id worker_counts

def get_proactive_rebalances (workers : List IdleSnapshot) (num_workers max_workers : Nat) :
    List (WorkerId × AdapterId) :=
  if adapter_rates.keys = [] ∨ num_workers = 0 then []
  else
    let targets := self.compute_demand_targets adapter_rates num_workers max_workers
    let worker_counts := count_workers_per_adapter workers
    let remaining := (underserved targets worker_counts).insertionSort fun x y => y.2 ≤ x.2
    let swappable := (self.swappable arithmetic adapter_rates workers worker_counts).insertionSort fun x y =>
      overserve_score arithmetic adapter_rates y.adapter_id worker_counts ≤
        overserve_score arithmetic adapter_rates x.adapter_id worker_counts
    rebalance_loop adapter_rates [] remaining worker_counts swappable

end LoRantScheduler

namespace Snapshots

/-- A swap that has been made. -/
def swap (s : Snapshots) (r : WorkerId × AdapterId) : Snapshots where
  workers := s.workers.map fun w => if w.worker_id = r.1 then { w with adapter_id := r.2 } else w
  nodup := by
    rw [List.map_map]
    refine (List.map_congr_left fun w _ => ?_).symm ▸ s.nodup
    simp only [Function.comp_apply]
    split <;> rfl

def count (s : Snapshots) (adapter_id : AdapterId) : Int :=
  s.workers.countP fun w => w.adapter_id = adapter_id

variable {s : Snapshots} {w : IdleSnapshot} {a k : AdapterId}

theorem get_count (s : Snapshots) (a : AdapterId) :
    (count_workers_per_adapter s.workers).get a 0 = s.count a :=
  OrderedDict.get_tally _ _ _

@[simp] theorem length_swap (s : Snapshots) (r : WorkerId × AdapterId) :
    (s.swap r).workers.length = s.workers.length :=
  List.length_map _

theorem eq_of_worker_id {v : IdleSnapshot} (hv : v ∈ s.workers) (hw : w ∈ s.workers)
    (hSame : v.worker_id = w.worker_id) : v = w :=
  List.inj_on_of_nodup_map s.nodup hv hw hSame

theorem mem_swap_of_ne {v : IdleSnapshot} {r : WorkerId × AdapterId} (hv : v ∈ s.workers)
    (hOther : v.worker_id ≠ r.1) : v ∈ (s.swap r).workers :=
  List.mem_map.mpr ⟨v, hv, if_neg hOther⟩

/-- A swap takes the worker from its adapter to the other one. -/
theorem count_swap (hw : w ∈ s.workers) (k : AdapterId) :
    (s.swap (w.worker_id, a)).count k =
      s.count k + (if k = a then 1 else 0) - if k = w.adapter_id then 1 else 0 := by
  obtain ⟨before, after, hSplit⟩ := List.append_of_mem hw
  have hOthers : ∀ v ∈ before ++ after, v.worker_id ≠ w.worker_id := by
    have hNodup := s.nodup
    rw [hSplit, List.map_append, List.map_cons, List.nodup_middle, List.nodup_cons,
      ← List.map_append] at hNodup
    intro v hv hSame
    exact hNodup.1 (hSame ▸ List.mem_map_of_mem hv)
  have hSame : ∀ l ⊆ before ++ after, (l.map fun v =>
      if v.worker_id = w.worker_id then { v with adapter_id := a } else v) = l := by
    intro l hl
    refine (List.map_congr_left fun v hv => if_neg (hOthers v (hl hv))).trans (List.map_id' l)
  have hWorkers : (s.swap (w.worker_id, a)).workers = before ++ { w with adapter_id := a } :: after := by
    simp only [swap, hSplit, List.map_append, List.map_cons, if_true]
    rw [hSame before (List.subset_append_left ..), hSame after (List.subset_append_right ..)]
  unfold count
  rw [hWorkers, hSplit]
  simp only [List.countP_append, List.countP_cons, decide_eq_true_eq, eq_comm (a := k)]
  push_cast
  ring

end Snapshots

namespace LoRantScheduler

section Loop

variable (adapter_rates : Rates) (remaining : List (AdapterId × Int))
  (worker_counts : OrderedDict AdapterId Int) (swappable : List IdleSnapshot)

/-- After the first swap there is one more at most. -/
theorem rebalance_loop_second (r : WorkerId × AdapterId) :
    rebalance_loop adapter_rates [r] remaining worker_counts swappable = [r] ∨
      ∃ w ∈ swappable, ∃ i ∈ remaining, w.adapter_id ≠ i.1 ∧
        rebalance_loop adapter_rates [r] remaining worker_counts swappable =
          [r, (w.worker_id, i.1)] := by
  obtain _ | ⟨⟨target_aid, deficit⟩, rest⟩ := remaining
  · exact .inl (by simp [rebalance_loop])
  · induction swappable with
    | nil => exact .inl (by simp [rebalance_loop])
    | cons w ws ih =>
        have hLater : rebalance_loop adapter_rates [r] ((target_aid, deficit) :: rest) worker_counts ws =
            [r] ∨ ∃ v ∈ w :: ws, ∃ i ∈ (target_aid, deficit) :: rest, v.adapter_id ≠ i.1 ∧
              rebalance_loop adapter_rates [r] ((target_aid, deficit) :: rest) worker_counts ws =
                [r, (v.worker_id, i.1)] :=
          ih.imp_right fun ⟨v, hv, hFound⟩ => ⟨v, List.mem_cons_of_mem w hv, hFound⟩
        unfold rebalance_loop
        split
        · exact hLater
        · rename_i hOther
          split
          · exact hLater
          · exact .inr ⟨w, List.mem_cons_self .., _, List.mem_cons_self .., hOther, rfl⟩

/-- The first swap goes to the adapter whose turn it is, and the rest of the workers remain for
another one. -/
theorem rebalance_loop_first :
    rebalance_loop adapter_rates [] remaining worker_counts swappable = [] ∨
      ∃ i rest before w after worker_counts', remaining = i :: rest ∧
        swappable = before ++ w :: after ∧ w.adapter_id ≠ i.1 ∧
          rebalance_loop adapter_rates [] remaining worker_counts swappable =
            rebalance_loop adapter_rates [(w.worker_id, i.1)]
              (if i.2 - 1 ≤ 0 then rest else (i.1, i.2 - 1) :: rest) worker_counts' after := by
  obtain _ | ⟨⟨target_aid, deficit⟩, rest⟩ := remaining
  · exact .inl (by simp [rebalance_loop])
  · induction swappable with
    | nil => exact .inl (by simp [rebalance_loop])
    | cons w ws ih =>
        have hLater : rebalance_loop adapter_rates [] ((target_aid, deficit) :: rest) worker_counts ws =
            [] ∨ ∃ i rest' before v after worker_counts', (target_aid, deficit) :: rest = i :: rest' ∧
              w :: ws = before ++ v :: after ∧ v.adapter_id ≠ i.1 ∧
                rebalance_loop adapter_rates [] ((target_aid, deficit) :: rest) worker_counts ws =
                  rebalance_loop adapter_rates [(v.worker_id, i.1)]
                    (if i.2 - 1 ≤ 0 then rest' else (i.1, i.2 - 1) :: rest') worker_counts' after :=
          ih.imp_right fun ⟨i, rest', before, v, after, counts, hRest, hSplit, hFound⟩ =>
            ⟨i, rest', w :: before, v, after, counts, hRest, congrArg (w :: ·) hSplit, hFound⟩
        rw [rebalance_loop]
        split
        · exact hLater
        · rename_i hOther
          split
          · exact hLater
          · exact .inr ⟨_, rest, [], w, ws, _, rfl, rfl, hOther, rfl⟩

end Loop

section Targets

variable {self : LoRantScheduler} {adapter_rates : Rates} {busy_workers max_workers : Nat}

/-- The target of an adapter, none if it has no rate. -/
def target_of (targets : List (AdapterId × Int)) (adapter_id : AdapterId) : Int :=
  (targets.lookup adapter_id).getD 0

theorem map_fst_targets_sublist :
    ((self.compute_demand_targets adapter_rates busy_workers max_workers).map (·.1)).Sublist
      adapter_rates.keys := by
  by_cases hTotal : 0 < adapter_rates.values.sum
  · rw [compute_demand_targets_eq hTotal, List.map_map, ← adapter_rates.map_fst_items]
    exact List.filter_sublist.map _
  · have hNone : self.compute_demand_targets adapter_rates busy_workers max_workers = [] :=
      if_pos (not_lt.mp hTotal)
    rw [hNone]
    exact List.nil_sublist _

theorem target_of_mem {i : AdapterId × Int}
    (hMem : i ∈ self.compute_demand_targets adapter_rates busy_workers max_workers) :
    target_of (self.compute_demand_targets adapter_rates busy_workers max_workers) i.1 = i.2 ∧
      i.1 ∈ adapter_rates.keys.toFinset := by
  have hKeys : ((self.compute_demand_targets adapter_rates busy_workers max_workers).map
      (·.1)).Sublist adapter_rates.keys := map_fst_targets_sublist
  refine ⟨?_, List.mem_toFinset.mpr (hKeys.subset (List.mem_map_of_mem hMem))⟩
  obtain ⟨before, after, hSplit⟩ := List.append_of_mem hMem
  have hNodup := adapter_rates.nodup.sublist hKeys
  rw [hSplit, List.map_append, List.map_cons, List.nodup_middle, List.nodup_cons] at hNodup
  have hFirst : (self.compute_demand_targets adapter_rates busy_workers max_workers).lookup i.1 =
      some i.2 := by
    refine List.lookup_eq_some_iff.mpr ⟨before, after, hSplit, fun p hp => bne_iff_ne.mpr ?_⟩
    intro hSame
    exact hNodup.1 (List.mem_append_left _ (hSame ▸ List.mem_map_of_mem hp))
  unfold target_of
  rw [hFirst]
  rfl

end Targets

section Rounds

variable (self : LoRantScheduler) (arithmetic : ScoreArithmetic) (adapter_rates : Rates)
  (max_workers : Nat) (s : Snapshots)

/-- The demand targets for a pool. -/
def pool_targets : List (AdapterId × Int) :=
  self.compute_demand_targets adapter_rates s.workers.length max_workers

def rebalances : List (WorkerId × AdapterId) :=
  self.get_proactive_rebalances arithmetic adapter_rates s.workers s.workers.length max_workers

/-- The pool when all swaps have been made. -/
def rebalance : Snapshots := (self.rebalances arithmetic adapter_rates max_workers s).foldl Snapshots.swap s

/-- While some adapter is below its target, those that count as overserved are above theirs. -/
def AboveTargets : Prop :=
  let targets := self.pool_targets adapter_rates max_workers s
  (∃ i ∈ targets, s.count i.1 < i.2) → ∀ w ∈ s.workers,
    1 < overserve_score arithmetic adapter_rates w.adapter_id (count_workers_per_adapter s.workers) →
      target_of targets w.adapter_id < s.count w.adapter_id

instance : Decidable (self.AboveTargets arithmetic adapter_rates max_workers s) :=
  inferInstanceAs (Decidable (_ → _))

/-- How many workers the adapters lack to their targets. -/
def missing : Nat :=
  shortfall adapter_rates.keys.toFinset
    (target_of (self.pool_targets adapter_rates max_workers s)) s.count

variable {self arithmetic adapter_rates max_workers s}

/-- The lists that the swaps are made from. -/
theorem rebalances_eq (hSome : self.rebalances arithmetic adapter_rates max_workers s ≠ []) :
    ∃ remaining swappable, self.rebalances arithmetic adapter_rates max_workers s = rebalance_loop adapter_rates []
        remaining (count_workers_per_adapter s.workers) swappable ∧
      remaining.Perm (underserved (self.pool_targets adapter_rates max_workers s)
        (count_workers_per_adapter s.workers)) ∧
      swappable.Perm (self.swappable arithmetic adapter_rates s.workers (count_workers_per_adapter s.workers)) := by
  unfold rebalances get_proactive_rebalances at hSome ⊢
  split at hSome
  · exact absurd rfl hSome
  · rename_i hAsked
    rw [if_neg hAsked]
    exact ⟨_, _, rfl, List.perm_insertionSort .., List.perm_insertionSort ..⟩

theorem of_underserved {i : AdapterId × Int}
    (hMem : i ∈ underserved (self.pool_targets adapter_rates max_workers s)
      (count_workers_per_adapter s.workers)) :
    i.1 ∈ adapter_rates.keys.toFinset ∧ 0 < i.2 ∧
      i.2 = target_of (self.pool_targets adapter_rates max_workers s) i.1 - s.count i.1 ∧
        ∃ j ∈ self.pool_targets adapter_rates max_workers s, s.count j.1 < j.2 := by
  obtain ⟨hMap, hPos⟩ := List.mem_filter.mp hMem
  obtain ⟨j, hj, rfl⟩ := List.mem_map.mp hMap
  obtain ⟨hTarget, hKey⟩ := target_of_mem hj
  rw [Snapshots.get_count, decide_eq_true_eq] at hPos
  rw [Snapshots.get_count]
  exact ⟨hKey, hPos, congrArg (· - s.count j.1) hTarget.symm, j, hj, by omega⟩

theorem nodup_underserved : ((underserved (self.pool_targets adapter_rates max_workers s)
    (count_workers_per_adapter s.workers)).map (·.1)).Nodup := by
  have hKeys : ((self.pool_targets adapter_rates max_workers s).map (·.1)).Nodup :=
    adapter_rates.nodup.sublist map_fst_targets_sublist
  refine List.Nodup.sublist (List.filter_sublist.map _) ?_
  rw [List.map_map]
  exact hKeys

theorem of_swappable (hAbove : self.AboveTargets arithmetic adapter_rates max_workers s)
    (hBelow : ∃ i ∈ self.pool_targets adapter_rates max_workers s, s.count i.1 < i.2)
    {w : IdleSnapshot}
    (hMem : w ∈ self.swappable arithmetic adapter_rates s.workers (count_workers_per_adapter s.workers)) :
    w ∈ s.workers ∧
      target_of (self.pool_targets adapter_rates max_workers s) w.adapter_id < s.count w.adapter_id := by
  obtain ⟨hWorker, hIdle⟩ := List.mem_filter.mp hMem
  exact ⟨hWorker, hAbove hBelow w hWorker (of_decide_eq_true hIdle).2.2.2⟩

theorem nodup_swappable : ((self.swappable arithmetic adapter_rates s.workers
    (count_workers_per_adapter s.workers)).map (·.worker_id)).Nodup :=
  s.nodup.sublist (List.filter_sublist.map _)

theorem pool_targets_swap (r : WorkerId × AdapterId) :
    self.pool_targets adapter_rates max_workers (s.swap r) =
      self.pool_targets adapter_rates max_workers s := by
  unfold pool_targets
  rw [Snapshots.length_swap]

/-- A swap to an adapter that lacks a worker. -/
theorem missing_swap {w : IdleSnapshot} {a : AdapterId} (hw : w ∈ s.workers)
    (ha : a ∈ adapter_rates.keys.toFinset)
    (hLacks : s.count a < target_of (self.pool_targets adapter_rates max_workers s) a) :
    self.missing adapter_rates max_workers (s.swap (w.worker_id, a)) + 1 ≤
      self.missing adapter_rates max_workers s +
        if s.count w.adapter_id ≤
          target_of (self.pool_targets adapter_rates max_workers s) w.adapter_id then 1 else 0 := by
  unfold missing
  rw [pool_targets_swap]
  exact shortfall_move ha hLacks (Snapshots.count_swap hw)

/-- A round that swaps takes from those who have enough, and less is missing. -/
theorem missing_rebalance (hAbove : self.AboveTargets arithmetic adapter_rates max_workers s)
    (hSome : self.rebalances arithmetic adapter_rates max_workers s ≠ []) :
    self.missing adapter_rates max_workers (self.rebalance arithmetic adapter_rates max_workers s) <
      self.missing adapter_rates max_workers s := by
  obtain ⟨remaining, swappable, hLoop, hRemaining, hSwappable⟩ := rebalances_eq hSome
  have hKeys : (remaining.map (·.1)).Nodup :=
    (hRemaining.map _).nodup_iff.mpr nodup_underserved
  have hIds : (swappable.map (·.worker_id)).Nodup :=
    (hSwappable.map _).nodup_iff.mpr nodup_swappable
  unfold rebalance
  rw [hLoop] at hSome ⊢
  obtain hNone | ⟨i, rest, before, w, after, counts, hRest, hSplit, hOther, hFirst⟩ :=
    rebalance_loop_first adapter_rates remaining (count_workers_per_adapter s.workers) swappable
  · exact absurd hNone hSome
  have hUnder {j : AdapterId × Int} (hj : j ∈ i :: rest) :=
    of_underserved (hRemaining.mem_iff.mp (hRest ▸ hj))
  have hOver {v : IdleSnapshot} (hv : v ∈ swappable) :
      v ∈ s.workers ∧ target_of (self.pool_targets adapter_rates max_workers s) v.adapter_id <
        s.count v.adapter_id :=
    of_swappable hAbove (hUnder (List.mem_cons_self ..)).2.2.2 (hSwappable.mem_iff.mp hv)
  have hw := hOver (hSplit ▸ List.mem_append_right _ (List.mem_cons_self ..))
  obtain ⟨hKey, hPos, hLack, -⟩ := hUnder (List.mem_cons_self ..)
  have hLacks : s.count i.1 < target_of (self.pool_targets adapter_rates max_workers s) i.1 := by
    omega
  have hStep := missing_swap hw.1 hKey hLacks
  rw [if_neg (not_le.mpr hw.2)] at hStep
  rw [hFirst]
  obtain hOne | ⟨v, hv, j, hj, -, hTwo⟩ := rebalance_loop_second adapter_rates
    (if i.2 - 1 ≤ 0 then rest else (i.1, i.2 - 1) :: rest) counts after (w.worker_id, i.1)
  · rw [hOne]
    exact hStep
  · rw [hTwo]
    have hTurn : j.1 ∈ adapter_rates.keys.toFinset ∧ (s.swap (w.worker_id, i.1)).count j.1 <
        target_of (self.pool_targets adapter_rates max_workers (s.swap (w.worker_id, i.1))) j.1 := by
      rw [pool_targets_swap, Snapshots.count_swap hw.1]
      -- The turn is still that of the first adapter, or of a later one.
      have hCases : j ∈ rest ∨ j = (i.1, i.2 - 1) ∧ 1 < i.2 := by
        split at hj
        · exact .inl hj
        · exact (List.mem_cons.mp hj).symm.imp_right fun hSame => ⟨hSame, by omega⟩
      obtain hLater | ⟨rfl, hMore⟩ := hCases
      · obtain ⟨hKey', hPos', hLack', -⟩ := hUnder (List.mem_cons_of_mem _ hLater)
        have hNe : j.1 ≠ i.1 := by
          rw [hRest, List.map_cons, List.nodup_cons] at hKeys
          exact fun hSame => hKeys.1 (hSame ▸ List.mem_map_of_mem hLater)
        refine ⟨hKey', ?_⟩
        rw [if_neg hNe]
        split
        · omega
        · omega
      · refine ⟨hKey, ?_⟩
        rw [if_pos rfl, if_neg (Ne.symm hOther)]
        dsimp only
        omega
    change self.missing adapter_rates max_workers
      ((s.swap (w.worker_id, i.1)).swap (v.worker_id, j.1)) < _
    have hv' : v ∈ swappable := hSplit ▸ List.mem_append_right _ (List.mem_cons_of_mem _ hv)
    have hIds' : v.worker_id ≠ w.worker_id := by
      rw [hSplit, List.map_append, List.map_cons, List.nodup_middle, List.nodup_cons] at hIds
      exact fun hSame => hIds.1 (List.mem_append_right _ (hSame ▸ List.mem_map_of_mem hv))
    have hNext := missing_swap (Snapshots.mem_swap_of_ne (hOver hv').1 hIds') hTurn.1 hTurn.2
    split at hNext
    · omega
    · omega

/-- The swaps are ones that the controller expects of the policy. -/
theorem may_rebalance_rebalances : may_rebalance (s.workers.map (·.toWorkerSnapshot))
    (self.rebalances arithmetic adapter_rates max_workers s) = true := by
  by_cases hSome : self.rebalances arithmetic adapter_rates max_workers s = []
  · simp [hSome, may_rebalance]
  obtain ⟨remaining, swappable, hLoop, -, hSwappable⟩ := rebalances_eq hSome
  have hReady {w : IdleSnapshot} (hw : w ∈ swappable) : ∃ v ∈ s.workers.map (·.toWorkerSnapshot),
      v.worker_id = w.worker_id ∧ v.status = .ready ∧ v.active_requests ≤ 0 := by
    obtain ⟨hWorker, hIdle⟩ := List.mem_filter.mp (hSwappable.mem_iff.mp hw)
    obtain ⟨hStatus, hActive, -⟩ := of_decide_eq_true hIdle
    exact ⟨_, List.mem_map_of_mem hWorker, rfl, hStatus, not_lt.mp hActive⟩
  rw [hLoop] at hSome ⊢
  obtain hNone | ⟨i, rest, before, w, after, counts, -, hSplit, -, hFirst⟩ :=
    rebalance_loop_first adapter_rates remaining (count_workers_per_adapter s.workers) swappable
  · exact absurd hNone hSome
  have hw := hReady (hSplit ▸ List.mem_append_right before (List.mem_cons_self ..))
  rw [hFirst]
  obtain hOne | ⟨v, hv, j, -, -, hTwo⟩ := rebalance_loop_second adapter_rates
    (if i.2 - 1 ≤ 0 then rest else (i.1, i.2 - 1) :: rest) counts after (w.worker_id, i.1)
  · rw [hOne]
    refine decide_eq_true ⟨Nat.le_succ 1, ?_⟩
    rintro r hr
    obtain rfl := List.mem_singleton.mp hr
    exact hw
  · have hv' := hReady (hSplit ▸ List.mem_append_right before (List.mem_cons_of_mem w hv))
    rw [hTwo]
    refine decide_eq_true ⟨le_rfl, ?_⟩
    intro r hr
    obtain rfl | hr := List.mem_cons.mp hr
    · exact hw
    · obtain rfl := List.mem_singleton.mp hr
      exact hv'

end Rounds

/-- Workers that are ready and have been idle for a second. -/
def idle_pool (adapters : List AdapterId) : Snapshots where
  workers := adapters.zipIdx.map fun p => ⟨⟨p.2, p.1, .ready, 0⟩, 1⟩
  nodup := by
    rw [List.map_map]
    exact List.nodup_zipIdx_map_snd adapters

def equal_rates : Rates := (OrderedDict.empty.set (some "a") 1).set (some "b") 1

end LoRantScheduler

end Controller
