import SwarmLoRA.Controller.Rebalance
import SwarmLoRA.Controller.Step

namespace Controller

open Data

section Policy

variable (adapter_rates : Rates) (min_workers : Nat) (scale_down_delay : ℚ)

/-- The loop over the eligible workers, the one that has been idle longest first. The last worker
of an active adapter has four times the delay. -/
def reap_ids : Nat → OrderedDict AdapterId Int → List IdleSnapshot → List WorkerId
  | _, _, [] => []
  | current_count, worker_counts, w :: eligible =>
      if current_count ≤ min_workers then []
      else if (worker_counts.get w.adapter_id 0 ≤ 1 ∧
          0 < protecting_rate adapter_rates w.adapter_id) ∧ w.idle_time < scale_down_delay * 4 then
        reap_ids current_count worker_counts eligible
      else
        w.worker_id ::
          reap_ids (current_count - 1) (forget_worker worker_counts w.adapter_id) eligible

/-- The workers that are ready and have requests. -/
def busy_workers (workers : List IdleSnapshot) : Nat :=
  workers.countP fun w => w.status = .ready ∧ 0 < w.active_requests

/-- The workers that may be reaped. `idle` says which numbers of active requests are none. -/
def eligible (idle : Int → Bool) (workers : List IdleSnapshot) : List IdleSnapshot :=
  workers.filter fun w =>
    w.status = .ready ∧ idle w.active_requests ∧ ¬ w.idle_time < scale_down_delay

def select_workers_to_reap (idle : Int → Bool) (workers : List IdleSnapshot) : List WorkerId :=
  if 0 < workers.length ∧ (3 / 10 : ℚ) < busy_workers workers / workers.length then []
  else
    reap_ids adapter_rates min_workers scale_down_delay workers.length
      (count_workers_per_adapter workers)
      ((eligible scale_down_delay idle workers).insertionSort fun x y => y.idle_time ≤ x.idle_time)

end Policy

def LoRantScheduler.select_workers_to_reap (self : LoRantScheduler) (workers : List IdleSnapshot)
    (min_workers : Nat) (scale_down_delay : ℚ) : List WorkerId :=
  Controller.select_workers_to_reap self.adapter_rates min_workers scale_down_delay
    (fun n => ¬ 0 < n) workers

def RandomScheduler.select_workers_to_reap (adapter_rates : Rates) (workers : List IdleSnapshot)
    (min_workers : Nat) (scale_down_delay : ℚ) : List WorkerId :=
  Controller.select_workers_to_reap adapter_rates min_workers scale_down_delay
    (fun n => n = 0) workers

/-- An adapter with a name and a positive rate. -/
def Active (adapter_rates : Rates) (adapter_id : AdapterId) : Prop :=
  ∃ name, adapter_id = some name ∧ name ≠ "" ∧ 0 < adapter_rates.get adapter_id 0

/-- What the policies promise of the workers that they give up, with the last worker of each active
adapter under protection. -/
structure SafeReap (active : AdapterId → Prop) (workers : List IdleSnapshot) (min_workers : Nat)
    (scale_down_delay : ℚ) (worker_ids : List WorkerId) : Prop where
  distinct : worker_ids.Nodup
  idle : ∀ wid ∈ worker_ids, ∃ w ∈ workers, w.worker_id = wid ∧ w.status = .ready ∧
    ¬ 0 < w.active_requests ∧ scale_down_delay ≤ w.idle_time
  calm : (3 / 10 : ℚ) * workers.length < busy_workers workers → worker_ids = []
  bound : min_workers ≤ workers.length → min_workers + worker_ids.length ≤ workers.length
  last : ∀ a, active a → (∀ w ∈ workers, w.adapter_id = a → w.worker_id ∈ worker_ids) →
    ∀ w ∈ workers, w.adapter_id = a → 4 * scale_down_delay ≤ w.idle_time

theorem protecting_rate_pos_iff {adapter_rates : Rates} {a : AdapterId} :
    0 < protecting_rate adapter_rates a ↔ Active adapter_rates a := by
  unfold Active
  cases a with
  | none => simp [protecting_rate]
  | some name =>
      by_cases hName : name = ""
      · simp [protecting_rate, hName]
      · simp [protecting_rate, hName]

section Walk

variable {adapter_rates : Rates} {min_workers current_count : Nat} {scale_down_delay : ℚ}
  {worker_counts : OrderedDict AdapterId Int} {eligible reaped : List IdleSnapshot} {a : AdapterId}

theorem get_forget_worker_of_ne {b : AdapterId} (hOther : a ≠ b) :
    (forget_worker worker_counts b).get a 0 = worker_counts.get a 0 := by
  unfold forget_worker
  split
  · rw [OrderedDict.get_set, if_neg hOther]
  · rfl

theorem get_forget_worker_le (hSome : a ≠ none) {n : Int} (hNonneg : 0 ≤ n)
    (h : worker_counts.get a 0 ≤ n + 1) : (forget_worker worker_counts a).get a 0 ≤ n := by
  unfold forget_worker
  rw [if_pos hSome, OrderedDict.get_set, if_pos rfl]
  unfold OrderedDict.get at h ⊢
  cases hFind : worker_counts.find a with
  | none => simpa using hNonneg
  | some count =>
      rw [hFind, Option.getD_some] at h
      rw [Option.getD_some]
      omega

/-- All workers of the adapter that were left have been reaped, so the last one of them had been
idle for long, and the others for longer. -/
def LastProtected (adapter_rates : Rates) (scale_down_delay : ℚ)
    (worker_counts : OrderedDict AdapterId Int) (reaped : List IdleSnapshot) : Prop :=
  ∀ a, Active adapter_rates a →
    worker_counts.get a 0 ≤ reaped.countP (fun w => w.adapter_id = a) →
      ∀ w ∈ reaped, w.adapter_id = a → scale_down_delay * 4 ≤ w.idle_time

theorem LastProtected.nil :
    LastProtected adapter_rates scale_down_delay worker_counts [] :=
  fun _ _ _ _ hw => absurd hw List.not_mem_nil

theorem LastProtected.cons {w : IdleSnapshot}
    (h : LastProtected adapter_rates scale_down_delay
      (forget_worker worker_counts w.adapter_id) reaped)
    (hLonger : ∀ v ∈ reaped, v.idle_time ≤ w.idle_time)
    (hUnprotected : worker_counts.get w.adapter_id 0 ≤ 1 →
      0 < protecting_rate adapter_rates w.adapter_id → scale_down_delay * 4 ≤ w.idle_time) :
    LastProtected adapter_rates scale_down_delay worker_counts (w :: reaped) := by
  intro a hActive hAll
  by_cases hAdapter : w.adapter_id = a
  · subst hAdapter
    have hSome : w.adapter_id ≠ none := by
      obtain ⟨name, hName, -⟩ := hActive
      rw [hName]
      exact Option.some_ne_none name
    rw [List.countP_cons_of_pos (by simp)] at hAll
    push_cast at hAll
    have hRest := h w.adapter_id hActive (get_forget_worker_le hSome (Int.natCast_nonneg _) hAll)
    refine List.forall_mem_cons.mpr ⟨fun _ => ?_, hRest⟩
    -- Either another worker of the adapter is reaped later, or this one is the last.
    by_cases hLater : ∃ v ∈ reaped, v.adapter_id = w.adapter_id
    · obtain ⟨v, hv, hSame⟩ := hLater
      exact (hRest v hv hSame).trans (hLonger v hv)
    · have hNone : reaped.countP (fun v => v.adapter_id = w.adapter_id) = 0 := by
        rw [List.countP_eq_zero]
        exact fun v hv hSame => hLater ⟨v, hv, of_decide_eq_true hSame⟩
      rw [hNone] at hAll
      exact hUnprotected hAll (protecting_rate_pos_iff.mpr hActive)
  · rw [List.countP_cons_of_neg (by simpa using hAdapter)] at hAll
    rw [← get_forget_worker_of_ne (b := w.adapter_id) (Ne.symm hAdapter)] at hAll
    exact List.forall_mem_cons.mpr ⟨fun hSame => absurd hSame hAdapter, h a hActive hAll⟩

/-- What the loop reaps. -/
theorem reap_ids_spec (hSorted : eligible.Pairwise fun x y => y.idle_time ≤ x.idle_time) :
    ∃ reaped, reaped.Sublist eligible ∧
      reap_ids adapter_rates min_workers scale_down_delay current_count worker_counts eligible =
        reaped.map (·.worker_id) ∧
      (min_workers ≤ current_count → min_workers + reaped.length ≤ current_count) ∧
      LastProtected adapter_rates scale_down_delay worker_counts reaped := by
  induction eligible generalizing current_count worker_counts with
  | nil => exact ⟨[], .slnil, rfl, id, .nil⟩
  | cons w rest ih =>
      obtain ⟨hFirst, hRest⟩ := List.pairwise_cons.mp hSorted
      unfold reap_ids
      split
      next => exact ⟨[], List.nil_sublist _, rfl, id, .nil⟩
      next hMore =>
        split
        next =>
          obtain ⟨reaped, hSub, hIds, hBound, hLast⟩ := ih hRest
          exact ⟨reaped, hSub.cons w, hIds, hBound, hLast⟩
        next hUnprotected =>
          obtain ⟨reaped, hSub, hIds, hBound, hLast⟩ := ih hRest
          refine ⟨w :: reaped, hSub.cons_cons w, congrArg (w.worker_id :: ·) hIds, ?_, ?_⟩
          · intro hLe
            rw [List.length_cons]
            omega
          · refine hLast.cons (fun v hv => hFirst v (hSub.subset hv)) fun hOne hActive => ?_
            exact not_lt.mp fun hShort => hUnprotected ⟨⟨hOne, hActive⟩, hShort⟩

end Walk

section Pool

variable (adapter_rates : Rates) (s : Snapshots) (min_workers : Nat) (scale_down_delay : ℚ)

/-- If all workers of an adapter have been reaped, the list of the reaped ones counts them all. -/
theorem count_le_countP_of_reaped {reaped : List IdleSnapshot} {a : AdapterId}
    (hReaped : ∀ w ∈ reaped, w ∈ s.workers)
    (hAll : ∀ w ∈ s.workers, w.adapter_id = a → w.worker_id ∈ reaped.map (·.worker_id)) :
    s.count a ≤ reaped.countP fun w => w.adapter_id = a := by
  have hNodup : (s.workers.filter fun w => w.adapter_id = a).Nodup :=
    s.nodup.of_map.filter _
  have hSub : (s.workers.filter fun w => w.adapter_id = a) ⊆
      reaped.filter fun w => w.adapter_id = a := by
    intro w hw
    obtain ⟨hw, hAdapter⟩ := List.mem_filter.mp hw
    obtain ⟨v, hv, hSame⟩ := List.mem_map.mp (hAll w hw (of_decide_eq_true hAdapter))
    have hEq : v = w := Snapshots.eq_of_worker_id (hReaped v hv) hw hSame
    exact List.mem_filter.mpr ⟨hEq ▸ hv, hAdapter⟩
  rw [Snapshots.count, List.countP_eq_length_filter, List.countP_eq_length_filter]
  exact_mod_cast (hNodup.subperm hSub).length_le

theorem SafeReap.none {active : AdapterId → Prop} :
    SafeReap active s.workers min_workers scale_down_delay [] where
  distinct := List.nodup_nil
  idle := fun _ hwid => absurd hwid List.not_mem_nil
  calm := fun _ => rfl
  bound := id
  last := fun _ _ hAll w hw hAdapter => absurd (hAll w hw hAdapter) List.not_mem_nil

/-- The eligible workers in the order of the loop. -/
theorem longest_idle_first (eligible : List IdleSnapshot) :
    (eligible.insertionSort fun x y => y.idle_time ≤ x.idle_time).Pairwise
      fun x y => y.idle_time ≤ x.idle_time := by
  have : Std.Total fun x y : IdleSnapshot => y.idle_time ≤ x.idle_time :=
    ⟨fun x y => le_total y.idle_time x.idle_time⟩
  have : IsTrans IdleSnapshot fun x y => y.idle_time ≤ x.idle_time :=
    ⟨fun _ _ _ hxy hyz => hyz.trans hxy⟩
  exact List.pairwise_insertionSort _ eligible

theorem safe_reap {idle : Int → Bool} (hIdle : ∀ n, idle n = true → ¬ 0 < n) :
    SafeReap (Active adapter_rates) s.workers min_workers scale_down_delay
      (select_workers_to_reap adapter_rates min_workers scale_down_delay idle s.workers) := by
  unfold select_workers_to_reap
  split
  next => exact .none s min_workers scale_down_delay
  next hCalm =>
    have hSpec := @reap_ids_spec adapter_rates min_workers s.workers.length scale_down_delay
      (count_workers_per_adapter s.workers) _
      (longest_idle_first (eligible scale_down_delay idle s.workers))
    obtain ⟨reaped, hSub, hIds, hBound, hLast⟩ := hSpec
    have hEligible {w : IdleSnapshot} (hw : w ∈ reaped) :
        w ∈ s.workers ∧ w.status = .ready ∧ idle w.active_requests ∧
          ¬ w.idle_time < scale_down_delay := by
      have hMem := (List.perm_insertionSort _ _).subset (hSub.subset hw)
      simpa only [eligible, List.mem_filter, decide_eq_true_eq] using hMem
    rw [hIds]
    constructor
    case distinct =>
      have hPerm := List.perm_insertionSort (fun x y : IdleSnapshot => y.idle_time ≤ x.idle_time)
        (eligible scale_down_delay idle s.workers)
      have hEligibleIds : ((eligible scale_down_delay idle s.workers).map (·.worker_id)).Nodup :=
        s.nodup.sublist (List.filter_sublist.map _)
      exact ((hPerm.map _).nodup_iff.mpr hEligibleIds).sublist (hSub.map _)
    case idle =>
      intro wid hwid
      obtain ⟨w, hw, rfl⟩ := List.mem_map.mp hwid
      obtain ⟨hPool, hReady, hNone, hLong⟩ := hEligible hw
      exact ⟨w, hPool, rfl, hReady, hIdle _ hNone, not_lt.mp hLong⟩
    case calm =>
      intro hBusy
      have hLength : 0 < s.workers.length := by
        by_contra hEmpty
        rw [List.length_pos_iff, not_not] at hEmpty
        simp [hEmpty, busy_workers] at hBusy
      have hLengthRat : (0 : ℚ) < s.workers.length := by exact_mod_cast hLength
      exact absurd ⟨hLength, (lt_div_iff₀ hLengthRat).mpr hBusy⟩ hCalm
    case bound =>
      rw [List.length_map]
      exact hBound
    case last =>
      intro a hActive hAll w hw hAdapter
      have hCount : (count_workers_per_adapter s.workers).get a 0 ≤
          reaped.countP fun w => w.adapter_id = a := by
        rw [Snapshots.get_count]
        exact count_le_countP_of_reaped s (fun w hw => (hEligible hw).1) hAll
      obtain ⟨v, hv, hSame⟩ := List.mem_map.mp (hAll w hw hAdapter)
      obtain rfl : v = w := Snapshots.eq_of_worker_id (hEligible hv).1 hw hSame
      rw [mul_comm]
      exact hLast a hActive hCount v hv hAdapter

end Pool

section Loop

variable {cfg : Config} {s : State}

@[simp] theorem num_workers_mark_stopping (s : State) (o : WorkerRef) :
    (s.mark_stopping o).num_workers = s.num_workers :=
  rfl

theorem num_workers_pop_worker {wid : WorkerId} {o : WorkerRef}
    (hLookup : s.workers.lookup wid = some o) :
    (s.pop_worker wid o).num_workers = s.num_workers - 1 := by
  have hMem : wid ∈ s.workers := by
    rw [← AList.lookup_isSome, hLookup]
    rfl
  obtain ⟨p, before, after, -, hEntries, hErase⟩ := List.exists_of_kerase hMem
  change (s.workers.entries.kerase wid).length = s.workers.entries.length - 1
  rw [hErase, hEntries]
  simp

/-- The loop of the controller counts down from the size of the pool that it finds. -/
theorem min_workers_le_reap_loop (worker_ids : List WorkerId)
    (hEnough : cfg.min_workers ≤ s.num_workers) :
    cfg.min_workers ≤ (State.reap_loop cfg s s.num_workers worker_ids).1.num_workers := by
  induction worker_ids generalizing s with
  | nil => exact hEnough
  | cons wid rest ih =>
      unfold State.reap_loop
      split
      next => exact hEnough
      next hMore =>
        cases hLookup : s.workers.lookup wid with
        | none => exact ih hEnough
        | some o =>
            dsimp only
            split
            next => exact ih hEnough
            next =>
              have hNext : ((s.mark_stopping o).pop_worker wid o).num_workers = s.num_workers - 1 :=
                num_workers_pop_worker hLookup
              rw [← hNext]
              refine ih ?_
              omega

theorem min_workers_le_reap_idle_workers (worker_ids : List WorkerId)
    (hEnough : cfg.min_workers ≤ s.num_workers) :
    cfg.min_workers ≤ (s.reap_idle_workers cfg worker_ids).num_workers := by
  unfold State.reap_idle_workers
  split
  next => exact hEnough
  next =>
    have hLoop := min_workers_le_reap_loop worker_ids hEnough
    dsimp only
    generalize (State.reap_loop cfg s s.num_workers worker_ids).1 = reaped at hLoop ⊢
    generalize (State.reap_loop cfg s s.num_workers worker_ids).2 = to_stop
    induction to_stop generalizing reaped with
    | nil => exact hLoop
    | cons o rest ih => exact ih _ hLoop

end Loop

/-- Both policies reap safely, and the controller does not go below `min_workers`, in whatever state
it finds the pool. -/
theorem reaping_is_safe (self : LoRantScheduler) (adapter_rates : Rates) (s : Snapshots)
    (min_workers : Nat) (scale_down_delay : ℚ) :
    SafeReap (Active self.adapter_rates) s.workers min_workers scale_down_delay
        (self.select_workers_to_reap s.workers min_workers scale_down_delay) ∧
      SafeReap (Active adapter_rates) s.workers min_workers scale_down_delay
        (RandomScheduler.select_workers_to_reap adapter_rates s.workers min_workers
          scale_down_delay) ∧
      ∀ (cfg : Config) (pool : State) (worker_ids : List WorkerId),
        cfg.min_workers ≤ pool.num_workers →
          cfg.min_workers ≤ (pool.reap_idle_workers cfg worker_ids).num_workers := by
  refine ⟨?_, ?_, fun _ _ worker_ids => min_workers_le_reap_idle_workers worker_ids⟩
  · refine safe_reap self.adapter_rates s min_workers scale_down_delay fun n hNone => ?_
    exact of_decide_eq_true hNone
  · refine safe_reap adapter_rates s min_workers scale_down_delay fun n hNone => ?_
    exact (of_decide_eq_true hNone).le.not_gt

/-- Two workers that are ready, for one adapter with a rate, and one of them is to stay. -/
theorem reaping_is_safe_two :
    let policy : LoRantScheduler := { adapter_rates := LoRantScheduler.equal_rates }
    let s := LoRantScheduler.idle_pool [some "a", some "a"]
    let pool : State := { built with
      workers := (AList.singleton 0 0).insert 1 1, infos := fun _ => { status := .ready } }
    policy.select_workers_to_reap s.workers 1 1 = [0] ∧
      SafeReap (Active LoRantScheduler.equal_rates) s.workers 1 1 [0] ∧
      1 ≤ (pool.reap_idle_workers { twoWorkers with min_workers := 1 } [0]).num_workers := by
  intro policy s pool
  obtain ⟨hLorant, -, hController⟩ := reaping_is_safe policy LoRantScheduler.equal_rates s 1 1
  have hIds : policy.select_workers_to_reap s.workers 1 1 = [0] := by decide +kernel
  rw [hIds] at hLorant
  refine ⟨hIds, hLorant, hController { twoWorkers with min_workers := 1 } pool [0] ?_⟩
  decide

/-- With the empty name the last worker of an adapter is given up as soon as it is idle. -/
theorem unnamed_adapter_unprotected :
    let rates : Rates := OrderedDict.empty.set (some "") 1
    let s := LoRantScheduler.idle_pool [some ""]
    ¬ SafeReap (fun a => 0 < rates.get a 0) s.workers 0 1
      (LoRantScheduler.select_workers_to_reap { adapter_rates := rates } s.workers 0 1) := by
  intro rates s hSafe
  have hLong := hSafe.last (some "") (by decide +kernel) (by decide +kernel)
    ⟨⟨0, some "", .ready, 0⟩, 1⟩ (by decide +kernel) rfl
  norm_num at hLong

end Controller
