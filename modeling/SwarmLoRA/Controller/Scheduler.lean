import Mathlib.Data.Finset.Basic

/-! The scheduling policies of the node controller. A policy ranks its candidates by request
rates and idle times; which candidate comes out on top is taken as given here, and the policy
says which candidates there are. -/
namespace Controller

/-- An adapter name; `none` is the default adapter of a controller that has none. -/
abbrev AdapterId := Option String

abbrev WorkerId := Nat

abbrev Device := String

/-- Worker lifecycle states. -/
inductive WorkerStatus where
  | starting
  | ready
  | swapping
  | unhealthy
  | stopping
  deriving DecidableEq

/-- Read-only view of a worker for scheduling decisions. -/
structure WorkerSnapshot where
  worker_id : WorkerId
  adapter_id : AdapterId
  status : WorkerStatus
  active_requests : Int
  deriving DecidableEq

/-- What the controller should do with a request. -/
inductive RoutingDecision where
  | route (worker_id : WorkerId) (needs_swap needs_spawn : Bool)
  | spawn
  | queue
  | reject
  deriving DecidableEq

/-- The workers that are ready and not busy. -/
def free (workers : List WorkerSnapshot) : List WorkerSnapshot :=
  workers.filter fun w => w.status = .ready ∧ w.active_requests = 0

/-- A scheduling policy. `best_wid` is the candidate that the policy's keys put first;
`none` means that it is not among the candidates. Every policy routes to free workers
only. -/
structure LocalScheduler where
  route_request (workers : List WorkerSnapshot) (workers_with_adapter : Finset WorkerId)
    (num_workers max_workers : Nat) (best_wid : WorkerId) : Option RoutingDecision
  routes_free : ∀ {workers workers_with_adapter num_workers max_workers best_wid wid needs_swap
    needs_spawn}, route_request workers workers_with_adapter num_workers max_workers best_wid =
      some (.route wid needs_swap needs_spawn) → ∃ w ∈ free workers, w.worker_id = wid
  /-- Whether the proactive scaling loop runs. -/
  proactive : Bool
  /-- Whether the swaps are ones that `get_proactive_rebalances` may return. -/
  may_rebalance (workers : List WorkerSnapshot) (rebalances : List (WorkerId × AdapterId)) : Bool
  /-- Whether the adapters are ones that `get_proactive_spawns` may return. -/
  may_spawn (num_workers max_workers spawns_in_flight : Nat) (spawns : List AdapterId) : Bool

namespace LoRantScheduler

/-- Matching adapter first, then a swap, then a spawn, then the queue. The pool should grow
when more than 0.7 of it is busy. -/
def route_request (workers : List WorkerSnapshot) (workers_with_adapter : Finset WorkerId)
    (num_workers max_workers : Nat) (best_wid : WorkerId) : Option RoutingDecision :=
  let matching := (free workers).filter fun w => w.worker_id ∈ workers_with_adapter
  if matching ≠ [] then
    if ∃ w ∈ matching, w.worker_id = best_wid then some (.route best_wid false false) else none
  else if free workers ≠ [] then
    let busy : Int := num_workers - (free workers).length
    let needs_grow : Bool := num_workers < max_workers ∧ 10 * busy > 7 * max num_workers 1
    if ∃ w ∈ free workers, w.worker_id = best_wid then some (.route best_wid true needs_grow)
    else none
  else if num_workers < max_workers then some .spawn
  else some .queue

/-- At most two idle workers at a time are rebalanced. -/
def may_rebalance (workers : List WorkerSnapshot) (rebalances : List (WorkerId × AdapterId)) :
    Bool :=
  rebalances.length ≤ 2 ∧ ∀ r ∈ rebalances, ∃ w ∈ workers,
    w.worker_id = r.1 ∧ w.status = .ready ∧ w.active_requests ≤ 0

/-- The pool grows up to its size, by at most forty workers at a time. -/
def may_spawn (num_workers max_workers spawns_in_flight : Nat) (spawns : List AdapterId) : Bool :=
  spawns = [] ∨ num_workers ≠ 0 ∧ spawns.length ≤ 40 ∧ spawns.Nodup ∧
    num_workers + spawns_in_flight + spawns.length ≤ max_workers

end LoRantScheduler

/-- The ablation without swaps: a free worker with the adapter, else a spawn. -/
def LoRantNoSwapScheduler.route_request (workers : List WorkerSnapshot)
    (workers_with_adapter : Finset WorkerId) (num_workers max_workers : Nat)
    (best_wid : WorkerId) : Option RoutingDecision :=
  let matching := (free workers).filter fun w => w.worker_id ∈ workers_with_adapter
  if matching ≠ [] then
    if ∃ w ∈ matching, w.worker_id = best_wid then some (.route best_wid false false) else none
  else if num_workers < max_workers then some .spawn
  else some .queue

/-- The ablation without adapter awareness: `random.choice` picks `best_wid`. -/
def RandomScheduler.route_request (workers : List WorkerSnapshot)
    (workers_with_adapter : Finset WorkerId) (num_workers max_workers : Nat)
    (best_wid : WorkerId) : Option RoutingDecision :=
  if free workers ≠ [] then
    if ∃ w ∈ free workers, w.worker_id = best_wid then
      some (.route best_wid (best_wid ∉ workers_with_adapter) false)
    else none
  else if num_workers < max_workers then some .spawn
  else some .queue

def lorant : LocalScheduler where
  route_request := LoRantScheduler.route_request
  routes_free {workers _ _ _ _ _ _ _} hRoute := by
    simp only [LoRantScheduler.route_request] at hRoute
    split at hRoute
    next =>
      split at hRoute
      next hBest =>
        obtain ⟨w, hMem, hId⟩ := hBest
        obtain ⟨rfl, -, -⟩ := by simpa using hRoute
        exact ⟨w, List.mem_of_mem_filter hMem, hId⟩
      next => simp at hRoute
    next =>
      split at hRoute
      next =>
        split at hRoute
        next hBest =>
          obtain ⟨rfl, -, -⟩ := by simpa using hRoute
          exact hBest
        next => simp at hRoute
      next => split at hRoute <;> simp at hRoute
  proactive := true
  may_rebalance := LoRantScheduler.may_rebalance
  may_spawn := LoRantScheduler.may_spawn

def lorantNoSwap : LocalScheduler where
  route_request := LoRantNoSwapScheduler.route_request
  routes_free {workers _ _ _ _ _ _ _} hRoute := by
    simp only [LoRantNoSwapScheduler.route_request] at hRoute
    split at hRoute
    next =>
      split at hRoute
      next hBest =>
        obtain ⟨w, hMem, hId⟩ := hBest
        obtain ⟨rfl, -, -⟩ := by simpa using hRoute
        exact ⟨w, List.mem_of_mem_filter hMem, hId⟩
      next => simp at hRoute
    next => split at hRoute <;> simp at hRoute
  proactive := true
  may_rebalance _ rebalances := rebalances = []
  may_spawn := LoRantScheduler.may_spawn

def random : LocalScheduler where
  route_request := RandomScheduler.route_request
  routes_free {workers _ _ _ _ _ _ _} hRoute := by
    simp only [RandomScheduler.route_request] at hRoute
    split at hRoute
    next =>
      split at hRoute
      next hBest =>
        obtain ⟨rfl, -, -⟩ := by simpa using hRoute
        exact hBest
      next => simp at hRoute
    next => split at hRoute <;> simp at hRoute
  proactive := false
  may_rebalance _ rebalances := rebalances = []
  may_spawn _ _ _ spawns := spawns = []

end Controller
