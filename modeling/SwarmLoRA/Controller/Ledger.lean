import Mathlib.Algebra.BigOperators.Group.List.Basic
import Mathlib.Algebra.Order.Group.Multiset
import Mathlib.Tactic.Abel
import SwarmLoRA.Controller.Effects

namespace Controller

open Machine State Holding

/-- Everything that is held, by suspended coroutines and by the code that runs. -/
def total (x : Held) : Multiset Holding := x.1.ledger + x.2

variable {cfg : Config} {s₀ s s' : State} {l : Label} {h h' : Multiset Holding} {o : WorkerRef}
  {f : FutureId}

/-- Counting as a sum. -/
theorem sum_map_ite {α : Type} (p : α → Bool) (xs : List α) :
    (xs.map fun x => if p x then 1 else 0).sum = xs.countP p := by
  induction xs with
  | nil => rfl
  | cons x xs ih =>
      rw [List.map_cons, List.sum_cons, ih, List.countP_cons, Nat.add_comm]

/-- How often something is held is the sum over those who may hold it. -/
theorem count_ledger (s : State) (a : Holding) : s.ledger.count a =
    (s.tasks.map fun task => task.holds.count a).sum +
      (s.pending_requests.countP fun pr => entry pr.future = a) +
      ∑ f ∈ Finset.range s.nextFuture, (s.futures f).state.holds.count a := by
  have hTasks := map_list_sum (Multiset.countAddMonoidHom a) (s.tasks.map Task.holds)
  rw [List.map_map] at hTasks
  have hQueue : (s.pending_requests.map fun pr => entry pr.future).count a =
      s.pending_requests.countP fun pr => entry pr.future = a := by
    rw [List.count, List.countP_map]
    rfl
  simp only [ledger, Multiset.count_add, Multiset.count_sum', Multiset.coe_count, hQueue]
  exact congrArg (· + _ + _) hTasks

/-- Whatever is held is held by somebody. -/
theorem mem_ledger {a : Holding} (hMem : a ∈ s.ledger) : (∃ task ∈ s.tasks, a ∈ task.holds) ∨
    (∃ pr ∈ s.pending_requests, entry pr.future = a) ∨
      ∃ f < s.nextFuture, a ∈ (s.futures f).state.holds := by
  have hTasks : ∀ tasks : List Task, a ∈ (tasks.map Task.holds).sum → ∃ task ∈ tasks, a ∈ task.holds := by
    intro tasks hSum
    induction tasks with
    | nil => simp at hSum
    | cons task rest ih =>
        rw [List.map_cons, List.sum_cons, Multiset.mem_add] at hSum
        rcases hSum with hFirst | hRest
        · exact ⟨task, List.mem_cons_self, hFirst⟩
        · obtain ⟨other, hOther, hHolds⟩ := ih hRest
          exact ⟨other, List.mem_cons_of_mem _ hOther, hHolds⟩
  simp only [ledger, Multiset.mem_add, Multiset.mem_coe, List.mem_map, Multiset.mem_sum,
    Finset.mem_range] at hMem
  rcases hMem with (hSum | hQueue) | hFutures
  · exact .inl (hTasks s.tasks hSum)
  · exact .inr (.inl hQueue)
  · exact .inr (.inr hFutures)

/-- A coroutine brings along what it holds. -/
theorem ledger_create_task (s : State) (task : Task) :
    (s.create_task task).ledger = s.ledger + task.holds := by
  simp only [ledger, create_task, List.map_append, List.sum_append, List.map_cons, List.map_nil,
    List.sum_cons, List.sum_nil, add_zero]
  abel

/-- A coroutine that goes on has in hand what it held. -/
theorem ledger_take {i : Nat} {task : Task} (hTask : s.tasks[i]? = some task) :
    { s with tasks := s.tasks.eraseIdx i }.ledger + task.holds = s.ledger := by
  obtain ⟨hLt, hGet⟩ := List.getElem?_eq_some_iff.mp hTask
  have hSum := ((List.getElem_cons_eraseIdx_perm hLt).map Task.holds).sum_eq
  rw [List.map_cons, List.sum_cons, hGet] at hSum
  simp only [ledger, ← hSum]
  abel

/-- What a coroutine holds is on the ledger. -/
theorem mem_ledger_of_task {task : Task} {a : Holding} (hTask : task ∈ s.tasks)
    (hHolds : a ∈ task.holds) : a ∈ s.ledger := by
  obtain ⟨i, hGet⟩ := List.mem_iff_getElem?.mp hTask
  rw [← ledger_take hGet, Multiset.mem_add]
  exact .inr hHolds

/-- An entry that is put back. -/
theorem ledger_requeue (s : State) (pr : PendingRequest) :
    { s with pending_requests := s.pending_requests ++ [pr] }.ledger =
      s.ledger + {entry pr.future} := by
  simp only [ledger, List.map_append, List.map_cons, List.map_nil, ← Multiset.coe_add,
    Multiset.coe_singleton]
  abel

/-- The first entry is taken off. -/
theorem ledger_dequeue {pr : PendingRequest} {rest : List PendingRequest}
    (hHead : s.pending_requests = pr :: rest) :
    { s with pending_requests := rest }.ledger + {entry pr.future} = s.ledger := by
  simp only [ledger, hHead, List.map_cons, ← Multiset.cons_coe, ← Multiset.singleton_add]
  abel

/-- A future takes another state, and what it keeps changes with it. -/
theorem ledger_futures (s : State) (hFuture : f < s.nextFuture) (future : Future) :
    { s with futures := Function.update s.futures f future }.ledger + (s.futures f).state.holds =
      s.ledger + future.state.holds := by
  have hMem : f ∈ Finset.range s.nextFuture := Finset.mem_range.mpr hFuture
  have hOld := Finset.add_sum_erase (Finset.range s.nextFuture)
    (fun g => (s.futures g).state.holds) hMem
  have hNew := Finset.add_sum_erase (Finset.range s.nextFuture)
    (fun g => (Function.update s.futures f future g).state.holds) hMem
  have hSame : ∑ g ∈ (Finset.range s.nextFuture).erase f,
      (Function.update s.futures f future g).state.holds =
      ∑ g ∈ (Finset.range s.nextFuture).erase f, (s.futures g).state.holds := by
    refine Finset.sum_congr rfl fun g hg => ?_
    rw [Function.update_of_ne (Finset.ne_of_mem_erase hg)]
  rw [hSame, Function.update_self] at hNew
  simp only [ledger, ← hOld, ← hNew]
  abel

/-- A request that waits has an entry and a waiter. -/
theorem ledger_wait (s : State) (adapter_id : AdapterId) (retry : Bool) :
    (s.wait_for_available_worker adapter_id retry).ledger =
      s.ledger + {entry s.nextFuture} + {waiter s.nextFuture} := by
  have hSame : ∑ f ∈ Finset.range s.nextFuture,
      (Function.update s.futures s.nextFuture {} f).state.holds =
      ∑ f ∈ Finset.range s.nextFuture, (s.futures f).state.holds := by
    refine Finset.sum_congr rfl fun g hg => ?_
    rw [Function.update_of_ne (Finset.mem_range.mp hg).ne]
  simp only [ledger, wait_for_available_worker, Finset.sum_range_succ, hSame, Function.update_self,
    List.map_append, List.sum_append, List.map_cons, List.map_nil, List.sum_cons, List.sum_nil,
    ← Multiset.coe_add, Multiset.coe_singleton, Task.holds]
  rw [show (({} : Future).state.holds : Multiset Holding) = 0 from rfl]
  abel

/-- A future that is resolved holds a reservation. -/
theorem ledger_set_result (hFuture : f < s.nextFuture) (hPending : s.isPending f = true) :
    (s.set_result f o).ledger = s.ledger + {reservation o} := by
  have hState : (s.futures f).state = .pending := by simpa [isPending] using hPending
  have hSum := ledger_futures s hFuture
    { state := .resolved o, results := (s.futures f).results ++ [o] }
  rw [hState] at hSum
  exact (add_zero _).symm.trans hSum

/-- The request that waited takes the reservation over. -/
theorem ledger_deliver (hFuture : f < s.nextFuture) (hState : (s.futures f).state = .resolved o) :
    (s.setFuture f (.delivered o)).ledger + {reservation o} = s.ledger := by
  have hSum := ledger_futures s hFuture { s.futures f with state := .delivered o }
  rw [hState] at hSum
  exact hSum.trans (add_zero _)

/-- A future that is cancelled while it is pending holds nothing. -/
theorem ledger_cancel (hFuture : f < s.nextFuture) (hPending : s.isPending f = true) :
    (s.setFuture f .cancelled).ledger = s.ledger := by
  have hState : (s.futures f).state = .pending := by simpa [isPending] using hPending
  have hSum := ledger_futures s hFuture { s.futures f with state := .cancelled }
  rw [hState] at hSum
  exact (add_zero _).symm.trans (hSum.trans (add_zero _))

/-- What is in hand counts like what is on the ledger. -/
@[simp] theorem total_cons (s : State) (a : Holding) (h : Multiset Holding) :
    total (s, a ::ₘ h) = a ::ₘ total (s, h) :=
  Multiset.add_cons a s.ledger h

/-- With nothing in hand the total is the ledger. -/
theorem total_zero (s : State) : total (s, 0) = s.ledger := add_zero _

/-- A task that is put takes over from the hand. -/
theorem total_put (s : State) (task : Task) (h : Multiset Holding) :
    total (s.create_task task, h) = total (s, task.holds + h) := by
  simp only [total, ledger_create_task, add_assoc]

/-- A task that is taken gives to the hand. -/
theorem total_take {i : Nat} {task : Task} (hTask : s.tasks[i]? = some task) :
    total ({ s with tasks := s.tasks.eraseIdx i }, task.holds + h) = total (s, h) := by
  simp only [total, ← ledger_take hTask, add_assoc]

/-- A request that is queued makes an entry and a waiter. -/
theorem total_queue (s : State) (adapter_id : AdapterId) (retry : Bool) (h : Multiset Holding) :
    total (s.wait_for_available_worker adapter_id retry, h) =
      entry s.nextFuture ::ₘ waiter s.nextFuture ::ₘ total (s, h) := by
  simp only [total, ledger_wait, ← Multiset.singleton_add]
  abel

/-- An entry in hand is put back into the queue. -/
theorem total_requeue (s : State) (pr : PendingRequest) (h : Multiset Holding) :
    total ({ s with pending_requests := s.pending_requests ++ [pr] }, h) =
      entry pr.future ::ₘ total (s, h) := by
  simp only [total, ledger_requeue, ← Multiset.singleton_add]
  abel

/-- An entry is taken from the queue into the hand. -/
theorem total_dequeue {pr : PendingRequest} {rest : List PendingRequest}
    (hHead : s.pending_requests = pr :: rest) :
    entry pr.future ::ₘ total ({ s with pending_requests := rest }, h) = total (s, h) := by
  simp only [total, ← ledger_dequeue hHead, ← Multiset.singleton_add]
  abel

/-- Resolving a future makes a reservation. -/
theorem total_resolve (hFuture : f < s.nextFuture) (hPending : s.isPending f = true) :
    total (s.set_result f o, h) = reservation o ::ₘ total (s, h) := by
  simp only [total, ledger_set_result hFuture hPending, ← Multiset.singleton_add]
  abel

/-- Delivering it puts the reservation into the hand. -/
theorem total_deliver (hFuture : f < s.nextFuture) (hState : (s.futures f).state = .resolved o) :
    reservation o ::ₘ total (s.setFuture f (.delivered o), h) = total (s, h) := by
  simp only [total, ← ledger_deliver hFuture hState, ← Multiset.singleton_add]
  abel

/-- Cancelling it makes nothing and loses nothing. -/
theorem total_cancel (hFuture : f < s.nextFuture) (hPending : s.isPending f = true) :
    total (s.setFuture f .cancelled, h) = total (s, h) := by
  simp only [total, ledger_cancel hFuture hPending]

section Same

variable (s : State) (h : Multiset Holding)

@[simp] theorem total_addActive (o : WorkerRef) (n : Int) :
    total (s.addActive o n, h) = total (s, h) := rfl

@[simp] theorem total_setStatus (o : WorkerRef) (status : WorkerStatus) :
    total (s.setStatus o status, h) = total (s, h) := rfl

@[simp] theorem total_addCount (dev : Device) (n : Int) :
    total (s.addCount dev n, h) = total (s, h) := rfl

@[simp] theorem total_add_worker (worker_id : WorkerId) (dev : Device) (adapter_id : AdapterId) :
    total (s.add_worker cfg worker_id dev adapter_id, h) = total (s, h) := rfl

end Same

end Controller
