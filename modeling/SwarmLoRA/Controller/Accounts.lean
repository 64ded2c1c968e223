import Mathlib.Algebra.BigOperators.Group.Finset.Piecewise
import SwarmLoRA.Controller.Rounds

namespace Controller

open Machine State Holding

/-- The request waits for a swap of the worker, with a reservation of it. -/
def Task.reserves (o : WorkerRef) : Task → Bool
  | .swapNew caller p _ | .swapping caller p _ => caller ≠ .detached ∧ p = o
  | _ => false

/-- The call is an inference call in flight on the worker. -/
def Task.infers (o : WorkerRef) : Task → Bool
  | .inferring p _ _ => p = o
  | _ => false

/-- The coroutine is that of a request, or works for one. -/
def Task.handlesRequest : Task → Bool
  | .swapNew caller _ _ | .swapping caller _ _ => caller ≠ .detached
  | .spawnNew (.request _ _) | .ensuring (.request _ _) _ _ | .polling (some (.request _ _)) _ _
  | .retrySleep (.request _ _) | .stopping (.spawn (.request _ _)) _ | .waiting _ _ _
  | .inferring _ _ _ => true
  | _ => false

namespace State

/-- The requests that hold a reservation of the worker: those that wait for a swap of it, and
those that have been given it and not been resumed yet. -/
def reserved (s : State) (o : WorkerRef) : Nat :=
  s.tasks.countP (Task.reserves o) +
    ((Finset.range s.nextFuture).filter fun f => (s.futures f).state = .resolved o).card

def inflight (s : State) (o : WorkerRef) : Nat := s.tasks.countP (Task.infers o)

end State

variable {cfg : Config} {s₀ s s' : State} {l : Label} {h h' : Multiset Holding} {x y : Held}
  {o : WorkerRef}

theorem ledger_of_initial (hInitial : Initial s) : s.ledger = 0 := by
  simp [ledger, hInitial.tasks, hInitial.pending_requests, hInitial.nextFuture]

theorem count_holds_reservation (task : Task) (o : WorkerRef) :
    task.holds.count (reservation o) =
      (if task.reserves o then 1 else 0) + if task.infers o then 1 else 0 := by
  cases task with
  | swapNew caller p a =>
      cases caller <;> simp [Task.holds, SwapCaller.holds, Task.reserves, Task.infers,
        Multiset.count_cons, Multiset.count_singleton, eq_comm]
  | swapping caller p a =>
      cases caller <;> simp [Task.holds, SwapCaller.holds, Task.reserves, Task.infers,
        Multiset.count_cons, Multiset.count_singleton, eq_comm]
  | inferring p a retry =>
      simp [Task.holds, Task.reserves, Task.infers, Multiset.count_singleton, eq_comm]
  | _ => simp [Task.holds, Task.reserves, Task.infers]

theorem count_reservation (s : State) (o : WorkerRef) :
    s.ledger.count (reservation o) = s.reserved o + s.inflight o := by
  have hTasks : (s.tasks.map fun task => task.holds.count (reservation o)).sum =
      s.tasks.countP (Task.reserves o) + s.tasks.countP (Task.infers o) := by
    simp only [count_holds_reservation, List.sum_map_add, sum_map_ite]
  have hFutures : ∀ f, ((s.futures f).state.holds).count (reservation o) =
      if (s.futures f).state = .resolved o then 1 else 0 := by
    intro f
    cases (s.futures f).state <;> simp [FutureState.holds, Multiset.count_singleton, eq_comm]
  have hQueue : (s.pending_requests.countP fun pr => entry pr.future = reservation o) = 0 := by simp
  rw [count_ledger, hTasks, hQueue, reserved, inflight, Finset.card_filter,
    Finset.sum_congr rfl fun f _ => hFutures f]
  omega

theorem FutureState.holds_reservation {state : FutureState} {a : Holding} (hMem : a ∈ state.holds) :
    ∃ o, a = reservation o := by
  cases state <;> simp_all [FutureState.holds]

/-- A request waits for its future. -/
theorem waiting_of_ledger {f : FutureId} (hMem : waiter f ∈ s.ledger) :
    ∃ a retry, .waiting f a retry ∈ s.tasks := by
  rcases mem_ledger hMem with ⟨task, hTask, hHolds⟩ | ⟨pr, -, hEntry⟩ | ⟨g, -, hHolds⟩
  · cases task with
    | waiting g a retry =>
        simp only [Task.holds, Multiset.mem_singleton, Holding.waiter.injEq] at hHolds
        exact ⟨a, retry, hHolds ▸ hTask⟩
    | swapNew caller => cases caller <;> simp [Task.holds, SwapCaller.holds] at hHolds
    | swapping caller => cases caller <;> simp [Task.holds, SwapCaller.holds] at hHolds
    | _ => simp [Task.holds] at hHolds
  · simp at hEntry
  · obtain ⟨o, ho⟩ := FutureState.holds_reservation hHolds
    simp at ho

/-- Somebody is swapping the adapter of the worker. -/
theorem swapping_of_ledger (hMem : swap o ∈ s.ledger) :
    ∃ caller a, .swapping caller o a ∈ s.tasks := by
  rcases mem_ledger hMem with ⟨task, hTask, hHolds⟩ | ⟨pr, -, hEntry⟩ | ⟨g, -, hHolds⟩
  · cases task with
    | swapNew caller => cases caller <;> simp [Task.holds, SwapCaller.holds] at hHolds
    | swapping caller p a =>
        have hSame : o = p := by cases caller <;> simpa [Task.holds, SwapCaller.holds] using hHolds
        exact ⟨caller, a, hSame ▸ hTask⟩
    | _ => simp [Task.holds] at hHolds
  · simp at hEntry
  · obtain ⟨p, hp⟩ := FutureState.holds_reservation hHolds
    simp at hp

/-- What an effect does to the counter of a worker and to the reservations of it. All but the second
reservation of a retry keep the two in step. -/
inductive Booking (s₀ : State) (l : Label) (o : WorkerRef) (x y : Held) : Prop where
  | same (hCount : (total y).count (reservation o) = (total x).count (reservation o))
      (hActive : (y.1.infos o).active_requests = (x.1.infos o).active_requests)
  | reserved (hWorker : o < x.1.nextRef)
      (hCount : (total y).count (reservation o) = (total x).count (reservation o) + 1)
      (hActive : (y.1.infos o).active_requests = (x.1.infos o).active_requests + 1)
      (hIdle : (x.1.infos o).active_requests = 0 ∨ s₀.handsOver l = some o ∧
        (x.1.infos o).active_requests = (s₀.infos o).active_requests)
  | released (hCount : (total y).count (reservation o) + 1 = (total x).count (reservation o))
      (hActive : (y.1.infos o).active_requests = (x.1.infos o).active_requests - 1)
  | reservedTwice (hCount : (total y).count (reservation o) = (total x).count (reservation o))
      (hActive : (y.1.infos o).active_requests = (x.1.infos o).active_requests + 1)
      (hRetried : s₀.retried l = some o)
  | launched (hCount : (total y).count (reservation o) = (total x).count (reservation o))
      (hActive : (y.1.infos o).active_requests = 0) (hNew : o = x.1.nextRef)

/-- Reservations are made of workers that there are, and they change hands without being
lost or doubled. -/
theorem Effect.booking (hEffect : Effect cfg s₀ l x y) (p : WorkerRef) : Booking s₀ l p x y := by
  cases hEffect with
  | take hTask hHolds =>
      subst hHolds
      exact .same (by rw [total_take hTask]) rfl
  | put hHolds =>
      subst hHolds
      exact .same (by rw [total_put]) rfl
  | @reserve s h o hWorker hIdle =>
      by_cases hp : p = o
      · subst hp
        exact .reserved hWorker (by simp) (by simp) hIdle
      · exact .same (by simp [hp]) (by simp [hp])
  | @reserveTwice s h o hRetried =>
      by_cases hp : p = o
      · subst hp
        exact .reservedTwice rfl (by simp) hRetried
      · exact .same rfl (by simp [hp])
  | @release s h o =>
      by_cases hp : p = o
      · subst hp
        exact .released (by simp) (by simp [Int.sub_eq_add_neg])
      · exact .same (by simp [hp]) (by simp [hp])
  | queue => exact .same (by simp [total_queue]) rfl
  | requeue => exact .same (by rw [total_requeue, total_cons]) rfl
  | dequeue hHead => exact .same (by rw [total_cons, total_dequeue hHead]) rfl
  | drop => exact .same (by simp) rfl
  | resolve hWorker hFuture hPending =>
      exact .same (by rw [total_resolve hFuture hPending, total_cons]) rfl
  | deliver hFuture hResolved =>
      exact .same (by rw [total_cons, total_deliver hFuture hResolved]; simp) rfl
  | cancel hFuture hPending => exact .same (by rw [total_cancel hFuture hPending]) rfl
  | notice => exact .same (by simp) rfl
  | reserveSlot => exact .same (by simp) rfl
  | releaseSlot => exact .same (by simp) rfl
  | leakSlot => exact .same (by simp) rfl
  | @launch s h =>
      by_cases hp : p = s.nextRef
      · subst hp
        exact .launched (by simp) (by simp [add_worker]) rfl
      · exact .same (by simp) (by simp [add_worker, hp])
  | write => exact .same rfl (by simp)
  | markStopping => exact .same rfl (by simp [mark_stopping])
  | beginSwap => exact .same (by simp) (by simp)
  | endSwap => exact .same (by simp) (by simp)
  | reportSwapping => exact .same rfl (by simp)
  | @setAdapter s h o =>
      refine .same rfl ?_
      by_cases hp : p = o
      · subst hp
        simp [setInfo]
      · simp [setInfo, hp]
  | _ => exact .same rfl rfl

/-- What an effect does to a future, to the entries that stand for it and to the request that
waits for it. -/
inductive Progress (f : FutureId) (x y : Held) : Prop where
  | same (hFuture : y.1.futures f = x.1.futures f) (hNext : f < x.1.nextFuture ↔ f < y.1.nextFuture)
      (hEntry : (total y).count (entry f) = (total x).count (entry f))
      (hWaiter : (total y).count (waiter f) = (total x).count (waiter f))
  | queued (hNew : f = x.1.nextFuture) (hNext : y.1.nextFuture = x.1.nextFuture + 1)
      (hFuture : y.1.futures f = {})
      (hEntry : (total y).count (entry f) = (total x).count (entry f) + 1)
      (hWaiter : (total y).count (waiter f) = (total x).count (waiter f) + 1)
  | dropped (hFuture : y.1.futures f = x.1.futures f) (hNext : y.1.nextFuture = x.1.nextFuture)
      (hDone : (x.1.futures f).state ≠ .pending)
      (hEntry : (total y).count (entry f) + 1 = (total x).count (entry f))
      (hWaiter : (total y).count (waiter f) = (total x).count (waiter f))
  | moved (hNext : y.1.nextFuture = x.1.nextFuture)
      (hPending : (x.1.futures f).state = .pending)
      (hFuture : (∃ o, y.1.futures f = ⟨.resolved o, (x.1.futures f).results ++ [o]⟩) ∨
        y.1.futures f = ⟨.cancelled, (x.1.futures f).results⟩)
      (hEntry : (total y).count (entry f) = (total x).count (entry f))
      (hWaiter : (total y).count (waiter f) = (total x).count (waiter f))
  | resumed (hNext : y.1.nextFuture = x.1.nextFuture)
      (hFuture : (∃ o, (x.1.futures f).state = .resolved o ∧
          y.1.futures f = ⟨.delivered o, (x.1.futures f).results⟩) ∨
        (x.1.futures f).state = .cancelled ∧ y.1.futures f = x.1.futures f)
      (hEntry : (total y).count (entry f) = (total x).count (entry f))
      (hWaiter : (total y).count (waiter f) + 1 = (total x).count (waiter f))

theorem Effect.progress (hEffect : Effect cfg s₀ l x y) (g : FutureId) : Progress g x y := by
  cases hEffect with
  | take hTask hHolds =>
      subst hHolds
      exact .same rfl Iff.rfl (by rw [total_take hTask]) (by rw [total_take hTask])
  | put hHolds =>
      subst hHolds
      exact .same rfl Iff.rfl (by rw [total_put]) (by rw [total_put])
  | reserve => exact .same rfl Iff.rfl (by simp) (by simp)
  | reserveTwice => exact .same rfl Iff.rfl (by simp) (by simp)
  | release => exact .same rfl Iff.rfl (by simp) (by simp)
  | @queue s h a retry =>
      by_cases hg : g = s.nextFuture
      · subst hg
        exact .queued rfl rfl (by simp [wait_for_available_worker]) (by simp [total_queue])
          (by simp [total_queue])
      · refine .same (by simp [wait_for_available_worker, hg]) ?_ (by simp [total_queue, hg])
          (by simp [total_queue, hg])
        show g < s.nextFuture ↔ g < s.nextFuture + 1
        exact ⟨Nat.lt_succ_of_lt, fun hLt => Nat.lt_of_le_of_ne (Nat.lt_succ_iff.mp hLt) hg⟩
  | requeue => exact .same rfl Iff.rfl (by rw [total_requeue, total_cons]) (by rw [total_requeue, total_cons])
  | dequeue hHead =>
      exact .same rfl Iff.rfl (by rw [total_cons, total_dequeue hHead])
        (by rw [total_cons, total_dequeue hHead])
  | @drop s h f hDone =>
      by_cases hg : g = f
      · subst hg
        exact .dropped rfl rfl (by simpa [isPending] using hDone) (by simp) (by simp)
      · exact .same rfl Iff.rfl (by simp [hg]) (by simp)
  | @resolve s h f o hWorker hFuture hPending =>
      have hTotal : total (s.set_result f o, h) = total (s, reservation o ::ₘ h) := by
        rw [total_resolve hFuture hPending, total_cons]
      by_cases hg : g = f
      · subst hg
        exact .moved rfl (by simpa [isPending] using hPending)
          (.inl ⟨o, by simp [set_result]⟩) (by rw [hTotal]) (by rw [hTotal])
      · exact .same (by simp [set_result, hg]) Iff.rfl (by rw [hTotal]) (by rw [hTotal])
  | @deliver s h f o hFuture hResolved =>
      have hTotal : total (s.setFuture f (.delivered o), reservation o ::ₘ h) = total (s, h) := by
        rw [total_cons, total_deliver hFuture hResolved]
      by_cases hg : g = f
      · subst hg
        exact .resumed rfl (.inl ⟨o, hResolved, by simp [setFuture]⟩) (by simp [hTotal])
          (by simp [hTotal])
      · exact .same (by simp [setFuture, hg]) Iff.rfl (by simp [hTotal]) (by simp [hTotal, hg])
  | @cancel s h f hFuture hPending =>
      have hTotal := total_cancel (h := h) hFuture hPending
      by_cases hg : g = f
      · subst hg
        exact .moved rfl (by simpa [isPending] using hPending) (.inr (by simp [setFuture]))
          (by rw [hTotal]) (by rw [hTotal])
      · exact .same (by simp [setFuture, hg]) Iff.rfl (by rw [hTotal]) (by rw [hTotal])
  | @notice s h f hCancelled =>
      by_cases hg : g = f
      · subst hg
        exact .resumed rfl (.inr ⟨hCancelled, rfl⟩) (by simp) (by simp)
      · exact .same rfl Iff.rfl (by simp) (by simp [hg])
  | reserveSlot => exact .same rfl Iff.rfl (by simp) (by simp)
  | releaseSlot => exact .same rfl Iff.rfl (by simp) (by simp)
  | leakSlot => exact .same rfl Iff.rfl (by simp) (by simp)
  | launch => exact .same rfl Iff.rfl (by simp) (by simp)
  | beginSwap => exact .same rfl Iff.rfl (by simp) (by simp)
  | endSwap => exact .same rfl Iff.rfl (by simp) (by simp)
  | _ => exact .same rfl Iff.rfl rfl rfl

end Controller
