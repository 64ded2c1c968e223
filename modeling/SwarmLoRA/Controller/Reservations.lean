import SwarmLoRA.Controller.Accounts

namespace Controller

open Machine State Holding

variable {cfg : Config} {s₀ s : State} {l : Label} {x y : Held} {o : WorkerRef}

/-- Only workers that there are have been reserved. -/
def Made (x : Held) : Prop := ∀ o, reservation o ∈ total x → o < x.1.nextRef

theorem Made.effect (hMade : Made x) (hEffect : Effect cfg s₀ l x y) : Made y := by
  intro o hMem
  have hOld : o < x.1.nextRef := by
    cases hEffect.booking o with
    | reserved hWorker => exact hWorker
    | released hCount =>
        apply hMade
        rw [← Multiset.count_pos]
        omega
    | same hCount | reservedTwice hCount | launched hCount =>
        apply hMade
        rwa [← Multiset.count_pos, ← hCount, Multiset.count_pos]
  exact (hEffect.keeps hOld).1

/-- How far the counter of the worker is ahead of what is held of it. -/
def surplus (x : Held) (o : WorkerRef) : Int :=
  (x.1.infos o).active_requests - ((total x).count (reservation o) : Int)

/-- Only a retry makes the counter run ahead. -/
theorem Effect.surplus_cases (hEffect : Effect cfg s₀ l x y) (hMade : Made x) (o : WorkerRef) :
    surplus y o = surplus x o ∨ surplus y o = 0 ∨
      surplus y o = surplus x o + 1 ∧ s₀.retried l = some o := by
  unfold surplus
  cases hEffect.booking o with
  | same hCount hActive => omega
  | reserved hWorker hCount hActive => omega
  | released hCount hActive => omega
  | reservedTwice hCount hActive hRetried =>
      refine .inr (.inr ⟨?_, hRetried⟩)
      omega
  | launched hCount hActive hNew =>
      have hNone : (total x).count (reservation o) = 0 := by
        rw [Multiset.count_eq_zero]
        exact fun hMem => (hMade o hMem).ne hNew
      omega

/-- A queued request waits as long as its future is not done, and until it is resumed. -/
def Awaited (x : Held) : Prop :=
  ∀ f < x.1.nextFuture, ((x.1.futures f).state = .pending ∨ ∃ o, (x.1.futures f).state = .resolved o) →
    waiter f ∈ total x

theorem Awaited.effect (hAwaited : Awaited x) (hEffect : Effect cfg s₀ l x y) : Awaited y := by
  intro f hLt hState
  cases hEffect.progress f with
  | same hFuture hNext hEntry hWaiter =>
      rw [hFuture] at hState
      rw [← Multiset.count_pos, hWaiter, Multiset.count_pos]
      exact hAwaited f (hNext.mpr hLt) hState
  | queued hNew hNext hFuture hEntry hWaiter =>
      rw [← Multiset.count_pos]
      omega
  | dropped hFuture hNext hDone hEntry hWaiter =>
      rw [hFuture] at hState
      rw [← Multiset.count_pos, hWaiter, Multiset.count_pos]
      exact hAwaited f (hNext ▸ hLt) hState
  | moved hNext hPending hFuture hEntry hWaiter =>
      rw [← Multiset.count_pos, hWaiter, Multiset.count_pos]
      exact hAwaited f (hNext ▸ hLt) (.inl hPending)
  | resumed hNext hFuture =>
      rcases hFuture with ⟨o, -, hFuture⟩ | ⟨hCancelled, hFuture⟩
      · simp [hFuture] at hState
      · simp [hFuture, hCancelled] at hState

theorem made_of_initial (hInitial : Initial s) : Made (s, 0) := by
  intro o hMem
  rw [total_zero, ledger_of_initial hInitial] at hMem
  simp at hMem

theorem surplus_of_initial (hInitial : Initial s) (o : WorkerRef) : surplus (s, 0) o = 0 := by
  simp [surplus, total_zero, ledger_of_initial hInitial, hInitial.infos]

theorem awaited_of_reach {guard : State → Label → Prop} (run : (machine cfg).Reach guard s) :
    Awaited (s, 0) := by
  refine run.invariant_of_effects (madeOf_effects guard) Awaited (fun s hInitial f hLt => ?_)
    fun _ _ _ _ _ _ _ hOld hEffect => hOld.effect hEffect
  rw [show (s, (0 : Multiset Holding)).1.nextFuture = 0 from hInitial.nextFuture] at hLt
  exact absurd hLt (Nat.not_lt_zero f)

/-- No request that a coroutine has been given is resumed for its retry, which would add to
the counter once more. -/
def NoRetry (s : State) (l : Label) : Prop := s.retried l = none

instance (s : State) (l : Label) : Decidable (NoRetry s l) :=
  inferInstanceAs (Decidable (_ = none))

theorem surplus_of_reach (run : (machine cfg).Reach NoRetry s) :
    Made (s, 0) ∧ ∀ o, surplus (s, 0) o = 0 := by
  refine run.invariant_of_effects (I := fun x => Made x ∧ ∀ o, surplus x o = 0)
    (madeOf_effects NoRetry) ?_ ?_
  · exact fun s hInitial => ⟨made_of_initial hInitial, surplus_of_initial hInitial⟩
  · intro s l x y prior hStart hGuard hOld hEffect
    refine ⟨hOld.1.effect hEffect, fun o => ?_⟩
    rcases hEffect.surplus_cases hOld.1 o with hSame | hZero | ⟨-, hRetried⟩
    · exact hSame.trans (hOld.2 o)
    · exact hZero
    · rw [hGuard] at hRetried
      exact absurd hRetried (by simp)

/-- The counter of every worker counts the requests that have it, and is zero when no request
is being handled. -/
structure Conserved (s : State) : Prop where
  counted : ∀ o, (s.infos o).active_requests = s.reserved o + s.inflight o
  nonneg : ∀ o, 0 ≤ (s.infos o).active_requests
  idle : (∀ task ∈ s.tasks, task.handlesRequest = false) → ∀ o, (s.infos o).active_requests = 0

/-- What a reservation is for is a request that is being handled. -/
theorem requests_eq_zero (hAwaited : Awaited (s, 0))
    (hIdle : ∀ task ∈ s.tasks, task.handlesRequest = false) (o : WorkerRef) :
    s.reserved o = 0 ∧ s.inflight o = 0 := by
  have hReserves : s.tasks.countP (Task.reserves o) = 0 := by
    apply List.countP_eq_zero.mpr
    intro task hMem
    have hNo := hIdle task hMem
    cases task <;> simp_all [Task.handlesRequest, Task.reserves]
  have hInfers : s.tasks.countP (Task.infers o) = 0 := by
    apply List.countP_eq_zero.mpr
    intro task hMem
    have hNo := hIdle task hMem
    cases task <;> simp_all [Task.handlesRequest, Task.infers]
  have hFutures : (Finset.range s.nextFuture).filter
      (fun f => (s.futures f).state = .resolved o) = ∅ := by
    apply Finset.filter_eq_empty_iff.mpr
    intro f hf hResolved
    have hMem := hAwaited f (Finset.mem_range.mp hf) (.inr ⟨o, hResolved⟩)
    obtain ⟨a, retry, hWaiting⟩ := waiting_of_ledger (total_zero s ▸ hMem)
    exact absurd (hIdle _ hWaiting) (by simp [Task.handlesRequest])
  refine ⟨?_, hInfers⟩
  rw [reserved, hReserves, hFutures]
  rfl

/-- Without the retry of a request that could not reach its worker, every reservation is taken and
given back once: the counter of a worker counts the requests that have it. A retry adds one to the
counter of the worker that it gets, which has been counted by then. -/
theorem conserved_of_reach (run : (machine cfg).Reach NoRetry s) : Conserved s := by
  have hCounted : ∀ o, (s.infos o).active_requests = s.reserved o + s.inflight o := by
    intro o
    have hSurplus := (surplus_of_reach run).2 o
    rw [surplus, total_zero, count_reservation] at hSurplus
    show (s.infos o).active_requests = _
    dsimp only at hSurplus
    omega
  refine ⟨hCounted, fun o => ?_, fun hIdle o => ?_⟩
  · rw [hCounted o]
    omega
  · obtain ⟨hReserved, hInflight⟩ := requests_eq_zero (awaited_of_reach run) hIdle o
    rw [hCounted o, hReserved, hInflight]
    rfl

/-- A request is routed to the only worker and in flight there. -/
theorem conserved_of_request : ∃ s, (machine twoWorkers).Reach NoRetry s ∧
    (s.infos 0).active_requests = 1 ∧ Conserved s := by
  have hRun : ((machine twoWorkers).replayUnder NoRetry built
      (launched 0 (some "a") ++ [.request {} (some "a") 0])).map
      (fun s => (s.infos 0).active_requests) = some 1 := by decide +kernel
  obtain ⟨s, hReplay, hActive⟩ := Option.map_eq_some_iff.mp hRun
  have run := System.reach_of_replayUnder (.start built_initial) hReplay
  exact ⟨s, run, hActive, conserved_of_reach run⟩

/-- A request cannot reach its worker and is retried with another one. When it is through,
the counter of that one stays behind. -/
theorem retry_leaves_counter : ∃ s, (machine twoWorkers).Reachable s ∧ s.tasks = [] ∧
    (s.infos 1).active_requests = 1 ∧ ¬ Conserved s := by
  have hRun : ((machine twoWorkers).replay built
      (launched 0 (some "a") ++ launched 1 (some "a") ++ [.request {} (some "a") 0, .exits 0,
        .run 0 {} .connectFailed, .dispatch (fun _ => false) (fun _ => false) (fun _ => 1),
        .run 0 {} .resumed, .run 0 {} .succeeded])).map
      (fun s => (s.tasks, (s.infos 1).active_requests)) = some ([], 1) := by decide +kernel
  obtain ⟨s, hReplay, hEnd⟩ := Option.map_eq_some_iff.mp hRun
  obtain ⟨hTasks, hActive⟩ := Prod.mk.inj hEnd
  refine ⟨s, System.reachable_of_replay (.start built_initial) hReplay, hTasks, hActive, ?_⟩
  intro hConserved
  have hZero := hConserved.idle (by simp [hTasks]) 1
  rw [hActive] at hZero
  exact absurd hZero (by decide)

/-- No retry counts a worker twice, and a worker that a spawn hands over to a request has not
been given another one since it is ready. -/
def HandsOverIdle (s : State) (l : Label) : Prop :=
  NoRetry s l ∧ ∀ o ∈ s.handsOver l, (s.infos o).active_requests = 0

instance (s : State) (l : Label) : Decidable (HandsOverIdle s l) :=
  inferInstanceAs (Decidable (_ ∧ _))

/-- No worker has two requests: neither by its counter nor by the reservations and inference calls
that there are. -/
structure OneRequest (s : State) : Prop where
  counter : ∀ o, (s.infos o).active_requests ≤ 1
  requests : ∀ o, s.reserved o + s.inflight o ≤ 1

/-- No worker has two requests at a time, as long as no request is retried and a worker that a spawn
hands over to the request it was started for has not been given to another one meanwhile. -/
theorem one_request_of_reach (run : (machine cfg).Reach HandsOverIdle s) : OneRequest s := by
  have hCounter : ∀ o, (s.infos o).active_requests ≤ 1 := by
    refine run.invariant_of_effects
      (I := fun x => ∀ o, (x.1.infos o).active_requests ≤ 1) (madeOf_effects HandsOverIdle) ?_ ?_
    · intro s hInitial o
      simp [hInitial.infos]
    · intro s l x y prior hStart hGuard hOld hEffect o
      have hOldActive := hOld o
      cases hEffect.booking o with
      | same hCount hActive => omega
      | reserved hWorker hCount hActive hIdle =>
          rcases hIdle with hZero | ⟨hHands, hSame⟩
          · omega
          · have hNew := hGuard.2 o hHands
            omega
      | released hCount hActive => omega
      | reservedTwice hCount hActive hRetried =>
          rw [hGuard.1] at hRetried
          exact absurd hRetried (by simp)
      | launched hCount hActive => omega
  refine ⟨hCounter, fun o => ?_⟩
  have hRun : (machine cfg).Reach NoRetry s := run.transfer fun _ _ _ _ hGuard _ => hGuard.1
  have hLe := hCounter o
  rw [(conserved_of_reach hRun).counted o] at hLe
  omega

/-- A request has a worker spawned and is given it. -/
theorem one_request_of_spawn : ∃ s, (machine twoWorkers).Reach HandsOverIdle s ∧
    s.inflight 0 = 1 ∧ OneRequest s := by
  have hRun : ((machine twoWorkers).replayUnder HandsOverIdle built
      [.aggregatorReady "cuda:0", .request {} (some "a") 0, .listens 0, .initialized 0,
        .run 0 {} (.ready 0)]).map (fun s => s.inflight 0) = some 1 := by decide +kernel
  obtain ⟨s, hReplay, hInflight⟩ := Option.map_eq_some_iff.mp hRun
  have run := System.reach_of_replayUnder (.start built_initial) hReplay
  exact ⟨s, run, hInflight, one_request_of_reach run⟩

/-- A health check finds the new worker ready before the request that had it spawned does, and
the scheduler gives it to another request first. -/
theorem spawned_worker_has_two : ∃ s, (machine twoWorkers).Reachable s ∧
    s.inflight 0 = 2 ∧ ¬ OneRequest s := by
  have hRun : ((machine twoWorkers).replay built
      [.aggregatorReady "cuda:0", .request {} (some "a") 0, .listens 0, .initialized 0,
        .checkAll, .run 1 {} .healthReady, .request {} (some "b") 0,
        .loads 2 0, .run 2 {} .succeeded, .run 0 {} (.ready 0)]).map (fun s => s.inflight 0) = some 2 := by
    decide +kernel
  obtain ⟨s, hReplay, hInflight⟩ := Option.map_eq_some_iff.mp hRun
  refine ⟨s, System.reachable_of_replay (.start built_initial) hReplay, hInflight, ?_⟩
  intro hOne
  have hLe := hOne.requests 0
  omega

end Controller
