import SwarmLoRA.Controller.Reservations

namespace Controller

open Machine State Holding

/-- The call of `_swap_and_resolve` is to give the request a worker. -/
def Task.resolves (f : FutureId) : Task → Bool
  | .swapNew (.resolve g) _ _ | .swapping (.resolve g) _ _ => g = f
  | _ => false

/-- A future is resolved at most once. -/
def Future.Sound (future : Future) : Prop :=
  match future.state with
  | .pending | .cancelled => future.results = []
  | .resolved o | .delivered o => future.results = [o]

namespace State

/-- Who is to give the queued request a worker: its entries and the swaps made for it. -/
def representatives (s : State) (f : FutureId) : Nat :=
  (s.pending_requests.countP fun pr => pr.future = f) + s.tasks.countP (Task.resolves f)

end State

variable {cfg : Config} {s₀ s : State} {l : Label} {x y : Held} {f : FutureId}

theorem count_holds_entry (task : Task) (f : FutureId) :
    task.holds.count (entry f) = if task.resolves f then 1 else 0 := by
  cases task with
  | swapNew caller p a =>
      cases caller <;> simp [Task.holds, SwapCaller.holds, Task.resolves,
        Multiset.count_singleton, eq_comm]
  | swapping caller p a =>
      cases caller <;> simp [Task.holds, SwapCaller.holds, Task.resolves,
        Multiset.count_singleton, eq_comm]
  | _ => simp [Task.holds, Task.resolves]

theorem count_entry (s : State) (f : FutureId) : s.ledger.count (entry f) = s.representatives f := by
  have hFutures : ∀ g, (s.futures g).state.holds.count (entry f) = 0 := by
    intro g
    cases (s.futures g).state <;> simp [FutureState.holds]
  have hQueue : (s.pending_requests.countP fun pr => entry pr.future = entry f) =
      s.pending_requests.countP fun pr => pr.future = f := by simp only [Holding.entry.injEq]
  rw [count_ledger, hQueue, Finset.sum_congr rfl fun g _ => hFutures g, Finset.sum_const_zero]
  simp only [count_holds_entry, sum_map_ite, representatives]
  omega

/-- An entry stands for a future that there is, and every future that is not done has one: in the
queue, or in the hand of the code that serves the queue. -/
structure Queued (x : Held) : Prop where
  made : ∀ f, entry f ∈ total x → f < x.1.nextFuture
  once : ∀ f < x.1.nextFuture, (x.1.futures f).state = .pending → (total x).count (entry f) = 1
  sound : ∀ f, (x.1.futures f).Sound

theorem Queued.effect (hQueued : Queued x) (hEffect : Effect cfg s₀ l x y) : Queued y := by
  refine ⟨fun f => ?_, fun f => ?_, fun f => ?_⟩
  · rw [← Multiset.count_pos]
    have hMade : 0 < (total x).count (entry f) → f < x.1.nextFuture :=
      fun hPos => hQueued.made f (Multiset.count_pos.mp hPos)
    intro hPos
    cases hEffect.progress f with
    | same hFuture hNext hEntry hWaiter => exact hNext.mp (hMade (hEntry ▸ hPos))
    | queued hNew hNext =>
        rw [hNext, hNew]
        exact Nat.lt_succ_self _
    | dropped hFuture hNext hDone hEntry =>
        rw [hNext]
        apply hMade
        omega
    | moved hNext hPending hFuture hEntry => exact hNext ▸ hMade (hEntry ▸ hPos)
    | resumed hNext hFuture hEntry => exact hNext ▸ hMade (hEntry ▸ hPos)
  · intro hLt hState
    cases hEffect.progress f with
    | same hFuture hNext hEntry hWaiter =>
        rw [hEntry]
        exact hQueued.once f (hNext.mpr hLt) (hFuture ▸ hState)
    | queued hNew hNext hFuture hEntry =>
        have hNone : (total x).count (entry f) = 0 := by
          rw [Multiset.count_eq_zero]
          exact fun hMem => (hQueued.made f hMem).ne hNew
        rw [hEntry, hNone]
    | dropped hFuture hNext hDone => exact absurd (hFuture ▸ hState) hDone
    | moved hNext hPending hFuture =>
        rcases hFuture with ⟨o, hFuture⟩ | hFuture <;> simp [hFuture] at hState
    | resumed hNext hFuture =>
        rcases hFuture with ⟨o, -, hFuture⟩ | ⟨hCancelled, hFuture⟩
        · simp [hFuture] at hState
        · simp [hFuture, hCancelled] at hState
  · have hSound := hQueued.sound f
    cases hEffect.progress f with
    | same hFuture => rwa [hFuture]
    | queued hNew hNext hFuture =>
        rw [hFuture]
        rfl
    | dropped hFuture => rwa [hFuture]
    | moved hNext hPending hFuture =>
        rw [Future.Sound, hPending] at hSound
        rcases hFuture with ⟨o, hFuture⟩ | hFuture <;> simp [Future.Sound, hFuture, hSound]
    | resumed hNext hFuture =>
        rcases hFuture with ⟨o, hResolved, hFuture⟩ | ⟨-, hFuture⟩
        · rw [Future.Sound, hResolved] at hSound
          simpa [Future.Sound, hFuture] using hSound
        · rwa [hFuture]

theorem queued_of_initial (hInitial : Initial s) : Queued (s, 0) := by
  refine ⟨fun f hMem => ?_, fun f hLt => ?_, fun f => ?_⟩
  · rw [total_zero, ledger_of_initial hInitial] at hMem
    simp at hMem
  · rw [show (s, (0 : Multiset Holding)).1.nextFuture = 0 from hInitial.nextFuture] at hLt
    exact absurd hLt (Nat.not_lt_zero f)
  · simp [Future.Sound, hInitial.futures]

theorem queued_of_reach {guard : State → Label → Prop} (run : (machine cfg).Reach guard s) :
    Queued (s, 0) :=
  run.invariant_of_effects (madeOf_effects _) Queued (fun _ => queued_of_initial)
    fun _ _ _ _ _ _ _ hOld hEffect => hOld.effect hEffect

/-- A request that has no worker yet is represented once, a future is resolved at most once,
and the reservations that go with the resolved ones are on the counters. A request leaves the
queue only with its future resolved or cancelled. -/
structure Dispatched (s : State) : Prop where
  once : ∀ f < s.nextFuture, (s.futures f).state = .pending → s.representatives f = 1
  sound : ∀ f < s.nextFuture, (s.futures f).Sound
  reserved : ∀ o, (s.reserved o + s.inflight o : Int) ≤ (s.infos o).active_requests
  carried : ∀ f < s.nextFuture, ∀ o, (s.futures f).state = .resolved o →
    0 < s.reserved o ∧ o < s.nextRef
  leaves : ∀ f < s.nextFuture, s.representatives f = 0 → (s.futures f).state ≠ .pending

/-- However the coroutines are interleaved and their calls turn out, a request that waits for a
worker is in one place and its future is resolved once at most, with a reservation that is on the
counter. No condition is put on the run. -/
theorem dispatched_of_reach (run : (machine cfg).Reachable s) : Dispatched s := by
  have hQueued : Queued (s, 0) := queued_of_reach run
  have hBooked : Made (s, 0) ∧ ∀ o, 0 ≤ surplus (s, 0) o := by
    refine run.invariant_of_effects (I := fun x => Made x ∧ ∀ o, 0 ≤ surplus x o)
      (madeOf_effects _) ?_ ?_
    · exact fun s hInitial => ⟨made_of_initial hInitial, fun o => (surplus_of_initial hInitial o).ge⟩
    · intro s l x y prior hStart hGuard hOld hEffect
      refine ⟨hOld.1.effect hEffect, fun o => ?_⟩
      have hLe := hOld.2 o
      rcases hEffect.surplus_cases hOld.1 o with hSame | hZero | ⟨hMore, -⟩ <;> omega
  have hOnce : ∀ f < s.nextFuture, (s.futures f).state = .pending → s.representatives f = 1 := by
    intro f hLt hPending
    rw [← count_entry, ← total_zero]
    exact hQueued.once f hLt hPending
  refine ⟨hOnce, fun f _ => hQueued.sound f, fun o => ?_, fun f hLt o hResolved => ?_,
    fun f hLt hNone hPending => ?_⟩
  · have hLe := hBooked.2 o
    rw [surplus, total_zero, count_reservation] at hLe
    show (_ : Int) ≤ (s.infos o).active_requests
    dsimp only at hLe
    omega
  · refine ⟨?_, (scoped_of_reach run).resolved f o hResolved⟩
    have hMem : f ∈ (Finset.range s.nextFuture).filter fun f => (s.futures f).state = .resolved o :=
      Finset.mem_filter.mpr ⟨Finset.mem_range.mpr hLt, hResolved⟩
    exact Nat.add_pos_right _ (Finset.card_pos.mpr ⟨f, hMem⟩)
  · rw [hOnce f hLt hPending] at hNone
    exact absurd hNone one_ne_zero

/-- A request is queued while the only worker is busy, the dispatcher has an adapter swapped
for it once the worker is free, the swap fails and the entry is back in the queue. -/
theorem dispatched_of_failed_swap : ∃ s, (machine { twoWorkers with max_workers := 1 }).Reachable s ∧
    (s.futures 0).state = .pending ∧ s.representatives 0 = 1 ∧ Dispatched s := by
  have hRun : ((machine { twoWorkers with max_workers := 1 }).replay built
      (launched 0 (some "a") ++ [.request {} (some "a") 0, .request {} (some "b") 0,
        .run 0 {} .succeeded, .dispatch (fun _ => false) (fun _ => false) (fun _ => 0),
        .run 1 {} .resumed, .run 1 {} .failed])).map
      (fun s => ((s.futures 0).state, s.representatives 0)) = some (.pending, 1) := by
    decide +kernel
  obtain ⟨s, hReplay, hEnd⟩ := Option.map_eq_some_iff.mp hRun
  obtain ⟨hPending, hOnce⟩ := Prod.mk.inj hEnd
  have run := System.reachable_of_replay (.start built_initial) hReplay
  exact ⟨s, run, hPending, hOnce, dispatched_of_reach run⟩

end Controller
