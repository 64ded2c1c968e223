import SwarmLoRA.Controller.Accounts

namespace Controller

open Machine State Holding

/-- The call of `_swap_worker_adapter` is in progress on the worker. -/
def Task.swaps (o : WorkerRef) : Task → Bool
  | .swapping _ p _ => p = o
  | _ => false

/-- A worker of the pool that is being stopped says so, and one that says it is swapping is
being swapped. -/
structure Lifecycle (s : State) : Prop where
  stopping : ∀ wid o, s.workers.lookup wid = some o → (s.procs o).asked_to_stop = true →
    (s.infos o).status = .stopping
  asked : ∀ o, (s.infos o).status = .stopping → (s.procs o).asked_to_stop = true
  swapping : ∀ o, (s.infos o).status = .swapping → ∃ task ∈ s.tasks, task.swaps o = true

/-- No status is written over that of a worker of the pool that is stopping, and a worker says
that it is swapping only during a swap that the load balancer has asked for. -/
def Timely (s : State) (l : Label) : Prop :=
  (∀ o ∈ s.overwrites l, s.workers.lookup (s.infos o).worker_id = some o →
      (s.infos o).status ≠ .stopping) ∧
    ∀ o ∈ s.reportsSwapping l, ∃ task ∈ s.tasks, task.swaps o = true

instance (s : State) (l : Label) : Decidable (Timely s l) :=
  inferInstanceAs (Decidable (_ ∧ _))

variable {cfg : Config} {s₀ s s' : State} {l : Label} {x y : Held} {o : WorkerRef}

theorem swaps_iff : (∃ task ∈ s.tasks, task.swaps o = true) ↔ swap o ∈ s.ledger := by
  refine ⟨?_, fun hMem => ?_⟩
  · rintro ⟨task, hTask, hSwaps⟩
    apply mem_ledger_of_task hTask
    cases task <;> simp_all [Task.swaps, Task.holds]
  · obtain ⟨caller, a, hTask⟩ := swapping_of_ledger hMem
    exact ⟨_, hTask, by simp [Task.swaps]⟩

/-- The property inside a step, where a swap may be in the hand of the running code. Between two
steps nothing is in hand, and it is the property itself. -/
structure Timed (x : Held) : Prop where
  stopping : ∀ wid o, x.1.workers.lookup wid = some o → (x.1.procs o).asked_to_stop = true →
    (x.1.infos o).status = .stopping
  asked : ∀ o, (x.1.infos o).status = .stopping → (x.1.procs o).asked_to_stop = true
  swapping : ∀ o, (x.1.infos o).status = .swapping → swap o ∈ total x

/-- An effect that writes no status. -/
theorem Timed.of_same (hTimed : Timed x)
    (hWorkers : ∀ wid o, y.1.workers.lookup wid = some o → x.1.workers.lookup wid = some o)
    (hStatus : ∀ o, (y.1.infos o).status = (x.1.infos o).status)
    (hAsked : ∀ o, (y.1.procs o).asked_to_stop = (x.1.procs o).asked_to_stop)
    (hSwaps : ∀ o, swap o ∈ total x → swap o ∈ total y) : Timed y := by
  refine ⟨fun wid o hLookup hStop => ?_, fun o hStatusStop => ?_, fun o hSwapping => ?_⟩
  · rw [hStatus]
    exact hTimed.stopping wid o (hWorkers wid o hLookup) (hAsked o ▸ hStop)
  · rw [hAsked]
    exact hTimed.asked o (hStatus o ▸ hStatusStop)
  · exact hSwaps o (hTimed.swapping o (hStatus o ▸ hSwapping))

/-- A status is written, and the swaps in progress are the old ones, but for the worker's own
and unless it is swapping. -/
theorem Timed.setStatus {h h' : Multiset Holding} {status : WorkerStatus} (hTimed : Timed (s, h))
    (hFree : ∀ wid, s.workers.lookup wid = some o → (s.procs o).asked_to_stop = false)
    (hStatus : status ≠ .stopping) (hOwn : status = .swapping → swap o ∈ total (s, h'))
    (hSwaps : ∀ p, p ≠ o → swap p ∈ total (s, h) → swap p ∈ total (s, h')) :
    Timed (s.setStatus o status, h') := by
  refine ⟨fun wid p hLookup hStop => ?_, fun p hStopping => ?_, fun p hSwapping => ?_⟩
  · have hOld := hTimed.stopping wid p hLookup hStop
    rw [status_setStatus]
    split
    next hp =>
      subst hp
      have hNot : (s.procs p).asked_to_stop = false := hFree wid hLookup
      exact absurd (hStop.symm.trans hNot) (by simp)
    next => exact hOld
  · rw [status_setStatus] at hStopping
    split at hStopping
    next => exact absurd hStopping hStatus
    next => exact hTimed.asked p hStopping
  · rw [total_setStatus]
    rw [status_setStatus] at hSwapping
    split at hSwapping
    next hp => exact hp ▸ hOwn hSwapping
    next hp => exact hSwaps p hp (hTimed.swapping p hSwapping)

/-- Whoever writes a status in time does not write over a stopping worker of the pool. -/
theorem Timed.free (hTimed : Timed x) (hStart : Timed (s₀, 0)) (hPool : PoolScoped s₀)
    (hGuard : Timely s₀ l)
    (hWrite : s₀.overwritesFrom l x.1 o ∨ (x.1.infos o).status ≠ .stopping) (wid : WorkerId)
    (hLookup : x.1.workers.lookup wid = some o) : (x.1.procs o).asked_to_stop = false := by
  apply Bool.eq_false_of_not_eq_true
  intro hAsked
  rcases hWrite with ⟨hOver, hWorkers, hProcs⟩ | hStatus
  · rw [hWorkers] at hLookup
    rw [hProcs] at hAsked
    have hId := (hPool wid o hLookup).2
    exact hGuard.1 o hOver (hId.symm ▸ hLookup) (hStart.stopping wid o hLookup hAsked)
  · exact hStatus (hTimed.stopping wid o hLookup hAsked)

section Effects

variable {h : Multiset Holding} {wid : WorkerId} {d : Device} {a : AdapterId}

/-- A new worker is starting, and nobody has asked it to stop. -/
theorem Timed.launch (hTimed : Timed (s, slot d ::ₘ h)) :
    Timed (s.add_worker cfg wid d a, h) := by
  have hOther : ∀ w p, w ≠ wid → (s.workers.insert wid s.nextRef).lookup w = some p →
      s.workers.lookup w = some p := fun w p hw hLookup => by
    rwa [AList.lookup_insert_ne hw] at hLookup
  refine ⟨fun w p hLookup hStop => ?_, fun p hStopping => ?_, fun p hSwapping => ?_⟩
  · by_cases hp : p = s.nextRef
    · simp [add_worker, hp] at hStop
    · simp only [add_worker, Function.update_of_ne hp] at hStop ⊢
      by_cases hw : w = wid
      · subst hw
        rw [show ((s.add_worker cfg w d a, h) : Held).1.workers.lookup w = some s.nextRef from
          AList.lookup_insert s.workers] at hLookup
        exact absurd (Option.some.inj hLookup).symm hp
      · exact hTimed.stopping w p (hOther w p hw hLookup) hStop
  · by_cases hp : p = s.nextRef
    · simp [add_worker, hp] at hStopping
    · simp only [add_worker, Function.update_of_ne hp] at hStopping ⊢
      exact hTimed.asked p hStopping
  · by_cases hp : p = s.nextRef
    · simp [add_worker, hp] at hSwapping
    · simp only [add_worker, Function.update_of_ne hp] at hSwapping
      simpa using hTimed.swapping p hSwapping

theorem Timed.pop (hTimed : Timed (s, h)) : Timed (s.pop_worker wid o, h) := by
  refine hTimed.of_same (fun w q hLookup => ?_) (fun _ => rfl) (fun _ => rfl) fun _ => id
  by_cases hw : w = wid
  · subst hw
    simp [pop_worker] at hLookup
  · simpa [pop_worker, AList.lookup_erase_ne hw] using hLookup

/-- A worker is asked to stop and says so at once. -/
theorem Timed.markStopping (hTimed : Timed (s, h)) : Timed (s.mark_stopping o, h) := by
  refine ⟨fun w p hLookup hStop => ?_, fun p hStopping => ?_, fun p hSwapping => ?_⟩
  · by_cases hp : p = o
    · simp [mark_stopping, hp]
    · simp only [mark_stopping, status_setStatus, Function.update_of_ne hp, if_neg hp] at hStop ⊢
      exact hTimed.stopping w p hLookup hStop
  · by_cases hp : p = o
    · simp [mark_stopping, hp]
    · simp only [mark_stopping, status_setStatus, Function.update_of_ne hp,
        if_neg hp] at hStopping ⊢
      exact hTimed.asked p hStopping
  · by_cases hp : p = o
    · simp [mark_stopping, hp] at hSwapping
    · simp only [mark_stopping, status_setStatus, if_neg hp] at hSwapping
      exact hTimed.swapping p hSwapping

theorem Timed.setAdapter (hTimed : Timed (s, h)) :
    Timed (s.setInfo o { s.infos o with adapter_id := a }, h) := by
  refine hTimed.of_same (fun _ _ => id) (fun p => ?_) (fun _ => rfl) fun _ => id
  rw [infos_setInfo]
  split
  next hp => rw [hp]
  next => rfl

theorem Timed.process {proc : Process} (hTimed : Timed (s, h))
    (hAsked : proc.asked_to_stop = (s.procs o).asked_to_stop) :
    Timed ({ s with procs := Function.update s.procs o proc }, h) := by
  refine hTimed.of_same (fun _ _ => id) (fun _ => rfl) (fun p => ?_) fun _ => id
  show (Function.update s.procs o proc p).asked_to_stop = (s.procs p).asked_to_stop
  rw [Function.update_apply]
  split
  next hp => rw [hAsked, hp]
  next => rfl

end Effects

/-- No effect that is in time breaks the property. -/
theorem Timed.effect (hTimed : Timed x) (hStart : Timed (s₀, 0)) (hPool : PoolScoped s₀)
    (hGuard : Timely s₀ l) (hEffect : Effect cfg s₀ l x y) : Timed y := by
  cases hEffect with
  | take hTask hHolds =>
      subst hHolds
      exact hTimed.of_same (fun _ _ => id) (fun _ => rfl) (fun _ => rfl) fun p hp => by
        rwa [total_take hTask]
  | put hHolds =>
      subst hHolds
      exact hTimed.of_same (fun _ _ => id) (fun _ => rfl) (fun _ => rfl) fun p hp => by
        rwa [total_put]
  | reserve =>
      exact hTimed.of_same (fun _ _ => id) (by simp) (fun _ => rfl) fun p hp => by simpa using hp
  | reserveTwice =>
      exact hTimed.of_same (fun _ _ => id) (by simp) (fun _ => rfl) fun p hp => by simpa using hp
  | release =>
      exact hTimed.of_same (fun _ _ => id) (by simp) (fun _ => rfl) fun p hp => by simpa using hp
  | queue =>
      exact hTimed.of_same (fun _ _ => id) (fun _ => rfl) (fun _ => rfl) fun p hp => by
        simpa [total_queue] using hp
  | requeue =>
      exact hTimed.of_same (fun _ _ => id) (fun _ => rfl) (fun _ => rfl) fun p hp => by
        rwa [total_requeue, ← total_cons]
  | dequeue hHead =>
      exact hTimed.of_same (fun _ _ => id) (fun _ => rfl) (fun _ => rfl) fun p hp => by
        rwa [total_cons, total_dequeue hHead]
  | resolve hWorker hFuture hPending =>
      exact hTimed.of_same (fun _ _ => id) (fun _ => rfl) (fun _ => rfl) fun p hp => by
        rwa [total_resolve hFuture hPending, ← total_cons]
  | deliver hFuture hResolved =>
      exact hTimed.of_same (fun _ _ => id) (fun _ => rfl) (fun _ => rfl) fun p hp => by
        rw [total_cons, total_deliver hFuture hResolved]
        simpa using hp
  | cancel hFuture hPending =>
      exact hTimed.of_same (fun _ _ => id) (fun _ => rfl) (fun _ => rfl) fun p hp => by
        rwa [total_cancel hFuture hPending]
  | launch => exact hTimed.launch
  | pop => exact hTimed.pop
  | @write s h o status hWorker hStatus hWrite =>
      exact hTimed.setStatus (hTimed.free hStart hPool hGuard hWrite) hStatus.2
        (fun hSwapping => absurd hSwapping hStatus.1) fun _ _ => id
  | markStopping => exact hTimed.markStopping
  | @beginSwap s h o hWorker hWrite =>
      refine hTimed.setStatus (hTimed.free hStart hPool hGuard hWrite) (by decide) (fun _ => ?_)
        fun p hp hMem => ?_
      · simp
      · simp [hMem]
  | @endSwap s h o hWorker hWrite =>
      refine hTimed.setStatus (hTimed.free hStart hPool hGuard (.inl hWrite)) (by decide)
        (by simp) fun p hp hMem => ?_
      simpa [hp] using hMem
  | @reportSwapping s h o hWorker hWrite hReports hLedger =>
      refine hTimed.setStatus (hTimed.free hStart hPool hGuard (.inl hWrite)) (by decide)
        (fun _ => ?_) fun _ _ => id
      rw [total, hLedger]
      exact swaps_iff.mp (hGuard.2 o hReports)
  | setAdapter => exact hTimed.setAdapter
  | process hWorker hPort hExited hAsked => exact hTimed.process hAsked
  | drop | notice | reserveSlot | releaseSlot | leakSlot =>
      exact hTimed.of_same (fun _ _ => id) (fun _ => rfl) (fun _ => rfl) fun p hp => by
        simpa using hp
  | _ => exact hTimed.of_same (fun _ _ => id) (fun _ => rfl) (fun _ => rfl) fun _ => id

/-- The statuses tell which workers are being stopped or swapped, as long as nothing is written over
the status of a worker that is stopping and no worker reports a swap that the load balancer has not
asked for. -/
theorem lifecycle_of_reach (run : (machine cfg).Reach Timely s) : Lifecycle s := by
  have hTimed : Timed (s, 0) := by
    refine run.invariant_of_effects (madeOf_effects Timely) Timed ?_ ?_
    · intro s hInitial
      refine ⟨fun wid o hLookup hStop => ?_, fun o hStopping => ?_, fun o hSwapping => ?_⟩
      · simp [hInitial.procs] at hStop
      · simp [hInitial.infos] at hStopping
      · simp [hInitial.infos] at hSwapping
    · intro s l x y prior hStart hGuard hOld hEffect
      exact hOld.effect hStart (scoped_of_reach prior).pool hGuard hEffect
  refine ⟨hTimed.stopping, hTimed.asked, fun o hSwapping => ?_⟩
  rw [swaps_iff, ← total_zero]
  exact hTimed.swapping o hSwapping

/-- The endpoint stops a worker of the pool, whose process goes on for a while. -/
theorem lifecycle_of_stop : ∃ s, (machine twoWorkers).Reach Timely s ∧
    s.workers.lookup 0 = some 0 ∧ (s.infos 0).status = .stopping ∧ Lifecycle s := by
  have hRun : ((machine twoWorkers).replayUnder Timely built
      (launched 0 (some "a") ++ [.stopEndpoint 0])).map
      (fun s => (s.workers.lookup 0, (s.infos 0).status)) = some (some 0, .stopping) := by
    decide +kernel
  obtain ⟨s, hReplay, hEnd⟩ := Option.map_eq_some_iff.mp hRun
  obtain ⟨hLookup, hStatus⟩ := Prod.mk.inj hEnd
  have run := System.reach_of_replayUnder (.start built_initial) hReplay
  exact ⟨s, run, hLookup, hStatus, lifecycle_of_reach run⟩

/-- A swap of the worker is in progress when the endpoint stops it, and when the swap ends the
worker is ready again while its process is shutting down. -/
theorem swap_revives_stopping : ∃ s, (machine twoWorkers).Reachable s ∧
    s.workers.lookup 0 = some 0 ∧ (s.procs 0).asked_to_stop = true ∧
    (s.infos 0).status = .ready ∧ ¬ Lifecycle s := by
  have hRun : ((machine twoWorkers).replay built
      (launched 0 (some "a") ++ [.request {} (some "b") 0, .stopEndpoint 0, .loads 0 0,
        .run 0 {} .succeeded])).map
      (fun s => (s.workers.lookup 0, (s.procs 0).asked_to_stop, (s.infos 0).status)) =
      some (some 0, true, .ready) := by decide +kernel
  obtain ⟨s, hReplay, hEnd⟩ := Option.map_eq_some_iff.mp hRun
  simp only [Prod.mk.injEq] at hEnd
  obtain ⟨hLookup, hAsked, hStatus⟩ := hEnd
  refine ⟨s, System.reachable_of_replay (.start built_initial) hReplay, hLookup, hAsked, hStatus, ?_⟩
  intro hLifecycle
  rw [hLifecycle.stopping 0 0 hLookup hAsked] at hStatus
  exact absurd hStatus (by decide)

end Controller
