import SwarmLoRA.Controller.Faithful

namespace Controller

open Machine State

variable {cfg : Config} {s s' : State} {loaded : WorkerRef → AdapterId}
  {asked : FutureId → AdapterId} {o : WorkerRef} {a : AdapterId} {env : Env}

namespace Consistent

/-- A route without a swap is to a worker that has the adapter and keeps it. -/
theorem fit_of_route (h : Consistent loaded asked s) (hMatching : cfg.scheduler.Matching)
    {best_wid wid : WorkerId} {needs_spawn : Bool}
    (hDecide : s.decide_route cfg a best_wid = some (s', .route wid false needs_spawn, some o)) :
    Fit loaded s o a := by
  have hReady : o < s.nextRef ∧ (s.infos o).status = .ready := by
    rcases decide_route_cases h.sound.pool hDecide with
      ⟨p, _, _, _, hSame, -, -, hMade, -, hStatus⟩ | ⟨hNone, -⟩
    · obtain rfl := Option.some.inj hSame
      exact ⟨hMade, hStatus⟩
    · cases hNone
  refine h.sound.fit_of_ready hReady.1 hReady.2 ?_
  simp only [decide_route, Option.bind_eq_bind, Option.bind_eq_some_iff] at hDecide
  obtain ⟨decision, hRoute, hReserve⟩ := hDecide
  cases decision with
  | route wid' needs_swap needs_spawn' =>
      cases hLookup : s.workers.lookup wid' with
      | none => simp [hLookup] at hReserve
      | some p =>
          simp only [hLookup, Option.some.injEq, Prod.mk.injEq, RoutingDecision.route.injEq]
            at hReserve
          obtain ⟨-, ⟨rfl, rfl, rfl⟩, rfl⟩ := hReserve
          have hMem := hMatching _ _ _ _ _ _ _ hRoute
          obtain ⟨-, hStale | ⟨q, hOther, hLoaded⟩⟩ := h.recorded a wid' hMem
          · cases hStale
          · obtain rfl : q = p := Option.some.inj (hOther.symm.trans hLookup)
            exact hLoaded
  | _ => cases hReserve

/-- A request is routed to a worker that has its adapter, or one is made ready for it. -/
theorem route_request (h : Consistent loaded asked s) (hMatching : cfg.scheduler.Matching)
    {best_wid : WorkerId}
    (hVacant : ∀ p ∈ s.begun cfg (.request env a best_wid), s.vacant p.1 p.2)
    (hLoaded : loaded s.nextRef = (s'.procs s.nextRef).adapter_id)
    (hStep : s.route_request cfg env a best_wid = some s') :
    ∃ asked, Consistent loaded asked s' := by
  simp only [State.route_request, Option.bind_eq_bind, Option.bind_eq_some_iff] at hStep
  obtain ⟨⟨s₁, decision, worker⟩, hDecide, hRoute⟩ := hStep
  rcases decide_route_cases h.sound.pool hDecide with
    ⟨o, wid, needs_swap, needs_spawn, rfl, rfl, rfl, hMade, -, -⟩ | ⟨rfl, rfl, -⟩
  · have hReserved := h.addActive o 1
    cases needs_swap with
    | true =>
        obtain rfl := Option.some.inj hRoute
        have hBegun : (o, a) ∈ s.begun cfg (.request env a best_wid) := by
          simp [State.begun, State.resumed, hDecide]
        exact ⟨asked, hReserved.swap_worker_adapter hMade (by rintro f ⟨⟩) (hVacant _ hBegun)⟩
    | false =>
        obtain rfl := Option.some.inj hRoute
        have hFit := h.fit_of_route hMatching hDecide
        cases needs_spawn with
        | false => exact ⟨asked, hReserved.send_inference (hFit.of_same rfl rfl)⟩
        | true =>
            have hGrow : Consistent loaded asked
                ((s.addActive o 1).create_task (.spawnNew (.grow a))) :=
              hReserved.create_other (by rintro _ ⟨⟩) rfl rfl rfl
            have hFit : Fit loaded (s.addActive o 1) o a := hFit.of_same rfl rfl
            exact ⟨asked, hGrow.send_inference (hFit.create_task rfl)⟩
  · cases decision with
    | route wid needs_swap needs_spawn =>
        cases needs_swap <;> obtain rfl := Option.some.inj hRoute <;> exact ⟨asked, h⟩
    | spawn =>
        obtain rfl := Option.some.inj hRoute
        exact h.spawn_worker hLoaded
    | queue =>
        obtain rfl := Option.some.inj hRoute
        exact h.queue_request a
    | reject =>
        obtain rfl := Option.some.inj hRoute
        exact ⟨asked, h⟩

/-- A request that is cancelled asks for nothing. -/
theorem cancel (h : Consistent loaded asked s) (f : FutureId) :
    Consistent loaded asked (s.cancel f) := by
  have hSame : (s.cancel f).registry = s.registry ∧ (s.cancel f).workers = s.workers := by
    unfold State.cancel
    split <;> exact ⟨rfl, rfl⟩
  exact ⟨h.sound.cancel f, h.recorded.of_same hSame.1 hSame.2⟩

/-- Cancelling makes no future. -/
theorem nextFuture_cancel (s : State) (f : FutureId) : (s.cancel f).nextFuture = s.nextFuture := by
  unfold State.cancel
  split <;> rfl

/-- The entries that the pruning leaves ask for what they asked for. -/
theorem prune {expired : FutureId → Bool} {entries : List PendingRequest}
    (h : Consistent loaded asked s) :
    Consistent loaded asked (State.prune expired s entries).1 ∧
      (State.prune expired s entries).2 ⊆ entries ∧
      (State.prune expired s entries).1.nextFuture = s.nextFuture := by
  induction entries generalizing s with
  | nil => exact ⟨h, List.Subset.refl _, rfl⟩
  | cons pr rest ih =>
      unfold State.prune
      split
      next =>
        obtain ⟨hRest, hSub, hNext⟩ := ih (h.cancel pr.future)
        exact ⟨hRest, List.subset_cons_of_subset _ hSub,
          hNext.trans (nextFuture_cancel s pr.future)⟩
      next => exact ⟨h, List.Subset.refl _, rfl⟩

/-- One look of the dispatcher gives its request a worker that has the adapter. -/
theorem dispatch_one (h : Consistent loaded asked s) (hMatching : cfg.scheduler.Matching)
    {pr : PendingRequest} {expired keep : Bool} {best_wid : WorkerId}
    (hAsked : pr.future < s.nextFuture ∧ pr.adapter_id = asked pr.future)
    (hDispatch : s.dispatch_one cfg pr expired best_wid = some (s', keep)) :
    Consistent loaded asked s' ∧ s'.nextFuture = s.nextFuture := by
  unfold State.dispatch_one at hDispatch
  split at hDispatch
  next =>
    obtain ⟨rfl, rfl⟩ := Prod.mk.inj (Option.some.inj hDispatch)
    exact ⟨h.cancel pr.future, nextFuture_cancel s pr.future⟩
  next =>
    simp only [Option.bind_eq_bind, Option.bind_eq_some_iff] at hDispatch
    obtain ⟨⟨s₁, decision, worker⟩, hDecide, hRoute⟩ := hDispatch
    rcases decide_route_cases h.sound.pool hDecide with
      ⟨o, wid, needs_swap, needs_spawn, rfl, rfl, rfl, hMade, -, -⟩ | ⟨rfl, rfl, -⟩
    · have hReserved := h.addActive o 1
      cases needs_swap with
      | true =>
          obtain ⟨rfl, rfl⟩ := Prod.mk.inj (Option.some.inj hRoute)
          have hWorker : ∀ p ∈ (Task.swapNew (.resolve pr.future) o pr.adapter_id).worker,
              p < s.nextRef := by
            rintro _ ⟨⟩
            exact hMade
          have hFuture : ∀ p ∈ (Task.swapNew (.resolve pr.future) o pr.adapter_id).asked,
              p.1 < s.nextFuture ∧ p.2 = asked p.1 := by
            rintro _ ⟨⟩
            exact hAsked
          exact ⟨⟨hReserved.sound.create_task hWorker hFuture (by rintro _ ⟨⟩) rfl trivial,
            h.recorded.of_same rfl rfl⟩, rfl⟩
      | false =>
          simp only at hRoute
          have hFit := h.fit_of_route hMatching hDecide
          split at hRoute
          next =>
            obtain ⟨rfl, rfl⟩ := Prod.mk.inj (Option.some.inj hRoute)
            have hFit : Fit loaded (s.addActive o 1) o pr.adapter_id := hFit.of_same rfl rfl
            exact ⟨hReserved.set_result (hAsked.2 ▸ hFit), rfl⟩
          next =>
            obtain ⟨rfl, rfl⟩ := Prod.mk.inj (Option.some.inj hRoute)
            exact ⟨hReserved.addActive o (-1), rfl⟩
    · cases decision with
      | route wid needs_swap needs_spawn =>
          cases needs_swap <;> obtain ⟨rfl, rfl⟩ := Prod.mk.inj (Option.some.inj hRoute) <;>
            exact ⟨h, rfl⟩
      | spawn =>
          obtain ⟨rfl, rfl⟩ := Prod.mk.inj (Option.some.inj hRoute)
          exact ⟨h.spawn_for_dispatch _, rfl⟩
      | queue =>
          obtain ⟨rfl, rfl⟩ := Prod.mk.inj (Option.some.inj hRoute)
          exact ⟨h, rfl⟩
      | reject =>
          obtain ⟨rfl, rfl⟩ := Prod.mk.inj (Option.some.inj hRoute)
          exact ⟨h, rfl⟩

/-- So do the looks at all the entries. -/
theorem dispatch_all (h : Consistent loaded asked s) (hMatching : cfg.scheduler.Matching)
    {expired : FutureId → Bool} {best_wid : FutureId → WorkerId}
    {entries still_pending : List PendingRequest}
    (hAsked : ∀ pr ∈ entries, pr.future < s.nextFuture ∧ pr.adapter_id = asked pr.future)
    (hDispatch : State.dispatch_all cfg expired best_wid s entries = some (s', still_pending)) :
    Consistent loaded asked s' ∧ s'.nextFuture = s.nextFuture ∧ still_pending ⊆ entries := by
  induction entries generalizing s still_pending with
  | nil =>
      obtain ⟨rfl, rfl⟩ := Prod.mk.inj (Option.some.inj hDispatch)
      exact ⟨h, rfl, List.Subset.refl _⟩
  | cons pr rest ih =>
      simp only [State.dispatch_all, Option.bind_eq_bind, Option.bind_eq_some_iff] at hDispatch
      obtain ⟨⟨s₁, keep⟩, hOne, ⟨s₂, still⟩, hRest, hEnd⟩ := hDispatch
      obtain ⟨rfl, rfl⟩ := Prod.mk.inj (Option.some.inj hEnd)
      obtain ⟨hFirst, hOthers⟩ := List.forall_mem_cons.mp hAsked
      obtain ⟨h₁, hNext⟩ := h.dispatch_one hMatching hFirst hOne
      obtain ⟨h₂, hNext₂, hSub⟩ := ih h₁ (hNext ▸ hOthers) hRest
      refine ⟨h₂, hNext₂.trans hNext, ?_⟩
      split
      next => exact List.cons_subset_cons _ hSub
      next => exact List.subset_cons_of_subset _ hSub

/-- So does a round of the dispatcher. -/
theorem dispatch (h : Consistent loaded asked s) (hMatching : cfg.scheduler.Matching)
    {pruned expired : FutureId → Bool} {best_wid : FutureId → WorkerId}
    (hStep : s.dispatch cfg pruned expired best_wid = some s') : Consistent loaded asked s' := by
  obtain ⟨hPruned, hSub, hNext⟩ :
    Consistent loaded asked (State.prune pruned s s.pending_requests).1 ∧ _ := h.prune
  have hAsked : ∀ pr ∈ (State.prune pruned s s.pending_requests).2,
      pr.future < (State.prune pruned s s.pending_requests).1.nextFuture ∧
        pr.adapter_id = asked pr.future := by
    intro pr hMem
    rw [hNext]
    exact h.sound.queue pr (hSub hMem)
  simp only [State.dispatch, Option.bind_eq_bind, Option.bind_eq_some_iff] at hStep
  obtain ⟨⟨s₁, still_pending⟩, hAll, hEnd⟩ := hStep
  obtain rfl := Option.some.inj hEnd
  obtain ⟨h₁, hNext₁, hStill⟩ := hPruned.dispatch_all hMatching hAsked hAll
  refine ⟨h₁.sound.set_queue fun pr hMem => ?_, h₁.recorded.of_same rfl rfl⟩
  rw [hNext₁]
  exact hAsked pr (hStill hMem)

/-- The ids of the workers that the reaper takes out are still in the registry for a while. -/
theorem reap_loop (cfg : Config) {stale : List WorkerId} (hSound : Sound loaded asked s)
    (hRecorded : Recorded loaded stale s) (current_count : Nat) (worker_ids : List WorkerId) :
    let reaped := State.reap_loop cfg s current_count worker_ids
    Sound loaded asked reaped.1 ∧
      Recorded loaded (reaped.2.map (fun o => (s.infos o).worker_id) ++ stale) reaped.1 ∧
      (∀ o ∈ reaped.2, o < s.nextRef) ∧ reaped.1.nextRef = s.nextRef ∧
      ∀ o, (reaped.1.infos o).worker_id = (s.infos o).worker_id := by
  induction worker_ids generalizing s current_count stale with
  | nil => exact ⟨hSound, hRecorded, by simp [State.reap_loop], rfl, fun _ => rfl⟩
  | cons wid rest ih =>
      unfold State.reap_loop
      split
      next => exact ⟨hSound, hRecorded, by simp, rfl, fun _ => rfl⟩
      next =>
        split
        next => exact ih hSound hRecorded current_count
        next o hLookup =>
          split
          next => exact ih hSound hRecorded current_count
          next =>
            obtain ⟨hMade, hId⟩ := hSound.pool wid o hLookup
            have hMarked : Sound loaded asked (s.mark_stopping o) := by
              have hStatus : Sound loaded asked (s.setStatus o .stopping) :=
                hSound.setStatus (by rintro ⟨⟩)
              exact hStatus.alike ⟨rfl, fun _ => ⟨rfl, rfl, rfl⟩, rfl, rfl, rfl, rfl, rfl⟩
            have hKept : Recorded loaded stale (s.mark_stopping o) := hRecorded.of_same rfl rfl
            have hIds : ∀ p, (((s.mark_stopping o).pop_worker wid o).infos p).worker_id =
                (s.infos p).worker_id := fun p => worker_id_setStatus s o p .stopping
            obtain ⟨hLoop, hLeft, hRefs, hRef, hSame⟩ :=
              ih (hMarked.pop_worker wid o) hKept.pop_worker (current_count - 1)
            refine ⟨hLoop, hLeft.mono ?_, List.forall_mem_cons.mpr ⟨hMade, hRefs⟩, hRef,
              fun p => (hSame p).trans (hIds p)⟩
            intro w hw
            simp only [hIds, List.mem_append, List.mem_cons, List.map_cons, hId] at hw ⊢
            tauto

/-- Workers that are idle may be stopped. -/
theorem reap_idle_workers (h : Consistent loaded asked s) (worker_ids : List WorkerId) :
    Consistent loaded asked (s.reap_idle_workers cfg worker_ids) := by
  unfold State.reap_idle_workers
  split
  next => exact h
  next =>
    obtain ⟨hSound, hRecorded, hRefs, hRef, hSame⟩ :=
      reap_loop cfg h.sound h.recorded s.num_workers worker_ids
    simp only [← hSame, List.append_nil] at hRecorded
    rw [← hRef] at hRefs
    dsimp only
    generalize (State.reap_loop cfg s s.num_workers worker_ids).1 = s₁ at hSound hRecorded hRefs ⊢
    generalize (State.reap_loop cfg s s.num_workers worker_ids).2 = to_stop at hRecorded hRefs ⊢
    clear hSame hRef
    induction to_stop generalizing s₁ with
    | nil => exact ⟨hSound, hRecorded⟩
    | cons o rest ih =>
        obtain ⟨hMade, hRest⟩ := List.forall_mem_cons.mp hRefs
        have hOut : Sound loaded asked (s₁.unregister (s₁.infos o).worker_id) :=
          hSound.alike ⟨rfl, fun _ => ⟨rfl, rfl, rfl⟩, rfl, rfl, rfl, rfl, rfl⟩
        have hLeft : Recorded loaded (rest.map fun p => (s₁.infos p).worker_id)
            (s₁.unregister (s₁.infos o).worker_id) :=
          hRecorded.unregister fun w hw => List.mem_cons.mp hw
        have hTask : ∀ p ∈ (Task.stopping .process o).worker, p < s₁.nextRef := by
          rintro _ ⟨⟩
          exact hMade
        rw [List.foldl_cons]
        exact ih _ (hOut.create_other hTask rfl rfl rfl) (hLeft.of_same rfl rfl) hRest

/-- Idle workers may be swapped. -/
theorem rebalance (h : Consistent loaded asked s) (rebalances : List (WorkerId × AdapterId)) :
    Consistent loaded asked (s.rebalance rebalances) := by
  unfold State.rebalance
  induction rebalances generalizing s with
  | nil => exact h
  | cons r rest ih =>
      rw [List.foldl_cons]
      split
      next o hLookup =>
        split
        next =>
          have hTask : ∀ p ∈ (Task.swapNew .detached o r.2).worker, p < s.nextRef := by
            rintro _ ⟨⟩
            exact (h.sound.pool r.1 o hLookup).1
          exact ih (h.create_other hTask rfl rfl rfl)
        next => exact ih h
      next => exact ih h

/-- A worker may be launched for the adapter of an operator's call. -/
theorem prewarm (h : Consistent loaded asked s) {device : Option Device}
    (hLoaded : loaded s.nextRef = (s'.procs s.nextRef).adapter_id)
    (hStep : s.prewarm cfg device a = some s') : Consistent loaded asked s' := by
  simp only [State.prewarm, Option.bind_eq_bind, Option.bind_eq_some_iff] at hStep
  obtain ⟨worker_id, hNext, dev, -, hEnd⟩ := hStep
  obtain rfl := Option.some.inj hEnd
  have hFree := (next_worker_id_spec hNext).1
  have hAdapter : loaded s.nextRef = a := by
    simpa [State.add_worker, State.addCount, State.create_task] using hLoaded
  have hAdded : Consistent loaded asked
      ((s.add_worker cfg worker_id dev a).create_task (.polling none s.nextRef a)) :=
    h.add_worker hFree hAdapter trivial
  exact hAdded.alike ⟨rfl, fun _ => ⟨rfl, rfl, rfl⟩, rfl, rfl, rfl, rfl, rfl⟩ rfl

/-- No swap but the one that ends is under way on the worker. -/
theorem alone (h : Consistent loaded asked s) {i : Nat} {caller : SwapCaller}
    (hTask : s.tasks[i]? = some (.swapping caller o a)) :
    ∀ task ∈ s.tasks.eraseIdx i, ∀ p ∈ task.target, p.1 ≠ o := by
  intro task hMem p hp hSame
  obtain ⟨hLt, hGet⟩ := List.getElem?_eq_some_iff.mp hTask
  have hPerm := (List.getElem_cons_eraseIdx_perm hLt).filterMap fun task => task.target.map Prod.fst
  have hOnce := hPerm.nodup_iff.mpr h.sound.once
  rw [hGet] at hOnce
  refine (List.nodup_cons.mp hOnce).1 (List.mem_filterMap.mpr ⟨task, hMem, ?_⟩)
  exact Option.map_eq_some_iff.mpr ⟨p, hp, hSame⟩

/-- A worker may be revived if nothing is about to load another adapter into it. -/
theorem health_ready (h : Consistent loaded asked s) (hMade : o < s.nextRef)
    (hRevived : (s.infos o).status = .unhealthy ∨ (s.infos o).status = .starting →
      ∀ task ∈ s.tasks, ∀ p ∈ task.target, p.1 = o → loaded p.1 = p.2) :
    Consistent loaded asked
      ((if (s.infos o).status = .unhealthy ∨ (s.infos o).status = .starting then
        s.setStatus o .ready else s).create_task (.adapterInfo o)) := by
  have hWorker : ∀ p ∈ (Task.adapterInfo o).worker, p < s.nextRef := by
    rintro _ ⟨⟩
    exact hMade
  split
  next hStatus => exact (h.setStatus fun _ => hRevived hStatus).create_other hWorker rfl rfl rfl
  next => exact h.create_other hWorker rfl rfl rfl

/-- A worker that fails its health check is removed, or no longer ready. -/
theorem handle_worker_failure (h : Consistent loaded asked s) :
    Consistent loaded asked (s.handle_worker_failure o) := by
  unfold State.handle_worker_failure
  split
  next => exact h.remove_worker _
  next => exact h.setStatus (by rintro ⟨⟩)

/-- A worker of the pool may report the adapter that it has loaded. -/
theorem update_worker_adapter_info (h : Consistent loaded asked s) (hMade : o < s.nextRef)
    (hReport : named a → loaded o = a ∧ s.workers.lookup (s.infos o).worker_id = some o)
    (is_swapping : Bool) :
    Consistent loaded asked (s.update_worker_adapter_info o a is_swapping) := by
  have hReported : Consistent loaded asked (s.report_adapter o a) := h.report_adapter hMade hReport
  unfold State.update_worker_adapter_info
  dsimp only
  split
  next => exact hReported.setStatus (by rintro ⟨⟩)
  next => exact hReported

/-- Every coroutine but a swap that comes back with success. -/
theorem resume (h : Consistent loaded asked s) {i : Nat} {task : Task} {outcome : Outcome}
    (hTask : s.tasks[i]? = some task)
    (hBegun : ∀ p ∈ s.begun cfg (.run i env outcome), s.vacant p.1 p.2)
    (hRevived : ∀ o ∈ s.revived (.run i env outcome), ∀ task ∈ s.tasks, ∀ p ∈ task.target,
      p.1 = o → loaded p.1 = p.2)
    (hRegisters : ∀ p ∈ s.registers (.run i env outcome),
      s.workers.lookup (s.infos p.1).worker_id = some p.1 ∧ named p.2)
    (hReported : ∀ p ∈ s.reported (.run i env outcome), loaded p.1 = p.2)
    (hSwapped : s.swapped (.run i env outcome) = none)
    (hLoaded : loaded s.nextRef = (s'.procs s.nextRef).adapter_id)
    (hStep : { s with tasks := s.tasks.eraseIdx i }.resume cfg env task outcome = some s') :
    ∃ asked, Consistent loaded asked s' := by
  have hMem : task ∈ s.tasks := List.mem_of_getElem? hTask
  have hSub : s.tasks.eraseIdx i ⊆ s.tasks := List.eraseIdx_subset
  have hMade := h.sound.worker task hMem
  have hAsks := h.sound.asks task hMem
  have hResumed : s.resumed (.run i env outcome) = some (task, outcome) := by
    simp [resumed, hTask]
  have hFit : ∀ o a, (o, a) ∈ task.assigned s.futures →
      Fit loaded { s with tasks := s.tasks.eraseIdx i } o a :=
    fun o a hp => (h.sound.fit hMem hp).of_subset hSub
  have h₁ := h.of_erase i
  cases resumes_of_resume hStep with
  | @swap caller o a =>
      refine ⟨asked, h₁.swap_worker_adapter (hMade o rfl) ?_ ?_⟩
      · rintro f rfl
        exact hAsks (f, a) rfl
      · have hVacant := hBegun (o, a) (by simp [begun, hResumed])
        exact fun t ht => hVacant t (hSub ht)
  | swapped => simp [State.swapped, hResumed] at hSwapped
  | @swapFailed caller o a =>
      refine h₁.swap_failed (h.alone hTask) ?_ hLoaded
      rintro f rfl
      exact hAsks (f, a) rfl
  | spawn | retry => exact h₁.spawn_worker hLoaded
  | ensured => exact (h₁.aggregator_known _).aggregator_ensured hLoaded
  | @notEnsured caller worker_id device =>
      exact (h₁.addCount device (-1)).spawn_returned_none caller
  | @raised caller worker_id device => exact ⟨asked, h₁.spawn_raised caller⟩
  | @ready caller o a p hAnswers hInitialized =>
      obtain ⟨hLookup, hNamed⟩ := hRegisters (o, a) (by simp [registers, hResumed])
      exact ⟨asked, h₁.worker_ready (hFit o a rfl) (h.sound.polls _ hMem) hLookup hNamed⟩
  | @notReady caller o a => exact ⟨asked, h₁.stop_worker (hMade o rfl)⟩
  | @stopped caller o hExited => exact h₁.stopped caller
  | @available f a retry o hState =>
      have hAssigned : (o, a) ∈ (Task.waiting f a retry).assigned s.futures := by
        have hOld : (s.futures f).state = .resolved o := hState
        simp [Task.assigned, hOld]
      exact ⟨asked, h₁.worker_available (hFit o a hAssigned)⟩
  | @answered o a retry outcome hOutcome => exact h₁.inference_returned (hFit o a rfl) false
  | @unreached o a retry => exact h₁.inference_returned (hFit o a rfl) true
  | @healthReady o =>
      refine ⟨asked, h₁.health_ready (hMade o rfl) fun hStatus t ht => ?_⟩
      have hRevives : o ∈ s.revived (.run i env .healthReady) := by
        rw [revived, hResumed]
        exact if_pos hStatus
      exact hRevived o hRevives t (hSub ht)
  | @healthUnready o =>
      split
      next => exact ⟨asked, h₁.setStatus (by rintro ⟨⟩)⟩
      next => exact ⟨asked, h₁⟩
  | @healthOther o => exact ⟨asked, h₁.setStatus (by rintro ⟨⟩)⟩
  | failure => exact ⟨asked, h₁.handle_worker_failure⟩
  | @info o a is_swapping =>
      refine ⟨asked, h₁.update_worker_adapter_info (hMade o rfl) (fun hNamed => ?_) is_swapping⟩
      have hReports : (o, a) ∈ s.reported (.run i env (.adapterInfo a is_swapping)) := by
        simp [reported, hResumed, hNamed]
      have hRegisters' : (o, a) ∈ s.registers (.run i env (.adapterInfo a is_swapping)) := by
        simp [registers, State.swapped, reported, hResumed, hNamed]
      exact ⟨hReported _ hReports, (hRegisters _ hRegisters').1⟩
  | cancelledEnsuring | cancelledPolling | cancelledStopping | prewarmFailed | expired | noInfo =>
      exact ⟨asked, h₁⟩

/-- All requests may be cancelled. -/
theorem cancel_all (h : Consistent loaded asked s) (entries : List PendingRequest) :
    Consistent loaded asked (entries.foldl (fun s pr => s.cancel pr.future) s) := by
  induction entries generalizing s with
  | nil => exact h
  | cons pr rest ih => exact ih (h.cancel pr.future)

/-- Every step but the end of a successful swap. -/
theorem step (h : Consistent loaded asked s) {l : Label} (hMatching : cfg.scheduler.Matching)
    (hBegun : ∀ p ∈ s.begun cfg l, s.vacant p.1 p.2)
    (hRevived : ∀ o ∈ s.revived l, ∀ task ∈ s.tasks, ∀ p ∈ task.target, p.1 = o → loaded p.1 = p.2)
    (hRegisters : ∀ p ∈ s.registers l,
      s.workers.lookup (s.infos p.1).worker_id = some p.1 ∧ named p.2)
    (hReported : ∀ p ∈ s.reported l, loaded p.1 = p.2) (hSwapped : s.swapped l = none)
    (hLoaded : loaded s.nextRef = (s'.procs s.nextRef).adapter_id)
    (hStep : Controller.step cfg s l = some s') : ∃ asked, Consistent loaded asked s' := by
  cases l with
  | request env a best_wid => exact h.route_request hMatching hBegun hLoaded hStep
  | run i env outcome =>
      simp only [Controller.step] at hStep
      split at hStep
      next task hTask =>
        exact h.resume hTask hBegun hRevived hRegisters hReported hSwapped hLoaded hStep
      next => cases hStep
  | timeout i =>
      simp only [Controller.step] at hStep
      split at hStep
      next f a retry hTask =>
        simp only [Option.ite_none_right_eq_some, Option.some.injEq] at hStep
        obtain ⟨-, rfl⟩ := hStep
        exact ⟨asked, h.sound.setFuture (by simp), h.recorded.of_same rfl rfl⟩
      next => cases hStep
  | dispatch pruned expired best_wid => exact ⟨asked, h.dispatch hMatching hStep⟩
  | checkAll =>
      simp only [Controller.step, Option.ite_none_left_eq_some, Option.some.injEq] at hStep
      obtain ⟨-, rfl⟩ := hStep
      refine ⟨asked, h.sound.create_others fun task hTask => ?_, h.recorded.of_same rfl rfl⟩
      obtain ⟨entry, hEntry, rfl⟩ := List.mem_map.mp hTask
      refine ⟨?_, rfl, fun _ => rfl, rfl⟩
      rintro _ ⟨⟩
      exact (h.sound.pool entry.1 entry.2 (AList.mem_lookup_iff.mpr hEntry)).1
  | reap worker_ids =>
      obtain rfl := Option.some.inj hStep
      exact ⟨asked, h.reap_idle_workers worker_ids⟩
  | proactive rebalances spawns =>
      simp only [Controller.step, Option.ite_none_right_eq_some, Option.some.injEq] at hStep
      obtain ⟨-, rfl⟩ := hStep
      exact ⟨asked, (h.rebalance rebalances).spawn_for_dispatch spawns⟩
  | swapEndpoint worker_id a =>
      obtain ⟨o, hLookup, rfl⟩ := Option.map_eq_some_iff.mp hStep
      have hVacant := hBegun (o, a) (by simp [begun, resumed, hLookup])
      exact ⟨asked, h.swap_worker_adapter (h.sound.pool worker_id o hLookup).1 (by rintro f ⟨⟩)
        hVacant⟩
  | spawnEndpoint env a initial =>
      obtain rfl := Option.some.inj hStep
      exact h.spawn_worker hLoaded
  | stopEndpoint worker_id =>
      obtain ⟨o, hLookup, rfl⟩ := Option.map_eq_some_iff.mp hStep
      exact ⟨asked, h.stop_worker (h.sound.pool worker_id o hLookup).1⟩
  | prewarm device a => exact ⟨asked, h.prewarm hLoaded hStep⟩
  | cancelPending =>
      obtain rfl := Option.some.inj hStep
      have hAll := h.cancel_all s.pending_requests
      exact ⟨asked, hAll.sound.set_queue (by simp), hAll.recorded.of_same rfl rfl⟩
  | aggregatorReady device =>
      obtain rfl := Option.some.inj hStep
      exact ⟨asked, h.aggregator_known _⟩
  | listens o =>
      simp only [Controller.step, Option.ite_none_right_eq_some, Option.some.injEq] at hStep
      obtain ⟨-, rfl⟩ := hStep
      exact ⟨asked, h.set_process _⟩
  | initialized o =>
      simp only [Controller.step, Option.ite_none_right_eq_some, Option.some.injEq] at hStep
      obtain ⟨-, rfl⟩ := hStep
      exact ⟨asked, h.set_process _⟩
  | loads i o =>
      simp only [Controller.step] at hStep
      split at hStep
      next caller w a hTask =>
        simp only [Option.ite_none_right_eq_some, Option.some.injEq] at hStep
        obtain ⟨-, rfl⟩ := hStep
        exact ⟨asked, h.set_process _⟩
      next => cases hStep
  | exits o =>
      simp only [Controller.step, Option.ite_none_right_eq_some, Option.some.injEq] at hStep
      obtain ⟨-, rfl⟩ := hStep
      exact ⟨asked, h.set_process _⟩

/-- A swap that comes back with success, where `loaded'` has its adapter. -/
theorem swap_resumed (h : Consistent loaded asked s) {i : Nat} {caller : SwapCaller}
    {loaded' : WorkerRef → AdapterId} (hTask : s.tasks[i]? = some (.swapping caller o a))
    (hLookup : s.workers.lookup (s.infos o).worker_id = some o) (hNamed : named a)
    (hLoaded : ∀ p < s.nextRef, loaded' p = if p = o then a else loaded p) :
    Consistent loaded' asked ({ s with tasks := s.tasks.eraseIdx i }.swap_succeeded o a caller) := by
  have hMem : .swapping caller o a ∈ s.tasks := List.mem_of_getElem? hTask
  have hSub : s.tasks.eraseIdx i ⊆ s.tasks := List.eraseIdx_subset
  have hMade : o < s.nextRef := h.sound.worker _ hMem o rfl
  have hSelf : loaded' o = a := (hLoaded o hMade).trans (if_pos rfl)
  have hAlone := h.alone hTask
  have h₁ := h.of_erase i
  have hAssigned : ∀ task ∈ s.tasks.eraseIdx i, ∀ p ∈ task.assigned s.futures, p.1 = o → p.2 = a := by
    rintro task ht p hp rfl
    rw [← h.sound.assigned task (hSub ht) p hp]
    exact h.sound.target _ hMem (p.1, a) rfl (.inr ⟨task, hSub ht, p, hp, rfl⟩)
  have hSound := (h₁.sound.loads hAlone hAssigned).congr fun p hp => (hLoaded p hp).symm
  have hFitted : Fit loaded' { s with tasks := s.tasks.eraseIdx i } o a :=
    ⟨hMade, hSelf, fun task ht p hp hSame => absurd hSame (hAlone task ht p hp)⟩
  have hOthers : ∀ w p, w ≠ (s.infos o).worker_id → s.workers.lookup w = some p →
      loaded p = loaded' p := by
    intro w p hw hOther
    obtain ⟨hp, hId⟩ := h.sound.pool w p hOther
    have hNe : p ≠ o := by
      rintro rfl
      exact hw hId.symm
    rw [hLoaded p hp, if_neg hNe]
  have hRecorded := h₁.recorded.register hLookup hOthers hSelf hNamed
  have hId : (({ s with tasks := s.tasks.eraseIdx i }.setInfo o
      { s.infos o with adapter_id := a }).infos o).worker_id = (s.infos o).worker_id := by
    rw [infos_setInfo, if_pos rfl]
  have hSwapped : Consistent loaded' asked
      ({ s with tasks := s.tasks.eraseIdx i }.adapter_swapped o a) := by
    unfold State.adapter_swapped
    dsimp only
    rw [hId]
    refine ⟨Sound.setStatus (hSound.alike ?_) ?_, hRecorded.of_same rfl rfl⟩
    · exact ⟨rfl, fun _ => ⟨rfl, rfl, rfl⟩, rfl, rfl, rfl, rfl, rfl⟩
    · exact fun _ task ht p hp hSame => absurd hSame (hAlone task ht p hp)
  refine hSwapped.swap_succeeded (hFitted.of_same rfl rfl) ?_
  rintro f rfl
  exact (h.sound.asks _ hMem (f, a) rfl).2

end Consistent

namespace Fleet

variable {fleet : Fleet} {l : Label}

/-- What the workers have loaded after a step. -/
theorem load_of_lt (hMade : o < fleet.balancer.nextRef) :
    fleet.load l s' o = match fleet.balancer.swapped l with
      | some p => if o = p.1 then p.2 else fleet.loaded o
      | none => fleet.loaded o :=
  if_pos hMade

/-- A new worker has loaded the adapter of its process. -/
theorem load_new : fleet.load l s' fleet.balancer.nextRef =
    (s'.procs fleet.balancer.nextRef).adapter_id :=
  if_neg (Nat.lt_irrefl _)

/-- The task that is resumed is one of the tasks. -/
theorem mem_of_resumed {task : Task} {outcome : Outcome} (hResumed : s.resumed l = some (task, outcome)) :
    task ∈ s.tasks := by
  cases l with
  | run i env outcome' =>
      obtain ⟨t, hTask, hSame⟩ := Option.map_eq_some_iff.mp hResumed
      obtain ⟨rfl, -⟩ := Prod.mk.inj hSame
      exact List.mem_of_getElem? hTask
  | _ => cases hResumed

/-- A swap that has succeeded registers its adapter. -/
theorem registers_of_swapped {p : WorkerRef × AdapterId} (hSwapped : s.swapped l = some p) :
    s.registers l = some p := by
  unfold State.registers
  split
  next hResumed => simp [State.swapped, hResumed] at hSwapped
  next => rw [hSwapped]; rfl

/-- It is a task that comes back with success. -/
theorem of_swapped {p : WorkerRef × AdapterId} (hSwapped : s.swapped l = some p) :
    ∃ i env caller, s.tasks[i]? = some (.swapping caller p.1 p.2) ∧ l = .run i env .succeeded := by
  unfold State.swapped at hSwapped
  split at hSwapped
  next caller o a hResumed =>
    cases hSwapped
    cases l with
    | run i env outcome =>
        obtain ⟨task, hTask, hSame⟩ := Option.map_eq_some_iff.mp hResumed
        obtain ⟨rfl, rfl⟩ := Prod.mk.inj hSame
        exact ⟨i, env, caller, hTask, rfl⟩
    | _ => cases hResumed
  next => cases hSwapped

/-- The worker that reports exists. -/
theorem reported_made {p : WorkerRef × AdapterId} (h : Sound loaded asked s)
    (hReported : p ∈ s.reported l) : p.1 < s.nextRef := by
  unfold State.reported at hReported
  cases hResumed : s.resumed l with
  | none => simp [hResumed] at hReported
  | some resumed =>
      rw [hResumed] at hReported
      split at hReported
      next o a is_swapping hSame =>
        obtain rfl := Option.some.inj hSame
        split at hReported
        next =>
          cases hReported
          exact h.worker _ (mem_of_resumed hResumed) o rfl
        next => cases hReported
      next => cases hReported

/-- Every coordinated step keeps it consistent, for some assignment of adapters to the queued
requests. -/
theorem consistent_of_step (hMatching : cfg.scheduler.Matching)
    (h : Consistent fleet.loaded asked fleet.balancer) (hGuard : fleet.Coordinated cfg l)
    (hStep : step cfg fleet.balancer l = some s') :
    ∃ asked, Consistent (fleet.load l s') asked s' := by
  obtain ⟨s, loaded⟩ := fleet
  obtain ⟨hBegun, hRevived, hRegisters, hReported⟩ := hGuard
  dsimp only at h hBegun hRevived hRegisters hReported hStep
  cases hSwapped : s.swapped l with
  | some p =>
      have hRegistered := hRegisters p (by simp [registers_of_swapped hSwapped])
      obtain ⟨i, env, caller, hTask, rfl⟩ := of_swapped hSwapped
      refine ⟨asked, ?_⟩
      have hEnd : ({ s with tasks := s.tasks.eraseIdx i }.swap_succeeded p.1 p.2 caller) = s' := by
        simpa [Controller.step, hTask, State.resume] using hStep
      rw [← hEnd]
      refine h.swap_resumed hTask hRegistered.1 hRegistered.2 fun o ho => ?_
      rw [load_of_lt ho, hSwapped]
  | none =>
      have hSame : ∀ o < s.nextRef, loaded o = Fleet.load ⟨s, loaded⟩ l s' o := by
        intro o ho
        rw [load_of_lt ho, hSwapped]
      have hNew : Fleet.load ⟨s, loaded⟩ l s' s.nextRef = (s'.procs s.nextRef).adapter_id := load_new
      have h' : Consistent (Fleet.load ⟨s, loaded⟩ l s') asked s :=
        ⟨h.sound.congr hSame, h.recorded.congr h.sound.pool hSame⟩
      have hReported' : ∀ p ∈ s.reported l, Fleet.load ⟨s, loaded⟩ l s' p.1 = p.2 := fun p hp =>
        (hSame p.1 (reported_made h.sound hp)).symm.trans (hReported p hp)
      have hRevived' : ∀ o ∈ s.revived l, ∀ task ∈ s.tasks, ∀ p ∈ task.target, p.1 = o →
          Fleet.load ⟨s, loaded⟩ l s' p.1 = p.2 := by
        rintro _ ho task hTask p hp rfl
        rw [← hSame p.1 (h.sound.worker task hTask p.1 (mem_target hp))]
        exact hRevived p.1 ho task hTask p hp rfl
      exact h'.step hMatching hBegun hRevived' hRegisters hReported' hSwapped hNew hStep

/-- It is consistent at the start. -/
theorem consistent_of_initial (hInitial : Initial s) : Consistent loaded asked s where
  sound := by
    refine ⟨?_, ?_, ?_, ?_, ?_, ?_, ?_, ?_, ?_, ?_⟩ <;>
      simp [PoolScoped, hInitial.workers, hInitial.nextRef, hInitial.tasks, hInitial.pending_requests, hInitial.futures]
  recorded := by
    intro a wid hMem
    simp [hInitial.registry] at hMem

/-- The policies send requests to workers that have the adapter. -/
theorem matching (hScheduler : cfg.scheduler ∈ [lorant, lorantNoSwap, random]) :
    cfg.scheduler.Matching := by
  simp only [List.mem_cons, List.not_mem_nil, or_false] at hScheduler
  rcases hScheduler with hScheduler | hScheduler | hScheduler
  · exact hScheduler ▸ matching_lorant
  · exact hScheduler ▸ matching_lorantNoSwap
  · exact hScheduler ▸ matching_random

/-- It is consistent in every state of a coordinated run. -/
theorem consistent_of_reach (hMatching : cfg.scheduler.Matching)
    (run : (machine cfg).Reach (Coordinated cfg) fleet) :
    ∃ asked, Consistent fleet.loaded asked fleet.balancer := by
  refine run.invariant (fun fleet => ∃ asked, Consistent fleet.loaded asked fleet.balancer) ?_ ?_
  · exact fun fleet hInitial => ⟨fun _ => none, consistent_of_initial hInitial⟩
  · rintro fleet l fleet' ⟨asked, h⟩ hGuard hStep
    obtain ⟨s, hBalancer, rfl⟩ := Option.map_eq_some_iff.mp hStep
    exact consistent_of_step hMatching h hGuard hBalancer

/-- In coordinated runs every request is answered with the adapter that it is for. A run is
coordinated if no swap begins on a worker that another request is to use or another swap is under
way on, and no health check makes a worker ready before its swap is over. -/
theorem faithful_of_coordinated (hScheduler : cfg.scheduler ∈ [lorant, lorantNoSwap, random])
    (run : (machine cfg).Reach (Coordinated cfg) fleet) : fleet.Faithful := by
  obtain ⟨asked, h⟩ := consistent_of_reach (matching hScheduler) run
  exact fun o a retry hTask => h.sound.assigned _ hTask (o, a) rfl

/-- Two places and no worker yet. -/
def built : Fleet := ⟨Controller.built, fun _ => none⟩

/-- That is how a load balancer starts. -/
theorem initial_built : (machine twoWorkers).initial built :=
  built_initial

/-- A worker is swapped for a request, which is then in flight. -/
theorem faithful_of_swap : ∃ fleet, (machine twoWorkers).Reach (Coordinated twoWorkers) fleet ∧
    .inferring 0 (some "b") false ∈ fleet.balancer.tasks ∧ fleet.Faithful := by
  have hRun : ((machine twoWorkers).replayUnder (Coordinated twoWorkers) built
      (launched 0 (some "a") ++ [.request {} (some "b") 0, .run 0 {} .succeeded])).map
      (fun fleet => decide (.inferring 0 (some "b") false ∈ fleet.balancer.tasks)) = some true := by
    decide +kernel
  obtain ⟨fleet, hReplay, hEnd⟩ := Option.map_eq_some_iff.mp hRun
  have run := System.reach_of_replayUnder (.start initial_built) hReplay
  exact ⟨fleet, run, of_decide_eq_true hEnd, faithful_of_coordinated (List.mem_cons_self ..) run⟩

/-- The proactive loop finds a worker idle, a request for its adapter gets the worker before the
task of the swap begins, and is in flight when the swap is made. -/
theorem swapped_in_flight : ∃ fleet, (machine twoWorkers).Reachable fleet ∧ ¬ fleet.Faithful := by
  have hRun : ((machine twoWorkers).replay built
      (launched 0 (some "a") ++ [.proactive [(0, some "b")] [], .request {} (some "a") 0,
        .run 0 {} .resumed, .run 1 {} .succeeded])).map
      (fun fleet => decide (.inferring 0 (some "a") false ∈ fleet.balancer.tasks ∧
        fleet.loaded 0 = some "b")) = some true := by decide +kernel
  obtain ⟨fleet, hReplay, hEnd⟩ := Option.map_eq_some_iff.mp hRun
  obtain ⟨hTask, hLoaded⟩ := of_decide_eq_true hEnd
  refine ⟨fleet, System.reachable_of_replay (.start initial_built) hReplay, fun hFaithful => ?_⟩
  have hSame := hFaithful 0 (some "a") false hTask
  rw [hLoaded] at hSame
  exact absurd hSame (by decide)

end Fleet

end Controller
