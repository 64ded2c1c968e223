import SwarmLoRA.Controller.Assignment

/-! The adapter that a request meets at its worker. The payload of a request has no adapter in
it, so the right answer depends on what the worker has loaded from when the request is sent
until the answer is there. -/
namespace Controller

open Machine State

/-- A route without a swap goes to a worker that is registered for the adapter. -/
def LocalScheduler.Matching (scheduler : LocalScheduler) : Prop :=
  ∀ workers workers_with_adapter num_workers max_workers best_wid wid needs_spawn,
    scheduler.route_request workers workers_with_adapter num_workers max_workers best_wid =
      some (.route wid false needs_spawn) → wid ∈ workers_with_adapter

/-- The policy with swaps sends a request to a worker that has its adapter. -/
theorem matching_lorant : lorant.Matching := by
  intro workers workers_with_adapter num_workers max_workers best_wid wid needs_spawn hRoute
  simp only [lorant, LoRantScheduler.route_request] at hRoute
  split at hRoute
  next =>
    split at hRoute
    next hBest =>
      obtain ⟨w, hMem, rfl⟩ := hBest
      obtain ⟨rfl, -⟩ := by simpa using hRoute
      exact of_decide_eq_true (List.mem_filter.mp hMem).2
    next => simp at hRoute
  next =>
    split at hRoute
    next => split at hRoute <;> simp at hRoute
    next => split at hRoute <;> simp at hRoute

/-- So does the one without swaps. -/
theorem matching_lorantNoSwap : lorantNoSwap.Matching := by
  intro workers workers_with_adapter num_workers max_workers best_wid wid needs_spawn hRoute
  simp only [lorantNoSwap, LoRantNoSwapScheduler.route_request] at hRoute
  split at hRoute
  next =>
    split at hRoute
    next hBest =>
      obtain ⟨w, hMem, rfl⟩ := hBest
      obtain ⟨rfl, -⟩ := by simpa using hRoute
      exact of_decide_eq_true (List.mem_filter.mp hMem).2
    next => simp at hRoute
  next => split at hRoute <;> simp at hRoute

/-- And the random one. -/
theorem matching_random : random.Matching := by
  intro workers workers_with_adapter num_workers max_workers best_wid wid needs_spawn hRoute
  simp only [random, RandomScheduler.route_request] at hRoute
  split at hRoute
  next =>
    split at hRoute
    next =>
      obtain ⟨rfl, hMem, -⟩ := by simpa using hRoute
      exact hMem
    next => simp at hRoute
  next => split at hRoute <;> simp at hRoute

/-- The whole invariant: the tasks use workers for the adapters that they have loaded, and the
registry is right as well. -/
structure Consistent (loaded : WorkerRef → AdapterId) (asked : FutureId → AdapterId) (s : State) :
    Prop where
  sound : Sound loaded asked s
  recorded : Recorded loaded [] s

variable {cfg : Config} {s s' : State} {loaded : WorkerRef → AdapterId}
  {asked : FutureId → AdapterId} {o : WorkerRef} {a : AdapterId} {f : FutureId} {env : Env}
  {retry : Bool}

namespace Fit

/-- A worker stays fit as long as no task is added. -/
theorem of_same (h : Fit loaded s o a) (hTasks : s'.tasks = s.tasks) (hRef : s'.nextRef = s.nextRef) :
    Fit loaded s' o a :=
  ⟨hRef ▸ h.made, h.loaded, hTasks ▸ h.target⟩

/-- A task that ends unfits no worker. -/
theorem of_subset (h : Fit loaded s o a) {tasks : List Task} (hSub : tasks ⊆ s.tasks) :
    Fit loaded { s with tasks } o a :=
  ⟨h.made, h.loaded, fun task hTask => h.target task (hSub hTask)⟩

/-- A task that brings no adapter unfits no worker. -/
theorem create_task (h : Fit loaded s o a) {task : Task} (hTarget : task.target = none) :
    Fit loaded (s.create_task task) o a := by
  refine ⟨h.made, h.loaded, List.forall_mem_append.mpr ⟨h.target, ?_⟩⟩
  intro t ht p hp
  rw [List.mem_singleton.mp ht, hTarget] at hp
  cases hp

/-- What the tasks are to load into a fit worker is what it has. -/
theorem agrees (h : Fit loaded s o a) :
    ∀ task ∈ s.tasks, ∀ p ∈ task.target, p.1 = o → loaded p.1 = p.2 := by
  intro task hTask p hp hSame
  rw [h.target task hTask p hp hSame, hSame]
  exact h.loaded

end Fit

namespace Consistent

/-- Nothing that the invariant speaks of has changed. -/
theorem alike (h : Consistent loaded asked s) (hAlike : Alike s s')
    (hRegistry : s'.registry = s.registry) : Consistent loaded asked s' :=
  ⟨h.sound.alike hAlike, h.recorded.of_same hRegistry hAlike.workers⟩

/-- Counters have no part in it. -/
theorem addActive (h : Consistent loaded asked s) (o : WorkerRef) (n : Int) :
    Consistent loaded asked (s.addActive o n) :=
  ⟨h.sound.addActive o n, h.recorded.of_same rfl rfl⟩

/-- A worker may be marked as ready if no task is about to load something else into it. -/
theorem setStatus (h : Consistent loaded asked s) {status : WorkerStatus}
    (hReady : status = .ready → ∀ task ∈ s.tasks, ∀ p ∈ task.target, p.1 = o → loaded p.1 = p.2) :
    Consistent loaded asked (s.setStatus o status) :=
  ⟨h.sound.setStatus hReady, h.recorded.of_same rfl rfl⟩

/-- A task that neither asks for an adapter nor brings one. -/
theorem create_other (h : Consistent loaded asked s) {task : Task}
    (hWorker : ∀ o ∈ task.worker, o < s.nextRef) (hAsked : task.asked = none)
    (hAssigned : task.assigned s.futures = none) (hTarget : task.target = none) :
    Consistent loaded asked (s.create_task task) :=
  ⟨h.sound.create_other hWorker hAsked hAssigned hTarget, h.recorded.of_same rfl rfl⟩

/-- A task that ends asks for nothing any more. -/
theorem of_erase (h : Consistent loaded asked s) (i : Nat) :
    Consistent loaded asked { s with tasks := s.tasks.eraseIdx i } :=
  ⟨h.sound.of_sublist (List.eraseIdx_sublist _ _), h.recorded.of_same rfl rfl⟩

/-- A future may be resolved with a worker that is fit for what it asks for. -/
theorem set_result (h : Consistent loaded asked s) (hFit : Fit loaded s o (asked f)) :
    Consistent loaded asked (s.set_result f o) :=
  ⟨h.sound.set_result hFit, h.recorded.of_same rfl rfl⟩

/-- A request is sent to a worker that has loaded its adapter. -/
theorem send_inference (h : Consistent loaded asked s) (hFit : Fit loaded s o a) :
    Consistent loaded asked (s.send_inference o a retry) := by
  unfold State.send_inference
  split
  next => exact h.addActive o (-1)
  next =>
    have hAssigned : ∀ p ∈ (Task.inferring o a retry).assigned s.futures, Fit loaded s p.1 p.2 := by
      rintro _ ⟨⟩
      exact hFit
    have hWorker : ∀ p ∈ (Task.inferring o a retry).worker, p < s.nextRef := by
      rintro _ ⟨⟩
      exact hFit.made
    exact ⟨h.sound.create_task hWorker (by rintro _ ⟨⟩) hAssigned rfl trivial,
      h.recorded.of_same rfl rfl⟩

theorem spawn_for_dispatch (h : Consistent loaded asked s) (adapters : List AdapterId) :
    Consistent loaded asked (s.spawn_for_dispatch adapters) := by
  have hTasks : ∀ task ∈ adapters.map fun a => Task.spawnNew (.dispatch a false),
      (∀ o ∈ task.worker, o < s.nextRef) ∧ task.asked = none ∧
        (∀ futures, task.assigned futures = none) ∧ task.target = none := by
    intro task hTask
    obtain ⟨a, -, rfl⟩ := List.mem_map.mp hTask
    exact ⟨by rintro _ ⟨⟩, rfl, fun _ => rfl, rfl⟩
  refine ⟨(h.sound.create_others hTasks).alike ?_, h.recorded.of_same rfl rfl⟩
  exact ⟨rfl, fun _ => ⟨rfl, rfl, rfl⟩, rfl, rfl, rfl, rfl, rfl⟩

/-- The new future asks for the adapter of the request. -/
theorem wait_for_available_worker (h : Consistent loaded asked s) (a : AdapterId) (retry : Bool) :
    ∃ asked, Consistent loaded asked (s.wait_for_available_worker a retry) :=
  ⟨_, h.sound.wait_for_available_worker a retry, h.recorded.of_same rfl rfl⟩

/-- The queued request asks for its adapter. -/
theorem queue_request (h : Consistent loaded asked s) (a : AdapterId) :
    ∃ asked, Consistent loaded asked (s.queue_request cfg a env) :=
  (h.spawn_for_dispatch _).wait_for_available_worker a false

theorem spawns_in_progress (h : Consistent loaded asked s) (adapters : List AdapterId) :
    Consistent loaded asked { s with spawns_in_progress := adapters } :=
  h.alike ⟨rfl, fun _ => ⟨rfl, rfl, rfl⟩, rfl, rfl, rfl, rfl, rfl⟩ rfl

theorem addCount (h : Consistent loaded asked s) (dev : Device) (n : Int) :
    Consistent loaded asked (s.addCount dev n) :=
  h.alike ⟨rfl, fun _ => ⟨rfl, rfl, rfl⟩, rfl, rfl, rfl, rfl, rfl⟩ rfl

theorem aggregator_known (h : Consistent loaded asked s) (aggregator_ready : Device → Bool) :
    Consistent loaded asked { s with aggregator_ready } :=
  h.alike ⟨rfl, fun _ => ⟨rfl, rfl, rfl⟩, rfl, rfl, rfl, rfl, rfl⟩ rfl

theorem set_process (h : Consistent loaded asked s) (procs : WorkerRef → Process) :
    Consistent loaded asked { s with procs } :=
  h.alike ⟨rfl, fun _ => ⟨rfl, rfl, rfl⟩, rfl, rfl, rfl, rfl, rfl⟩ rfl

/-- A spawn that has failed assigns nothing. -/
theorem spawn_returned_none (h : Consistent loaded asked s) (caller : SpawnCaller) :
    ∃ asked, Consistent loaded asked (s.spawn_returned cfg env caller none) := by
  cases caller with
  | request a second =>
      cases second with
      | false => exact ⟨asked, h.create_other (by rintro _ ⟨⟩) rfl rfl rfl⟩
      | true => exact h.queue_request a
  | dispatch a second =>
      cases second with
      | false => exact ⟨asked, h.create_other (by rintro _ ⟨⟩) rfl rfl rfl⟩
      | true => exact ⟨asked, h.spawns_in_progress _⟩
  | grow a => exact ⟨asked, h⟩
  | endpoint a => exact ⟨asked, h⟩
  | initial a => exact ⟨asked, h⟩

theorem spawn_raised (h : Consistent loaded asked s) (caller : SpawnCaller) :
    Consistent loaded asked (s.spawn_raised caller) := by
  cases caller with
  | dispatch a second => exact h.spawns_in_progress _
  | _ => exact h

/-- A new worker is handed to a queued request for its adapter. -/
theorem resolve_pending (h : Consistent loaded asked s) (hFit : Fit loaded s o a) :
    Consistent loaded asked (s.resolve_pending a o) := by
  unfold State.resolve_pending
  split
  next pr hFind =>
    obtain ⟨-, hSuits⟩ : s.isPending pr.future = true ∧
        (pr.adapter_id = a ∨ (s.infos o).adapter_id = pr.adapter_id) := by
      simpa using List.find?_some hFind
    have hSame : pr.adapter_id = a := by
      rcases hSuits with hSame | hSame
      · exact hSame
      · rw [← hSame, h.sound.infos o hFit.made, hFit.loaded]
    have hAsked : a = asked pr.future :=
      hSame.symm.trans (h.sound.queue pr (List.mem_of_find?_eq_some hFind)).2
    exact (h.addActive o 1).set_result (hAsked ▸ hFit.of_same rfl rfl)
  next => exact h

/-- A spawn that has succeeded assigns its worker to a request for the adapter that it was
launched with. -/
theorem spawn_returned_some (h : Consistent loaded asked s) {caller : SpawnCaller}
    (hFit : Fit loaded s o caller.adapter_id) :
    Consistent loaded asked (s.spawn_returned cfg env caller (some o)) := by
  cases caller with
  | request a second => exact (h.addActive o 1).send_inference (hFit.of_same rfl rfl)
  | dispatch a second => exact (h.resolve_pending hFit).spawns_in_progress _
  | grow a => exact h
  | endpoint a => exact h
  | initial a => exact h

/-- A worker that is launched has its adapter from the start. -/
theorem add_worker (h : Consistent loaded asked s) {caller : Option SpawnCaller} {wid : WorkerId}
    {dev : Device} (hFree : wid ∉ s.workers) (hLoaded : loaded s.nextRef = a)
    (hPolls : (Task.polling caller s.nextRef a).Polls) :
    Consistent loaded asked ((s.add_worker cfg wid dev a).create_task (.polling caller s.nextRef a)) := by
  have hAdded : Sound loaded asked (s.add_worker cfg wid dev a) := h.sound.add_worker hLoaded
  have hFit : Fit loaded (s.add_worker cfg wid dev a) s.nextRef a := by
    refine ⟨Nat.lt_succ_self _, hLoaded, fun task hTask p hp hSame => ?_⟩
    exact absurd hSame (h.sound.worker task hTask p.1 (mem_target hp)).ne
  have hAssigned : ∀ p ∈ (Task.polling caller s.nextRef a).assigned s.futures,
      Fit loaded (s.add_worker cfg wid dev a) p.1 p.2 := by
    rintro _ ⟨⟩
    exact hFit
  have hWorker : ∀ p ∈ (Task.polling caller s.nextRef a).worker, p < s.nextRef + 1 := by
    rintro _ ⟨⟩
    exact Nat.lt_succ_self _
  have hRecorded : Recorded loaded [] (s.add_worker cfg wid dev a) := h.recorded.add_worker hFree
  exact ⟨hAdded.create_task hWorker (by rintro _ ⟨⟩) hAssigned rfl hPolls,
    hRecorded.of_same rfl rfl⟩

/-- A launch brings the adapter that the policy has spawned for. -/
theorem launch_worker (h : Consistent loaded asked s) {caller : SpawnCaller} {wid : WorkerId}
    {dev : Device} (hFree : wid ∉ s.workers)
    (hLoaded : loaded s.nextRef =
      ((s.launch_worker cfg env caller wid dev).procs s.nextRef).adapter_id) :
    Consistent loaded asked (s.launch_worker cfg env caller wid dev) := by
  unfold State.launch_worker at hLoaded ⊢
  split at hLoaded
  next hLaunched =>
    rw [if_pos hLaunched]
    refine h.add_worker hFree (hLoaded.trans ?_) rfl
    simp [State.add_worker, State.create_task]
  next hLaunched =>
    rw [if_neg hLaunched]
    exact h.spawn_raised caller

/-- A spawn is made for the adapter of its caller. -/
theorem spawn_worker (h : Consistent loaded asked s) {caller : SpawnCaller}
    (hLoaded : loaded s.nextRef = ((s.spawn_worker cfg env caller).procs s.nextRef).adapter_id) :
    ∃ asked, Consistent loaded asked (s.spawn_worker cfg env caller) := by
  unfold State.spawn_worker at hLoaded ⊢
  cases hNext : s.get_next_worker_id cfg with
  | none => exact h.spawn_returned_none caller
  | some wid =>
      cases hPick : s.pick_device cfg with
      | none => exact h.spawn_returned_none caller
      | some dev =>
          simp only [hNext, hPick] at hLoaded ⊢
          split at hLoaded
          next hReady =>
            rw [if_pos hReady]
            exact ⟨asked, (h.addCount dev 1).launch_worker (next_worker_id_spec hNext).1 hLoaded⟩
          next hReady =>
            rw [if_neg hReady]
            exact ⟨asked, (h.addCount dev 1).create_other (by rintro _ ⟨⟩) rfl rfl rfl⟩

/-- The launch after the wait for the aggregator is for the adapter of the caller as well. -/
theorem aggregator_ensured (h : Consistent loaded asked s) {caller : SpawnCaller} {wid : WorkerId}
    {dev : Device} (hLoaded : loaded s.nextRef =
      ((s.aggregator_ensured cfg env caller wid dev).procs s.nextRef).adapter_id) :
    ∃ asked, Consistent loaded asked (s.aggregator_ensured cfg env caller wid dev) := by
  unfold State.aggregator_ensured at hLoaded ⊢
  split at hLoaded
  next hTaken =>
    rw [if_pos hTaken]
    cases hNext : s.get_next_worker_id cfg with
    | none => exact (h.addCount dev (-1)).spawn_returned_none caller
    | some wid' =>
        rw [hNext] at hLoaded
        exact ⟨asked, h.launch_worker (next_worker_id_spec hNext).1 hLoaded⟩
  next hFree =>
    rw [if_neg hFree]
    exact ⟨asked, h.launch_worker hFree hLoaded⟩

/-- A worker that is removed takes its entries of the registry with it. -/
theorem remove_worker (h : Consistent loaded asked s) (wid : WorkerId) :
    Consistent loaded asked (s.remove_worker wid) := by
  unfold State.remove_worker
  have hSound : ∀ {t : State}, Sound loaded asked t → Sound loaded asked (t.unregister wid) :=
    fun ht => ht.alike ⟨rfl, fun _ => ⟨rfl, rfl, rfl⟩, rfl, rfl, rfl, rfl, rfl⟩
  split
  next o hLookup =>
    refine ⟨hSound (h.sound.pop_worker wid o), h.recorded.pop_worker.unregister ?_⟩
    exact fun w hw => .inl (List.mem_singleton.mp hw)
  next => exact ⟨hSound h.sound, h.recorded.unregister fun w hw => .inr hw⟩

theorem unregister (h : Consistent loaded asked s) (wid : WorkerId) :
    Consistent loaded asked (s.unregister wid) :=
  ⟨h.sound.alike ⟨rfl, fun _ => ⟨rfl, rfl, rfl⟩, rfl, rfl, rfl, rfl, rfl⟩,
    h.recorded.unregister fun _ hw => .inr hw⟩

/-- A worker that is being stopped is assigned to nobody. -/
theorem mark_stopping (h : Consistent loaded asked s) (o : WorkerRef) :
    Consistent loaded asked (s.mark_stopping o) := by
  have hMarked : Consistent loaded asked (s.setStatus o .stopping) := h.setStatus (by rintro ⟨⟩)
  exact hMarked.set_process _

theorem stop_worker (h : Consistent loaded asked s) {caller : StopCaller} (hMade : o < s.nextRef) :
    Consistent loaded asked (s.stop_worker caller o) := by
  refine (h.mark_stopping o).create_other ?_ rfl rfl rfl
  rintro _ ⟨⟩
  exact hMade

theorem stopped (h : Consistent loaded asked s) (caller : StopCaller) :
    ∃ asked, Consistent loaded asked (s.stopped cfg env o caller) := by
  cases caller with
  | spawn caller => exact (h.remove_worker _).spawn_returned_none caller
  | endpoint => exact ⟨asked, h.remove_worker _⟩
  | process => exact ⟨asked, h.unregister _⟩

/-- The worker is registered for what it has loaded. -/
theorem register (h : Consistent loaded asked s)
    (hLookup : s.workers.lookup (s.infos o).worker_id = some o) (hLoaded : loaded o = a)
    (hNamed : named a) : Consistent loaded asked (s.register (s.infos o).worker_id a) :=
  ⟨h.sound.alike ⟨rfl, fun _ => ⟨rfl, rfl, rfl⟩, rfl, rfl, rfl, rfl, rfl⟩,
    h.recorded.register hLookup (fun _ _ _ _ => rfl) hLoaded hNamed⟩

/-- A worker that has become ready is assigned to the request that it was spawned for. -/
theorem worker_ready (h : Consistent loaded asked s) {caller : Option SpawnCaller}
    (hFit : Fit loaded s o a) (hPolls : (Task.polling caller o a).Polls)
    (hLookup : s.workers.lookup (s.infos o).worker_id = some o) (hNamed : named a) :
    Consistent loaded asked (s.worker_ready cfg env caller o a) := by
  have hReady : Consistent loaded asked
      ((s.setStatus o .ready).register ((s.setStatus o .ready).infos o).worker_id a) := by
    refine (h.setStatus fun _ => hFit.agrees).register ?_ hFit.loaded hNamed
    rw [worker_id_setStatus]
    exact hLookup
  rw [worker_id_setStatus] at hReady
  unfold State.worker_ready
  cases caller with
  | none => exact hReady
  | some caller =>
      obtain rfl : caller.adapter_id = a := hPolls
      exact hReady.spawn_returned_some (hFit.of_same rfl rfl)

/-- A swap is begun on a worker that is vacant. -/
theorem swap_worker_adapter (h : Consistent loaded asked s) {caller : SwapCaller}
    (hMade : o < s.nextRef)
    (hAsked : ∀ f, caller = .resolve f → f < s.nextFuture ∧ a = asked f) (hVacant : s.vacant o a) :
    Consistent loaded asked (s.swap_worker_adapter caller o a) := by
  have hStatus : Consistent loaded asked (s.setStatus o .swapping) := h.setStatus (by rintro ⟨⟩)
  refine ⟨hStatus.sound.begin_swap hMade hAsked hVacant ?_, hStatus.recorded.of_same rfl rfl⟩
  rw [status_setStatus, if_pos rfl]
  decide

/-- What the end of a successful swap makes of the worker. -/
theorem swap_succeeded (h : Consistent loaded asked (s.adapter_swapped o a)) {caller : SwapCaller}
    (hFit : Fit loaded (s.adapter_swapped o a) o a)
    (hAsked : ∀ f, caller = .resolve f → a = asked f) :
    Consistent loaded asked (s.swap_succeeded o a caller) := by
  cases caller with
  | request needs_spawn =>
      cases needs_spawn with
      | false => exact h.send_inference hFit
      | true =>
          have hGrow : Consistent loaded asked
              ((s.adapter_swapped o a).create_task (.spawnNew (.grow a))) :=
            h.create_other (by rintro _ ⟨⟩) rfl rfl rfl
          exact hGrow.send_inference (hFit.create_task rfl)
  | resolve f =>
      unfold State.swap_succeeded
      dsimp only
      split
      next => exact h.set_result (hAsked f rfl ▸ hFit)
      next => exact h.addActive o (-1)
  | detached => exact h

/-- After a failed swap nobody relies on the worker, and the request is queued or spawned for. -/
theorem swap_failed (h : Consistent loaded asked s) {caller : SwapCaller}
    (hAlone : ∀ task ∈ s.tasks, ∀ p ∈ task.target, p.1 ≠ o)
    (hAsked : ∀ f, caller = .resolve f → f < s.nextFuture ∧ a = asked f)
    (hLoaded : loaded s.nextRef = ((s.swap_failed cfg env o a caller).procs s.nextRef).adapter_id) :
    ∃ asked, Consistent loaded asked (s.swap_failed cfg env o a caller) := by
  have hReady : Consistent loaded asked (s.setStatus o .ready) :=
    h.setStatus fun _ task hTask p hp hSame => absurd hSame (hAlone task hTask p hp)
  cases caller with
  | request needs_spawn => exact (hReady.addActive o (-1)).spawn_worker hLoaded
  | resolve f =>
      refine ⟨asked, ?_⟩
      have hFreed := hReady.addActive o (-1)
      unfold State.swap_failed
      dsimp only
      split
      next =>
        refine ⟨hFreed.sound.set_queue ?_, hFreed.recorded.of_same rfl rfl⟩
        exact List.forall_mem_append.mpr
          ⟨hFreed.sound.queue, List.forall_mem_singleton.mpr (hAsked f rfl)⟩
      next => exact hFreed
  | detached => exact ⟨asked, hReady⟩

/-- The worker of an inference that ends is free for its adapter. -/
theorem end_inference (h : Consistent loaded asked s) (hFit : Fit loaded s o a) :
    Consistent loaded asked (s.end_inference o) := by
  have hFreed := h.addActive o (-1)
  unfold State.end_inference
  dsimp only
  split
  next => exact hFreed.setStatus fun _ => hFit.agrees
  next => exact hFreed

/-- A retried request is queued again for its adapter. -/
theorem inference_returned (h : Consistent loaded asked s) (hFit : Fit loaded s o a)
    (connectFailed : Bool) :
    ∃ asked, Consistent loaded asked (s.inference_returned o a retry connectFailed) := by
  have hEnd := h.end_inference hFit
  unfold State.inference_returned
  dsimp only
  split
  next => exact (hEnd.remove_worker _).wait_for_available_worker a true
  next => exact ⟨asked, hEnd⟩

/-- The request that waited is sent to the worker that it was resolved with. -/
theorem worker_available (h : Consistent loaded asked s) (hFit : Fit loaded s o a) :
    Consistent loaded asked (s.worker_available f o a retry) := by
  have hDelivered : Consistent loaded asked (s.setFuture f (.delivered o)) :=
    ⟨h.sound.setFuture (by simp), h.recorded.of_same rfl rfl⟩
  unfold State.worker_available
  dsimp only
  split
  next => exact (hDelivered.addActive o 1).send_inference (hFit.of_same rfl rfl)
  next => exact hDelivered.send_inference (hFit.of_same rfl rfl)

/-- A report that names an adapter names the one that is loaded. -/
theorem report_adapter (h : Consistent loaded asked s) (hMade : o < s.nextRef)
    (hReport : named a → loaded o = a ∧ s.workers.lookup (s.infos o).worker_id = some o) :
    Consistent loaded asked (s.report_adapter o a) := by
  unfold State.report_adapter
  split
  next name =>
    split
    next => exact h
    next hName =>
      have hNamed : named (some name) := decide_eq_true hName
      obtain ⟨hLoaded, hLookup⟩ := hReport hNamed
      have hSame : Consistent loaded asked
          (s.setInfo o { s.infos o with adapter_id := some name }) :=
        ⟨h.sound.set_adapter hMade hLoaded, h.recorded.of_same rfl rfl⟩
      have hId : ((s.setInfo o { s.infos o with adapter_id := some name }).infos o).worker_id =
          (s.infos o).worker_id := by
        rw [infos_setInfo, if_pos rfl]
      rw [← hId]
      refine hSame.register ?_ hLoaded hNamed
      rw [hId]
      exact hLookup
  next => exact h

end Consistent

end Controller
