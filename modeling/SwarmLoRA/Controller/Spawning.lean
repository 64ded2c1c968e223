import SwarmLoRA.Controller.Step

/-! What a stretch of code does to the calls of `_spawn_for_dispatch`: a coroutine goes on with
its own call or ends it, and calls are begun by the dispatcher, by burst detection and by the
proactive loop only. -/
namespace Controller

open State

/-- The adapter of the `_spawn_for_dispatch` call that awaits `spawn_worker`. -/
def SpawnCaller.dispatched : SpawnCaller → Option AdapterId
  | .dispatch a _ => some a
  | .request _ _ | .grow _ | .endpoint _ | .initial _ => none

/-- The adapter of the `_spawn_for_dispatch` call that the coroutine carries out. -/
def Task.spawn : Task → Option AdapterId
  | .spawnNew caller | .ensuring caller _ _ | .polling (some caller) _ _ | .retrySleep caller
  | .stopping (.spawn caller) _ => caller.dispatched
  | .polling none _ _ | .stopping .endpoint _ | .stopping .process _ | .swapNew _ _ _
  | .swapping _ _ _ | .waiting _ _ _ | .inferring _ _ _ | .health _ | .adapterInfo _ => none

/-- Neither the queue nor the calls change, and no future is made that is not done. Tasks may be
added, but none that spawns. -/
structure Quiet (s s' : State) : Prop where
  queue : s'.pending_requests = s.pending_requests
  futures : ∀ f, s'.isPending f = true → s.isPending f = true
  nextFuture : s'.nextFuture = s.nextFuture
  spawns : s'.spawns_in_progress = s.spawns_in_progress
  tasks : ∃ new, s'.tasks = s.tasks ++ new ∧ new.filterMap Task.spawn = []

/-- What a coroutine does up to its next suspension, by the call that it carries out. A request is
queued at most at the end. -/
structure Stretch (call : Option AdapterId) (s s' : State) : Prop where
  queue : ∃ new, s'.pending_requests = s.pending_requests ++ new ∧
    ∀ pr ∈ new, s'.isPending pr.future = true
  futures : ∀ f, s'.isPending f = true → s.isPending f = true ∨ f = s.nextFuture
  tasks : ∃ new, s'.tasks = s.tasks ++ new ∧
    match call with
    | none => s'.spawns_in_progress = s.spawns_in_progress ++ new.filterMap Task.spawn
    | some a =>
        new.filterMap Task.spawn = [a] ∧ s'.spawns_in_progress = s.spawns_in_progress ∨
          new.filterMap Task.spawn = [] ∧ s'.spawns_in_progress = s.spawns_in_progress.erase a

variable {cfg : Config} {s s₁ s' : State} {env : Env} {o : WorkerRef} {adapter_id : AdapterId}
  {call : Option AdapterId} {retry : Bool}

namespace Quiet

/-- Nothing that is spoken of has changed. -/
theorem of_same (hQueue : s'.pending_requests = s.pending_requests)
    (hFutures : s'.futures = s.futures) (hNext : s'.nextFuture = s.nextFuture)
    (hSpawns : s'.spawns_in_progress = s.spawns_in_progress) (hTasks : s'.tasks = s.tasks) :
    Quiet s s' where
  queue := hQueue
  futures f hPending := by
    unfold isPending at hPending ⊢
    rwa [hFutures] at hPending
  nextFuture := hNext
  spawns := hSpawns
  tasks := ⟨[], by rw [hTasks, List.append_nil], rfl⟩

/-- Doing nothing is quiet. -/
theorem refl (s : State) : Quiet s s := of_same rfl rfl rfl rfl rfl

/-- Two quiet stretches make one. -/
theorem trans (hFirst : Quiet s s₁) (hSecond : Quiet s₁ s') : Quiet s s' where
  queue := hSecond.queue.trans hFirst.queue
  futures f hPending := hFirst.futures f (hSecond.futures f hPending)
  nextFuture := hSecond.nextFuture.trans hFirst.nextFuture
  spawns := hSecond.spawns.trans hFirst.spawns
  tasks := by
    obtain ⟨new, hNew, hNone⟩ := hFirst.tasks
    obtain ⟨more, hMore, hNoMore⟩ := hSecond.tasks
    exact ⟨new ++ more, by rw [hMore, hNew, List.append_assoc],
      by rw [List.filterMap_append, hNone, hNoMore, List.append_nil]⟩

/-- Coroutines that carry out no spawn may be begun. -/
theorem create_all {tasks : List Task} (hTasks : ∀ task ∈ tasks, task.spawn = none) :
    Quiet s { s with tasks := s.tasks ++ tasks } where
  queue := rfl
  futures _ hPending := hPending
  nextFuture := rfl
  spawns := rfl
  tasks := ⟨tasks, rfl, List.filterMap_eq_nil_iff.mpr hTasks⟩

/-- One of them may be begun. -/
theorem create_task {task : Task} (hTask : task.spawn = none) : Quiet s (s.create_task task) :=
  create_all (by simpa using hTask)

/-- A future that is done or comes to be done. -/
theorem update_future {f : FutureId} {future : Future} (hDone : future.state ≠ .pending) :
    Quiet s { s with futures := Function.update s.futures f future } where
  queue := rfl
  futures g hPending := by
    change decide ((Function.update s.futures f future g).state = .pending) = true at hPending
    by_cases hSame : g = f
    · subst hSame
      rw [Function.update_self] at hPending
      exact absurd (of_decide_eq_true hPending) hDone
    · rwa [Function.update_of_ne hSame] at hPending
  nextFuture := rfl
  spawns := rfl
  tasks := ⟨[], (List.append_nil _).symm, rfl⟩

/-- Sending a request begins a coroutine of no spawn. -/
theorem send_inference : Quiet s (s.send_inference o adapter_id retry) := by
  unfold State.send_inference
  split
  next => exact of_same rfl rfl rfl rfl rfl
  next => exact create_task rfl

/-- Removing a worker concerns no spawn. -/
theorem remove_worker (worker_id : WorkerId) : Quiet s (s.remove_worker worker_id) := by
  unfold State.remove_worker
  cases s.workers.lookup worker_id with
  | none => exact of_same rfl rfl rfl rfl rfl
  | some o => exact of_same rfl rfl rfl rfl rfl

/-- Nor does a report. -/
theorem report_adapter : Quiet s (s.report_adapter o adapter_id) := by
  unfold State.report_adapter
  split
  next name =>
    split
    next => exact refl s
    next => exact of_same rfl rfl rfl rfl rfl
  next => exact refl s

/-- Nor the end of an inference. -/
theorem end_inference : Quiet s (s.end_inference o) := by
  unfold State.end_inference
  dsimp only
  split
  next => exact of_same rfl rfl rfl rfl rfl
  next => exact of_same rfl rfl rfl rfl rfl

/-- Cancelling a future leaves the queue alone. -/
theorem cancel (f : FutureId) : Quiet s (s.cancel f) := by
  unfold State.cancel
  split
  next => exact update_future (by simp)
  next => exact refl s

/-- So does handing a worker to an entry. -/
theorem resolve_pending : Quiet s (s.resolve_pending adapter_id o) := by
  unfold State.resolve_pending
  split
  next pr hFind =>
    have hActive : Quiet s (s.addActive o 1) := of_same rfl rfl rfl rfl rfl
    exact hActive.trans (update_future (by simp))
  next => exact refl s

/-- What is quiet ends no call and begins none. -/
theorem stretch (hQuiet : Quiet s s') : Stretch none s s' where
  queue := ⟨[], by rw [hQuiet.queue, List.append_nil], by simp⟩
  futures f hPending := .inl (hQuiet.futures f hPending)
  tasks := by
    obtain ⟨new, hNew, hNone⟩ := hQuiet.tasks
    exact ⟨new, hNew, by rw [hNone, hQuiet.spawns, List.append_nil]⟩

/-- What is quiet may come before. -/
theorem trans_stretch (hQuiet : Quiet s s₁) (hStretch : Stretch call s₁ s') :
    Stretch call s s' where
  queue := hQuiet.queue ▸ hStretch.queue
  futures f hPending :=
    (hStretch.futures f hPending).imp (hQuiet.futures f) fun hNew => hNew.trans hQuiet.nextFuture
  tasks := by
    obtain ⟨new, hNew, hNone⟩ := hQuiet.tasks
    obtain ⟨more, hMore, hCall⟩ := hStretch.tasks
    refine ⟨new ++ more, by rw [hMore, hNew, List.append_assoc], ?_⟩
    rw [List.filterMap_append, hNone, List.nil_append, ← hQuiet.spawns]
    exact hCall

end Quiet

section Stretches

/-- A coroutine goes on with its call. -/
theorem stretch_create_task {task : Task} (hTask : task.spawn = call) :
    Stretch call s (s.create_task task) := by
  cases call with
  | none => exact (Quiet.create_task hTask).stretch
  | some a =>
      exact ⟨⟨[], (List.append_nil _).symm, by simp⟩, fun _ hPending => .inl hPending,
        [task], rfl, .inl ⟨by simp [hTask], rfl⟩⟩

/-- The call of `_spawn_for_dispatch` ends. -/
theorem stretch_end_spawn (hQuiet : Quiet s s₁) (hTasks : s₁.tasks = s.tasks) :
    Stretch (some adapter_id) s (s₁.end_spawn_for_dispatch adapter_id) where
  queue := ⟨[], by rw [List.append_nil]; exact hQuiet.queue, by simp⟩
  futures f hPending := .inl (hQuiet.futures f hPending)
  tasks := by
    refine ⟨[], ?_, .inr ⟨rfl, ?_⟩⟩
    · rw [List.append_nil]
      exact hTasks
    · change s₁.spawns_in_progress.erase adapter_id = _
      rw [hQuiet.spawns]

/-- A request is queued, after calls have been begun or none. -/
theorem stretch_wait {tasks : List Task} (hFutures : s₁.futures = s.futures)
    (hNext : s₁.nextFuture = s.nextFuture) (hQueue : s₁.pending_requests = s.pending_requests)
    (hTasks : s₁.tasks = s.tasks ++ tasks)
    (hSpawns : s₁.spawns_in_progress = s.spawns_in_progress ++ tasks.filterMap Task.spawn) :
    Stretch none s (s₁.wait_for_available_worker adapter_id retry) where
  queue := by
    refine ⟨[⟨adapter_id, s₁.nextFuture⟩], congrArg (· ++ _) hQueue, fun pr hpr => ?_⟩
    obtain rfl := List.mem_singleton.mp hpr
    simp [isPending, wait_for_available_worker]
  futures f hPending := by
    change decide ((Function.update s₁.futures s₁.nextFuture {} f).state = .pending) = true
      at hPending
    by_cases hNew : f = s.nextFuture
    · exact .inr hNew
    · rw [Function.update_of_ne (hNext ▸ hNew), hFutures] at hPending
      exact .inl hPending
  tasks := by
    refine ⟨tasks ++ [.waiting s₁.nextFuture adapter_id retry], ?_, ?_⟩
    · rw [← List.append_assoc, ← hTasks]
      rfl
    · rw [List.filterMap_append]
      exact hSpawns.trans (congrArg (s.spawns_in_progress ++ ·) (List.append_nil _).symm)

/-- The coroutines that are begun carry out the spawns for the adapters. -/
theorem spawn_of_begun (adapters : List AdapterId) :
    (adapters.map fun a => Task.spawnNew (.dispatch a false)).filterMap Task.spawn = adapters := by
  rw [List.filterMap_map]
  exact List.filterMap_some

/-- A request that is queued may make burst detection begin calls. -/
theorem stretch_queue_request : Stretch none s (s.queue_request cfg adapter_id env) :=
  stretch_wait rfl rfl rfl rfl (by rw [spawn_of_begun]; rfl)

/-- The result of a spawn ends the call that it was made for, if it was made for one. -/
theorem stretch_spawn_returned (caller : SpawnCaller) (result : Option WorkerRef) :
    Stretch caller.dispatched s (s.spawn_returned cfg env caller result) := by
  cases caller with
  | request a second =>
      cases result with
      | some o =>
          have hActive : Quiet s (s.addActive o 1) := .of_same rfl rfl rfl rfl rfl
          exact (hActive.trans .send_inference).stretch
      | none =>
          cases second with
          | false => exact stretch_create_task rfl
          | true => exact stretch_queue_request
  | dispatch a second =>
      cases result with
      | some o =>
          refine stretch_end_spawn .resolve_pending ?_
          unfold resolve_pending
          split <;> rfl
      | none =>
          cases second with
          | false => exact stretch_create_task rfl
          | true => exact stretch_end_spawn (.refl s) rfl
  | grow a | endpoint a | initial a => exact (Quiet.refl s).stretch

/-- So does an exception. -/
theorem stretch_spawn_raised (caller : SpawnCaller) :
    Stretch caller.dispatched s (s.spawn_raised caller) := by
  cases caller with
  | dispatch a second => exact stretch_end_spawn (.refl s) rfl
  | request a second | grow a | endpoint a | initial a => exact (Quiet.refl s).stretch

/-- A launch goes on with the call or ends it. -/
theorem stretch_launch_worker (caller : SpawnCaller) (worker_id : WorkerId) (device : Device) :
    Stretch caller.dispatched s (s.launch_worker cfg env caller worker_id device) := by
  unfold launch_worker
  split
  next =>
    have hAdd : Quiet s (s.add_worker cfg worker_id device caller.adapter_id) :=
      .of_same rfl rfl rfl rfl rfl
    exact hAdd.trans_stretch (stretch_create_task rfl)
  next => exact stretch_spawn_raised caller

/-- So does a spawn up to its first suspension. -/
theorem stretch_spawn_worker (caller : SpawnCaller) :
    Stretch caller.dispatched s (s.spawn_worker cfg env caller) := by
  unfold spawn_worker
  split
  next => exact stretch_spawn_returned caller none
  next worker_id hNext =>
    split
    next => exact stretch_spawn_returned caller none
    next device hPick =>
      have hCount : Quiet s (s.addCount device 1) := .of_same rfl rfl rfl rfl rfl
      refine hCount.trans_stretch ?_
      dsimp only
      split
      next => exact stretch_launch_worker caller worker_id device
      next => exact stretch_create_task rfl

/-- And the rest of it behind the wait for the aggregator. -/
theorem stretch_aggregator_ensured (caller : SpawnCaller) (worker_id : WorkerId)
    (device : Device) :
    Stretch caller.dispatched s (s.aggregator_ensured cfg env caller worker_id device) := by
  unfold aggregator_ensured
  split
  next =>
    split
    next =>
      have hCount : Quiet s (s.addCount device (-1)) := .of_same rfl rfl rfl rfl rfl
      exact hCount.trans_stretch (stretch_spawn_returned caller none)
    next worker_id hNext => exact stretch_launch_worker caller worker_id device
  next => exact stretch_launch_worker caller worker_id device

/-- A worker that has stopped ends the call that it was spawned for, if that call waited. -/
theorem stretch_stopped (caller : StopCaller) :
    Stretch (Task.stopping caller o).spawn s (s.stopped cfg env o caller) := by
  cases caller with
  | spawn caller => exact (Quiet.remove_worker _).trans_stretch (stretch_spawn_returned caller none)
  | endpoint => exact (Quiet.remove_worker _).stretch
  | process => exact Quiet.stretch (.of_same rfl rfl rfl rfl rfl)

/-- So does a worker that has become ready. -/
theorem stretch_worker_ready (caller : Option SpawnCaller) :
    Stretch (Task.polling caller o adapter_id).spawn s
      (s.worker_ready cfg env caller o adapter_id) := by
  have hReady : Quiet s
      ((s.setStatus o .ready).register (s.infos o).worker_id adapter_id) :=
    .of_same rfl rfl rfl rfl rfl
  cases caller with
  | some caller => exact hReady.trans_stretch (stretch_spawn_returned caller (some o))
  | none => exact hReady.stretch

/-- A swap that has succeeded concerns no spawn. -/
theorem quiet_swap_succeeded (caller : SwapCaller) :
    Quiet s (s.swap_succeeded o adapter_id caller) := by
  have hSwapped : Quiet s (s.adapter_swapped o adapter_id) := .of_same rfl rfl rfl rfl rfl
  unfold swap_succeeded
  split
  next needs_spawn =>
    refine hSwapped.trans ?_
    dsimp only
    split
    next =>
      have hGrow := Quiet.create_task (s := s.adapter_swapped o adapter_id)
        (show (Task.spawnNew (.grow adapter_id)).spawn = none from rfl)
      exact hGrow.trans .send_inference
    next => exact .send_inference
  next f =>
    refine hSwapped.trans ?_
    dsimp only
    split
    next => exact .update_future (by simp)
    next => exact .of_same rfl rfl rfl rfl rfl
  next => exact hSwapped

/-- A swap that has failed may queue a request again, and begins no call. -/
theorem stretch_swap_failed (caller : SwapCaller) :
    Stretch none s (s.swap_failed cfg env o adapter_id caller) := by
  have hBack : Quiet s ((s.setStatus o .ready).addActive o (-1)) := .of_same rfl rfl rfl rfl rfl
  cases caller with
  | request needs_spawn => exact hBack.trans_stretch (stretch_spawn_worker (.request adapter_id false))
  | resolve f =>
      refine hBack.trans_stretch ?_
      unfold swap_failed
      dsimp only
      split
      next hPending =>
        refine ⟨⟨[⟨adapter_id, f⟩], rfl, fun pr hpr => ?_⟩, fun _ hOld => .inl hOld, [],
          (List.append_nil _).symm, (List.append_nil _).symm⟩
        obtain rfl := List.mem_singleton.mp hpr
        exact hPending
      next => exact (Quiet.refl _).stretch
  | detached => exact Quiet.stretch (.of_same rfl rfl rfl rfl rfl)

/-- The same goes for an inference that has to be tried again. -/
theorem stretch_inference_returned (connectFailed : Bool) :
    Stretch none s (s.inference_returned o adapter_id retry connectFailed) := by
  have hEnd : Quiet s (s.end_inference o) := .end_inference
  unfold inference_returned
  dsimp only
  split
  next =>
    refine (hEnd.trans (.remove_worker ((s.end_inference o).infos o).worker_id)).trans_stretch ?_
    exact stretch_wait rfl rfl rfl (List.append_nil _).symm (List.append_nil _).symm
  next => exact hEnd.stretch

/-- A request that gets its worker begins no call. -/
theorem quiet_worker_available {f : FutureId} :
    Quiet s (s.worker_available f o adapter_id retry) := by
  have hDelivered : Quiet s (s.setFuture f (.delivered o)) := .update_future (by simp)
  refine hDelivered.trans ?_
  unfold worker_available
  dsimp only
  split
  next =>
    have hActive : Quiet (s.setFuture f (.delivered o))
        ((s.setFuture f (.delivered o)).addActive o 1) := .of_same rfl rfl rfl rfl rfl
    exact hActive.trans .send_inference
  next => exact .send_inference

/-- The decision of the scheduler reserves a worker at most. -/
theorem quiet_decide_route {best_wid : WorkerId} {decision : RoutingDecision}
    {worker : Option WorkerRef}
    (hDecide : s.decide_route cfg adapter_id best_wid = some (s₁, decision, worker)) :
    Quiet s s₁ ∧ s₁.futures = s.futures := by
  simp only [decide_route, Option.bind_eq_bind, Option.bind_eq_some_iff] at hDecide
  obtain ⟨decision', -, hReserve⟩ := hDecide
  split at hReserve
  next wid needs_swap needs_spawn =>
    split at hReserve
    next o hLookup =>
      obtain ⟨rfl, -⟩ := Prod.mk.inj (Option.some.inj hReserve)
      exact ⟨.of_same rfl rfl rfl rfl rfl, rfl⟩
    next =>
      obtain ⟨rfl, -⟩ := Prod.mk.inj (Option.some.inj hReserve)
      exact ⟨.refl s, rfl⟩
  next =>
    obtain ⟨rfl, -⟩ := Prod.mk.inj (Option.some.inj hReserve)
    exact ⟨.refl s, rfl⟩

/-- The routing of a request begins a swap or a spawn of its own, and no call of
`_spawn_for_dispatch`. -/
theorem stretch_route_request {best_wid : WorkerId}
    (hStep : s.route_request cfg env adapter_id best_wid = some s') : Stretch none s s' := by
  simp only [route_request, Option.bind_eq_bind, Option.bind_eq_some_iff] at hStep
  obtain ⟨⟨s₁, decision, worker⟩, hDecide, hRoute⟩ := hStep
  refine (quiet_decide_route hDecide).1.trans_stretch ?_
  dsimp only at hRoute
  split at hRoute
  next wid needs_spawn o =>
    obtain rfl := Option.some.inj hRoute
    have hStatus : Quiet s₁ (s₁.setStatus o .swapping) := .of_same rfl rfl rfl rfl rfl
    exact (hStatus.trans (.create_task rfl)).stretch
  next wid needs_spawn o =>
    obtain rfl := Option.some.inj hRoute
    split
    next =>
      have hGrow : Quiet s₁ (s₁.create_task (.spawnNew (.grow adapter_id))) := .create_task rfl
      exact (hGrow.trans .send_inference).stretch
    next => exact Quiet.send_inference.stretch
  next =>
    obtain rfl := Option.some.inj hRoute
    exact (Quiet.refl s₁).stretch
  next =>
    obtain rfl := Option.some.inj hRoute
    exact stretch_spawn_worker (.request adapter_id false)
  next =>
    obtain rfl := Option.some.inj hRoute
    exact stretch_queue_request
  next =>
    obtain rfl := Option.some.inj hRoute
    exact (Quiet.refl s₁).stretch

/-- A report concerns no spawn. -/
theorem quiet_update_worker_adapter_info (is_swapping : Bool) :
    Quiet s (s.update_worker_adapter_info o adapter_id is_swapping) := by
  unfold update_worker_adapter_info
  have hReport : Quiet s (s.report_adapter o adapter_id) := .report_adapter
  dsimp only
  split
  next => exact hReport.trans (.of_same rfl rfl rfl rfl rfl)
  next => exact hReport

/-- Nor does a failed health check. -/
theorem quiet_handle_worker_failure : Quiet s (s.handle_worker_failure o) := by
  unfold handle_worker_failure
  split
  next => exact .remove_worker _
  next => exact .of_same rfl rfl rfl rfl rfl

/-- A coroutine that is resumed goes on with its own call or ends it. -/
theorem stretch_resume {task : Task} {outcome : Outcome}
    (hStep : s.resume cfg env task outcome = some s') : Stretch task.spawn s s' := by
  cases resumes_of_resume hStep with
  | @swap caller o a =>
      have hStatus : Quiet s (s.setStatus o .swapping) := .of_same rfl rfl rfl rfl rfl
      exact (hStatus.trans (.create_task rfl)).stretch
  | @swapped caller o a => exact (quiet_swap_succeeded caller).stretch
  | @swapFailed caller o a => exact stretch_swap_failed caller
  | @spawn caller | @retry caller => exact stretch_spawn_worker caller
  | @ensured caller worker_id device =>
      have hReady : Quiet s { s with
          aggregator_ready := Function.update s.aggregator_ready device true } :=
        .of_same rfl rfl rfl rfl rfl
      exact hReady.trans_stretch (stretch_aggregator_ensured caller worker_id device)
  | @notEnsured caller worker_id device =>
      have hCount : Quiet s (s.addCount device (-1)) := .of_same rfl rfl rfl rfl rfl
      exact hCount.trans_stretch (stretch_spawn_returned caller none)
  | @raised caller worker_id device => exact stretch_spawn_raised caller
  | @ready caller o a p hAnswers hInitialized => exact stretch_worker_ready caller
  | @notReady caller o a =>
      have hMark : Quiet s (s.mark_stopping o) := .of_same rfl rfl rfl rfl rfl
      exact hMark.trans_stretch (stretch_create_task rfl)
  | @stopped caller o hExited => exact stretch_stopped caller
  | available hState => exact quiet_worker_available.stretch
  | answered hOutcome => exact stretch_inference_returned false
  | unreached => exact stretch_inference_returned true
  | @healthReady o =>
      split
      next =>
        have hReady : Quiet s (s.setStatus o .ready) := .of_same rfl rfl rfl rfl rfl
        exact (hReady.trans (.create_task rfl)).stretch
      next => exact Quiet.stretch (.create_task rfl)
  | healthUnready =>
      split
      next => exact Quiet.stretch (.of_same rfl rfl rfl rfl rfl)
      next => exact (Quiet.refl s).stretch
  | healthOther => exact Quiet.stretch (.of_same rfl rfl rfl rfl rfl)
  | failure => exact quiet_handle_worker_failure.stretch
  | @info o a is_swapping => exact (quiet_update_worker_adapter_info is_swapping).stretch
  | cancelledEnsuring | cancelledPolling | cancelledStopping | prewarmFailed | expired | noInfo =>
      exact (Quiet.refl s).stretch

/-- The loop over idle workers begins coroutines that stop them. -/
theorem quiet_reap_loop (current_count : Nat) (worker_ids : List WorkerId) :
    Quiet s (reap_loop cfg s current_count worker_ids).1 := by
  induction worker_ids generalizing s current_count with
  | nil => exact .refl s
  | cons wid rest ih =>
      unfold reap_loop
      split
      next => exact .refl s
      next =>
        split
        next => exact ih current_count
        next o hLookup =>
          split
          next => exact ih current_count
          next =>
            have hPop : Quiet s ((s.mark_stopping o).pop_worker wid o) :=
              .of_same rfl rfl rfl rfl rfl
            exact hPop.trans (ih (current_count - 1))

/-- And so does the reaping. -/
theorem quiet_reap (worker_ids : List WorkerId) : Quiet s (s.reap_idle_workers cfg worker_ids) := by
  unfold reap_idle_workers
  split
  next => exact .refl s
  next =>
    have hLoop : Quiet s (reap_loop cfg s s.num_workers worker_ids).1 :=
      quiet_reap_loop s.num_workers worker_ids
    refine hLoop.trans ?_
    dsimp only
    generalize (reap_loop cfg s s.num_workers worker_ids).1 = s₁
    induction (reap_loop cfg s s.num_workers worker_ids).2 generalizing s₁ with
    | nil => exact .refl s₁
    | cons o rest ih =>
        have hUnregister : Quiet s₁ (s₁.unregister (s₁.infos o).worker_id) :=
          .of_same rfl rfl rfl rfl rfl
        exact (hUnregister.trans (.create_task rfl)).trans (ih _)

/-- Rebalancing begins swaps. -/
theorem quiet_rebalance (rebalances : List (WorkerId × AdapterId)) :
    Quiet s (s.rebalance rebalances) := by
  induction rebalances generalizing s with
  | nil => exact .refl s
  | cons r rest ih =>
      refine Quiet.trans ?_ ih
      dsimp only
      split
      next o hLookup =>
        split
        next => exact .create_task rfl
        next => exact .refl s
      next => exact .refl s

/-- The calls that are begun are the ones that are recorded as in progress. -/
theorem stretch_spawn_for_dispatch (adapters : List AdapterId) :
    Stretch none s (s.spawn_for_dispatch adapters) where
  queue := ⟨[], (List.append_nil _).symm, by simp⟩
  futures _ hPending := .inl hPending
  tasks := ⟨_, rfl, by rw [spawn_of_begun]; rfl⟩

/-- Every step other than that of a coroutine, of the dispatcher and of the end of the queue. -/
theorem stretch_step {l : Label} (hStep : step cfg s l = some s')
    (hRun : ∀ i env outcome, l ≠ .run i env outcome)
    (hDispatch : ∀ pruned expired best_wid, l ≠ .dispatch pruned expired best_wid)
    (hCancel : l ≠ .cancelPending) : Stretch none s s' := by
  cases l with
  | run i env outcome => exact absurd rfl (hRun i env outcome)
  | dispatch pruned expired best_wid => exact absurd rfl (hDispatch pruned expired best_wid)
  | cancelPending => exact absurd rfl hCancel
  | request env a best_wid => exact stretch_route_request hStep
  | timeout i =>
      simp only [step] at hStep
      split at hStep
      next f a retry hTask =>
        simp only [Option.ite_none_right_eq_some, Option.some.injEq] at hStep
        obtain ⟨-, rfl⟩ := hStep
        exact Quiet.stretch (.update_future (by simp))
      next => simp at hStep
  | checkAll =>
      simp only [step, Option.ite_none_left_eq_some, Option.some.injEq] at hStep
      obtain ⟨-, rfl⟩ := hStep
      refine Quiet.stretch (.create_all fun task hTask => ?_)
      obtain ⟨entry, -, rfl⟩ := List.mem_map.mp hTask
      rfl
  | reap worker_ids =>
      obtain rfl := Option.some.inj hStep
      exact (quiet_reap worker_ids).stretch
  | proactive rebalances spawns =>
      simp only [step, Option.ite_none_right_eq_some, Option.some.injEq] at hStep
      obtain ⟨-, rfl⟩ := hStep
      exact (quiet_rebalance rebalances).trans_stretch (stretch_spawn_for_dispatch spawns)
  | swapEndpoint worker_id a =>
      obtain ⟨o, hLookup, rfl⟩ := Option.map_eq_some_iff.mp hStep
      have hStatus : Quiet s (s.setStatus o .swapping) := .of_same rfl rfl rfl rfl rfl
      exact (hStatus.trans (.create_task rfl)).stretch
  | spawnEndpoint env a initial =>
      obtain rfl := Option.some.inj hStep
      cases initial with
      | true => exact stretch_spawn_worker (.initial a)
      | false => exact stretch_spawn_worker (.endpoint a)
  | stopEndpoint worker_id =>
      obtain ⟨o, hLookup, rfl⟩ := Option.map_eq_some_iff.mp hStep
      have hMark : Quiet s (s.mark_stopping o) := .of_same rfl rfl rfl rfl rfl
      exact (hMark.trans (.create_task rfl)).stretch
  | prewarm device a =>
      simp only [step, prewarm, Option.bind_eq_bind, Option.bind_eq_some_iff] at hStep
      obtain ⟨worker_id, -, dev, -, hPrewarm⟩ := hStep
      obtain rfl := Option.some.inj hPrewarm
      have hAdd : Quiet s ((s.add_worker cfg worker_id dev a).addCount dev 1) :=
        .of_same rfl rfl rfl rfl rfl
      exact (hAdd.trans (.create_task rfl)).stretch
  | aggregatorReady device =>
      obtain rfl := Option.some.inj hStep
      exact Quiet.stretch (.of_same rfl rfl rfl rfl rfl)
  | listens o =>
      simp only [step, Option.ite_none_right_eq_some, Option.some.injEq] at hStep
      obtain ⟨-, rfl⟩ := hStep
      exact Quiet.stretch (.of_same rfl rfl rfl rfl rfl)
  | initialized o =>
      simp only [step, Option.ite_none_right_eq_some, Option.some.injEq] at hStep
      obtain ⟨-, rfl⟩ := hStep
      exact Quiet.stretch (.of_same rfl rfl rfl rfl rfl)
  | loads i o =>
      simp only [step] at hStep
      split at hStep
      next caller w a hTask =>
        simp only [Option.ite_none_right_eq_some, Option.some.injEq] at hStep
        obtain ⟨-, rfl⟩ := hStep
        exact Quiet.stretch (.of_same rfl rfl rfl rfl rfl)
      next => simp at hStep
  | exits o =>
      simp only [step, Option.ite_none_right_eq_some, Option.some.injEq] at hStep
      obtain ⟨-, rfl⟩ := hStep
      exact Quiet.stretch (.of_same rfl rfl rfl rfl rfl)

end Stretches

end Controller
