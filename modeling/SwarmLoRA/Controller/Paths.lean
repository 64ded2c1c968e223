import SwarmLoRA.Controller.Ledger

namespace Controller

open Machine State Holding

/-- What a worker keeps: only its status, its adapter and its counter change. -/
def WorkerInfo.Keeps (w w' : WorkerInfo) : Prop :=
  ∃ status adapter_id active_requests, w' = { w with status, adapter_id, active_requests }

/-- Nothing changes. -/
theorem WorkerInfo.Keeps.refl (w : WorkerInfo) : w.Keeps w := ⟨_, _, _, rfl⟩

/-- What two steps keep, both keep together. -/
theorem WorkerInfo.Keeps.trans {w w' w'' : WorkerInfo} (hFirst : w.Keeps w')
    (hSecond : w'.Keeps w'') : w.Keeps w'' := by
  obtain ⟨_, _, _, rfl⟩ := hFirst
  obtain ⟨_, _, _, rfl⟩ := hSecond
  exact ⟨_, _, _, rfl⟩

theorem WorkerInfo.Keeps.worker_id {w w' : WorkerInfo} (hKeeps : w.Keeps w') :
    w'.worker_id = w.worker_id := by
  obtain ⟨_, _, _, rfl⟩ := hKeeps
  rfl

theorem WorkerInfo.Keeps.http_port {w w' : WorkerInfo} (hKeeps : w.Keeps w') :
    w'.http_port = w.http_port := by
  obtain ⟨_, _, _, rfl⟩ := hKeeps
  rfl

theorem WorkerInfo.Keeps.device {w w' : WorkerInfo} (hKeeps : w.Keeps w') :
    w'.device = w.device := by
  obtain ⟨_, _, _, rfl⟩ := hKeeps
  rfl

namespace State

variable (s : State) (o p : WorkerRef) (n : Int) (status : WorkerStatus)

/-- Only the written worker's entry changes. -/
theorem infos_setInfo (info : WorkerInfo) :
    (s.setInfo o info).infos p = if p = o then info else s.infos p :=
  Function.update_apply s.infos o info p

@[simp] theorem active_addActive : ((s.addActive o n).infos p).active_requests =
    (s.infos p).active_requests + if p = o then n else 0 := by
  rw [addActive, infos_setInfo]
  split
  next hp => rw [hp]
  next => exact (Int.add_zero _).symm

@[simp] theorem status_addActive : ((s.addActive o n).infos p).status = (s.infos p).status := by
  rw [addActive, infos_setInfo]
  split
  next hp => rw [hp]
  next => rfl

@[simp] theorem active_setStatus :
    ((s.setStatus o status).infos p).active_requests = (s.infos p).active_requests := by
  rw [setStatus, infos_setInfo]
  split
  next hp => rw [hp]
  next => rfl

@[simp] theorem status_setStatus :
    ((s.setStatus o status).infos p).status = if p = o then status else (s.infos p).status := by
  rw [setStatus, infos_setInfo]
  split <;> rfl

/-- Writing an entry that keeps what is to be kept keeps it for every worker. -/
theorem keeps_setInfo {info : WorkerInfo} (hKeeps : (s.infos o).Keeps info) :
    (s.infos p).Keeps ((s.setInfo o info).infos p) := by
  rw [infos_setInfo]
  split
  next hp => rwa [hp]
  next => exact .refl _

theorem keeps_addActive : (s.infos p).Keeps ((s.addActive o n).infos p) :=
  keeps_setInfo s o p ⟨_, _, _, rfl⟩

theorem keeps_setStatus : (s.infos p).Keeps ((s.setStatus o status).infos p) :=
  keeps_setInfo s o p ⟨_, _, _, rfl⟩

@[simp] theorem worker_id_addActive :
    ((s.addActive o n).infos p).worker_id = (s.infos p).worker_id :=
  (keeps_addActive s o p n).worker_id

@[simp] theorem worker_id_setStatus :
    ((s.setStatus o status).infos p).worker_id = (s.infos p).worker_id :=
  (keeps_setStatus s o p status).worker_id

end State

/-- A worker of the pool is under its own id. -/
def PoolScoped (s : State) : Prop :=
  ∀ wid o, s.workers.lookup wid = some o → o < s.nextRef ∧ (s.infos o).worker_id = wid

/-- Workers and futures are made before anything speaks of them. It holds of every reachable state
and inside every step. -/
structure Scoped (cfg : Config) (s : State) : Prop where
  pool : PoolScoped s
  tasks : ∀ task ∈ s.tasks, task.Scoped cfg s
  queue : ∀ pr ∈ s.pending_requests, pr.future < s.nextFuture
  resolved : ∀ f o, (s.futures f).state = .resolved o → o < s.nextRef

/-- The paths of effects that a step of the load balancer with this label is made of. -/
abbrev Path (cfg : Config) (s₀ : State) (l : Label) : Held → Held → Prop :=
  Relation.ReflTransGen (Effect cfg s₀ l)

variable {cfg : Config} {s₀ s s' : State} {l : Label} {h h' : Multiset Holding} {env : Env}
  {o : WorkerRef} {adapter_id : AdapterId} {retry : Bool}

/-- An effect that leaves the pool, the tasks, the queue and the futures alone, and of every
worker its id. -/
theorem Scoped.of_same (hScoped : Scoped cfg s) (hWorkers : s'.workers = s.workers)
    (hIds : ∀ o, (s'.infos o).worker_id = (s.infos o).worker_id) (hRef : s'.nextRef = s.nextRef)
    (hTasks : s'.tasks = s.tasks) (hQueue : s'.pending_requests = s.pending_requests)
    (hFutures : s'.futures = s.futures) (hNext : s'.nextFuture = s.nextFuture) :
    Scoped cfg s' := by
  refine ⟨?_, ?_, ?_, ?_⟩
  · simpa only [PoolScoped, hWorkers, hIds, hRef] using hScoped.pool
  · intro task hTask
    rw [hTasks] at hTask
    obtain ⟨hWorker, hFuture, hId⟩ := hScoped.tasks task hTask
    exact ⟨hRef ▸ hWorker, hNext ▸ hFuture, hId⟩
  · simpa only [hQueue, hNext] using hScoped.queue
  · simpa only [hFutures, hRef] using hScoped.resolved

/-- What is in scope stays so: references and futures are only ever made. -/
theorem Task.Scoped.mono {task : Task} (hScoped : task.Scoped cfg s) (hRef : s.nextRef ≤ s'.nextRef)
    (hNext : s.nextFuture ≤ s'.nextFuture) : task.Scoped cfg s' :=
  ⟨fun o ho => (hScoped.worker o ho).trans_le hRef,
    fun f hf => (hScoped.future f hf).trans_le hNext, hScoped.worker_id⟩

/-- Taking a worker out leaves those that were there. -/
theorem PoolScoped.pop (hPool : PoolScoped s) (wid : WorkerId) (o : WorkerRef) :
    PoolScoped (s.pop_worker wid o) := by
  intro w p hLookup
  simp only [pop_worker] at hLookup ⊢
  by_cases hw : w = wid
  · subst hw
    simp at hLookup
  · rw [AList.lookup_erase_ne hw] at hLookup
    exact hPool w p hLookup

/-- A future takes another state. -/
theorem Scoped.setFuture (hScoped : Scoped cfg s) (f : FutureId) (future : Future)
    (hResolved : ∀ o, future.state = .resolved o → o < s.nextRef) :
    Scoped cfg { s with futures := Function.update s.futures f future } := by
  refine ⟨hScoped.pool, fun task hTask => (hScoped.tasks task hTask).mono le_rfl le_rfl,
    hScoped.queue, ?_⟩
  intro g o hState
  by_cases hg : g = f
  · subst hg
    simp only [Function.update_self] at hState
    exact hResolved o hState
  · simp only [Function.update_of_ne hg] at hState
    exact hScoped.resolved g o hState

/-- An effect keeps everything in scope, the task that it puts included. -/
theorem Scoped.effect (hScoped : Scoped cfg s) (hEffect : Effect cfg s₀ l (s, h) (s', h')) :
    Scoped cfg s' := by
  cases hEffect with
  | take hTask =>
      refine ⟨hScoped.pool, fun task hMem => ?_, hScoped.queue, hScoped.resolved⟩
      exact (hScoped.tasks task (List.mem_of_mem_eraseIdx hMem)).mono le_rfl le_rfl
  | put hHolds hTask hBegun =>
      refine ⟨hScoped.pool, fun task hMem => ?_, hScoped.queue, hScoped.resolved⟩
      rcases List.mem_append.mp hMem with hOld | hNew
      · exact (hScoped.tasks task hOld).mono le_rfl le_rfl
      · rw [List.mem_singleton.mp hNew]
        exact hTask.mono le_rfl le_rfl
  | reserve => exact hScoped.of_same rfl (by simp) rfl rfl rfl rfl rfl
  | reserveTwice => exact hScoped.of_same rfl (by simp) rfl rfl rfl rfl rfl
  | release => exact hScoped.of_same rfl (by simp) rfl rfl rfl rfl rfl
  | queue =>
      have hNew : Scoped cfg { s with futures := Function.update s.futures s.nextFuture {} } :=
        hScoped.setFuture s.nextFuture {} (by simp)
      refine ⟨hNew.pool, fun task hMem => ?_, fun pr hMem => ?_, hNew.resolved⟩
      · rcases List.mem_append.mp hMem with hOld | hNew
        · exact (hScoped.tasks task hOld).mono le_rfl (Nat.le_succ _)
        · rw [List.mem_singleton.mp hNew]
          exact ⟨by simp [Task.worker], by simp [Task.future, wait_for_available_worker],
            by simp [Task.worker_id]⟩
      · rcases List.mem_append.mp hMem with hOld | hNew
        · exact (hScoped.queue pr hOld).trans (Nat.lt_succ_self _)
        · rw [List.mem_singleton.mp hNew]
          exact Nat.lt_succ_self _
  | requeue hFuture =>
      refine ⟨hScoped.pool, fun task hMem => (hScoped.tasks task hMem).mono le_rfl le_rfl,
        fun pr hMem => ?_, hScoped.resolved⟩
      rcases List.mem_append.mp hMem with hOld | hNew
      · exact hScoped.queue pr hOld
      · rw [List.mem_singleton.mp hNew]
        exact hFuture
  | dequeue hHead =>
      refine ⟨hScoped.pool, fun task hMem => (hScoped.tasks task hMem).mono le_rfl le_rfl,
        fun pr hMem => ?_, hScoped.resolved⟩
      exact hScoped.queue pr (hHead ▸ List.mem_cons_of_mem _ hMem)
  | drop => exact hScoped
  | @resolve _ _ f o hWorker =>
      refine hScoped.setFuture f _ ?_
      simpa using hWorker
  | @deliver _ _ f => exact hScoped.setFuture f _ (by simp)
  | @cancel _ _ f => exact hScoped.setFuture f _ (by simp)
  | notice => exact hScoped
  | reserveSlot => exact hScoped.of_same rfl (fun _ => rfl) rfl rfl rfl rfl rfl
  | releaseSlot => exact hScoped.of_same rfl (fun _ => rfl) rfl rfl rfl rfl rfl
  | leakSlot => exact hScoped
  | @launch _ _ dev wid a hFree =>
      refine ⟨?_, fun task hMem => (hScoped.tasks task hMem).mono (Nat.le_succ _) le_rfl,
        hScoped.queue, fun f o hState => (hScoped.resolved f o hState).trans (Nat.lt_succ_self _)⟩
      intro wid' o hLookup
      simp only [add_worker] at hLookup ⊢
      by_cases hw : wid' = wid
      · subst hw
        rw [AList.lookup_insert, Option.some.injEq] at hLookup
        subst hLookup
        simp
      · rw [AList.lookup_insert_ne hw] at hLookup
        obtain ⟨hRef, hId⟩ := hScoped.pool wid' o hLookup
        rw [Function.update_of_ne hRef.ne]
        exact ⟨hRef.trans (Nat.lt_succ_self _), hId⟩
  | @pop _ _ wid o =>
      exact ⟨hScoped.pool.pop wid o,
        fun task hMem => (hScoped.tasks task hMem).mono le_rfl le_rfl,
        hScoped.queue, hScoped.resolved⟩
  | unregister => exact hScoped.of_same rfl (fun _ => rfl) rfl rfl rfl rfl rfl
  | register => exact hScoped.of_same rfl (fun _ => rfl) rfl rfl rfl rfl rfl
  | write => exact hScoped.of_same rfl (by simp) rfl rfl rfl rfl rfl
  | markStopping => exact hScoped.of_same rfl (by simp [mark_stopping]) rfl rfl rfl rfl rfl
  | beginSwap => exact hScoped.of_same rfl (by simp) rfl rfl rfl rfl rfl
  | endSwap => exact hScoped.of_same rfl (by simp) rfl rfl rfl rfl rfl
  | reportSwapping => exact hScoped.of_same rfl (by simp) rfl rfl rfl rfl rfl
  | @setAdapter _ _ o a =>
      have hKeeps : ∀ p, (s.infos p).Keeps
          ((s.setInfo o { s.infos o with adapter_id := a }).infos p) :=
        fun p => keeps_setInfo s o p ⟨_, _, _, rfl⟩
      exact hScoped.of_same rfl (fun p => (hKeeps p).worker_id) rfl rfl rfl rfl rfl
  | spawning => exact hScoped.of_same rfl (fun _ => rfl) rfl rfl rfl rfl rfl
  | aggregator => exact hScoped.of_same rfl (fun _ => rfl) rfl rfl rfl rfl rfl
  | process => exact hScoped.of_same rfl (fun _ => rfl) rfl rfl rfl rfl rfl

/-- No effect takes a future back. -/
theorem Effect.nextFuture_le (hEffect : Effect cfg s₀ l (s, h) (s', h')) :
    s.nextFuture ≤ s'.nextFuture := by
  cases hEffect <;> first | exact le_rfl | exact Nat.le_succ _

/-- A worker that exists goes on existing, with its id, its port and its device. -/
theorem Effect.keeps (hEffect : Effect cfg s₀ l (s, h) (s', h')) (hWorker : o < s.nextRef) :
    o < s'.nextRef ∧ (s.infos o).Keeps (s'.infos o) := by
  cases hEffect with
  | reserve | reserveTwice | release => exact ⟨hWorker, keeps_addActive _ _ _ _⟩
  | resolve => exact ⟨hWorker, .refl _⟩
  | launch =>
      refine ⟨hWorker.trans (Nat.lt_succ_self _), ?_⟩
      simp only [add_worker]
      rw [Function.update_of_ne hWorker.ne]
      exact .refl _
  | write | beginSwap | endSwap | reportSwapping => exact ⟨hWorker, keeps_setStatus _ _ _ _⟩
  | @markStopping _ _ p => exact ⟨hWorker, keeps_setStatus s p o .stopping⟩
  | setAdapter => exact ⟨hWorker, keeps_setInfo _ _ _ ⟨_, _, _, rfl⟩⟩
  | _ => exact ⟨hWorker, .refl _⟩

/-- A process keeps its port, and does not come back or forget that it is to stop. -/
theorem Effect.process_keeps (hEffect : Effect cfg s₀ l (s, h) (s', h')) (hWorker : o < s.nextRef) :
    (s'.procs o).port = (s.procs o).port ∧
      ((s.procs o).exited = true → (s'.procs o).exited = true) ∧
      ((s.procs o).asked_to_stop = true → (s'.procs o).asked_to_stop = true) := by
  cases hEffect with
  | launch =>
      simp only [add_worker, Function.update_of_ne hWorker.ne]
      exact ⟨trivial, id, id⟩
  | @markStopping _ _ p =>
      by_cases hp : o = p
      · simp [mark_stopping, hp]
      · simp only [mark_stopping, Function.update_of_ne hp]
        exact ⟨trivial, id, id⟩
  | @process _ _ p proc _ hPort hExited hAsked =>
      by_cases hp : o = p
      · subst hp
        simp only [Function.update_self]
        exact ⟨hPort, hExited, fun hOld => hAsked.trans hOld⟩
      · simp only [Function.update_of_ne hp]
        exact ⟨trivial, id, id⟩
  | _ => exact ⟨rfl, id, id⟩

/-- What is in scope at the beginning of a path is in scope all along it. -/
theorem Scoped.path (hScoped : Scoped cfg s) (path : Path cfg s₀ l (s, h) (s', h')) :
    Scoped cfg s' :=
  preserved_of_path (I := fun x : Held => Scoped cfg x.1) (fun _ _ h hEffect => h.effect hEffect)
    path hScoped

theorem nextFuture_le_of_path (path : Path cfg s₀ l (s, h) (s', h')) :
    s.nextFuture ≤ s'.nextFuture :=
  preserved_of_path (I := fun x : Held => s.nextFuture ≤ x.1.nextFuture)
    (fun _ _ hLe hEffect => hLe.trans hEffect.nextFuture_le) path le_rfl

/-- Tasks that hold nothing are put down one after the other. -/
theorem path_put_all {tasks : List Task}
    (hTasks : ∀ task ∈ tasks, task.holds = 0 ∧ task.Scoped cfg s ∧ task.Begun s.procs) :
    Path cfg s₀ l (s, h) ({ s with tasks := s.tasks ++ tasks }, h) := by
  induction tasks generalizing s with
  | nil => rw [List.append_nil]
  | cons task rest ih =>
      obtain ⟨hHolds, hScoped, hBegun⟩ := hTasks task List.mem_cons_self
      have hRest := ih (s := s.create_task task) fun t ht =>
        (hTasks t (List.mem_cons_of_mem _ ht)).imp_right fun hOld =>
          ⟨hOld.1.mono le_rfl le_rfl, hOld.2⟩
      refine .head (.put (by rw [hHolds, zero_add]) hScoped hBegun) ?_
      simpa [create_task] using hRest

/-- A task that names one worker and nothing else. -/
theorem scoped_of_worker {task : Task} (hTask : task.worker = some o) (hFuture : task.future = none)
    (hId : task.worker_id = none) (hWorker : o < s.nextRef) : task.Scoped cfg s :=
  ⟨by simpa [hTask] using hWorker, by simp [hFuture], by simp [hId]⟩

/-- A task that names no worker, no future and no id. -/
theorem scoped_of_nothing {task : Task} (hTask : task.worker = none) (hFuture : task.future = none)
    (hId : task.worker_id = none) : task.Scoped cfg s :=
  ⟨by simp [hTask], by simp [hFuture], by simp [hId]⟩

/-- The reservation in hand goes over to the inference call. -/
theorem path_send_inference (hWorker : o < s.nextRef) :
    Path cfg s₀ l (s, reservation o ::ₘ h) (s.send_inference o adapter_id retry, h) := by
  unfold send_inference
  split
  next => exact .single .release
  next => exact .single (.put rfl (scoped_of_worker rfl rfl rfl hWorker) trivial)

/-- A call of `_spawn_for_dispatch` is begun for each of the adapters. -/
theorem path_spawn_for_dispatch {adapters : List AdapterId} :
    Path cfg s₀ l (s, h) (s.spawn_for_dispatch adapters, h) := by
  have hPut : Path cfg s₀ l (s, h) ({ s with
      tasks := s.tasks ++ adapters.map fun a => .spawnNew (.dispatch a false) }, h) := by
    apply path_put_all
    intro task hTask
    obtain ⟨a, -, rfl⟩ := List.mem_map.mp hTask
    exact ⟨rfl, scoped_of_nothing rfl rfl rfl, trivial⟩
  exact hPut.tail .spawning

/-- The request gets a future and an entry in the queue, and a coroutine that waits for it. -/
theorem path_queue_request :
    Path cfg s₀ l (s, h) (s.queue_request cfg adapter_id env, h) :=
  path_spawn_for_dispatch.tail .queue

/-- A spawn that has failed goes back to its caller, who may have been waiting or looking for
more. -/
theorem path_spawn_returned_none {caller : SpawnCaller} :
    Path cfg s₀ l (s, h) (s.spawn_returned cfg env caller none, h) := by
  cases caller with
  | request a second =>
      cases second with
      | false => exact .single (.put (zero_add h).symm (scoped_of_nothing rfl rfl rfl) trivial)
      | true => exact path_queue_request
  | dispatch a second =>
      cases second with
      | false => exact .single (.put (zero_add h).symm (scoped_of_nothing rfl rfl rfl) trivial)
      | true => exact .single .spawning
  | grow a => exact .refl
  | endpoint a => exact .refl
  | initial a => exact .refl

/-- An exception passes through the callers of a spawn. -/
theorem path_spawn_raised {caller : SpawnCaller} :
    Path cfg s₀ l (s, h) (s.spawn_raised caller, h) := by
  cases caller with
  | dispatch a second => exact .single .spawning
  | _ => exact .refl

/-- The worker is handed to the first entry of the queue that asks for the adapter. The worker
must not have been reserved since the step began. -/
theorem path_resolve_pending (hWorker : o < s.nextRef) (hHands : s₀.handsOver l = some o)
    (hSame : (s.infos o).active_requests = (s₀.infos o).active_requests)
    (hQueue : ∀ pr ∈ s.pending_requests, pr.future < s.nextFuture) :
    Path cfg s₀ l (s, h) (s.resolve_pending adapter_id o, h) := by
  unfold resolve_pending
  split
  next pr hFind =>
    have hSuits := List.find?_some hFind
    have hPending : s.isPending pr.future = true := (of_decide_eq_true hSuits).1
    exact (Relation.ReflTransGen.single (.reserve hWorker (.inr ⟨hHands, hSame⟩))).tail
      (.resolve hWorker (hQueue pr (List.mem_of_find?_eq_some hFind)) hPending)
  next => exact .refl

/-- A spawn that has succeeded goes back to its caller with a worker that nobody else has
reserved. -/
theorem path_spawn_returned_some {caller : SpawnCaller} (hWorker : o < s.nextRef)
    (hHands : (∃ a second, caller = .request a second ∨ caller = .dispatch a second) →
      s₀.handsOver l = some o)
    (hSame : (s.infos o).active_requests = (s₀.infos o).active_requests)
    (hQueue : ∀ pr ∈ s.pending_requests, pr.future < s.nextFuture) :
    Path cfg s₀ l (s, h) (s.spawn_returned cfg env caller (some o), h) := by
  cases caller with
  | request a second =>
      have hOver := hHands ⟨a, second, .inl rfl⟩
      exact .head (.reserve hWorker (.inr ⟨hOver, hSame⟩)) (path_send_inference hWorker)
  | dispatch a second =>
      have hOver := hHands ⟨a, second, .inr rfl⟩
      exact (path_resolve_pending hWorker hOver hSame hQueue).tail .spawning
  | grow a => exact .refl
  | endpoint a => exact .refl
  | initial a => exact .refl

/-- The id is free and below the limit. -/
theorem next_worker_id_spec {worker_id : WorkerId} (hNext : s.get_next_worker_id cfg = some worker_id) :
    worker_id ∉ s.workers ∧ worker_id < cfg.max_workers :=
  ⟨by simpa using List.find?_some hNext,
    List.mem_range.mp (List.mem_of_find?_eq_some hNext)⟩

/-- A device is picked only while it has room. -/
theorem pick_device_spec {dev : Device} (hPick : s.pick_device cfg = some dev) :
    ∀ cap ∈ cfg.cap dev, s.gpu_worker_count dev < cap := by
  have hRoom := List.find?_some hPick
  intro cap hCap
  simpa [Option.mem_def.mp hCap] using hRoom

/-- A launch that does not succeed raises. -/
theorem raises_of_launches {worker_id : WorkerId}
    (hLaunches : s₀.launches cfg l = some (worker_id, false)) : s₀.raises cfg l = true := by
  unfold raises
  split <;> simp_all

/-- The worker is put into the pool under a free id, and the place on the device goes over to it. -/
theorem path_launch_worker {caller : SpawnCaller} {worker_id : WorkerId} {dev : Device}
    (hFree : worker_id ∉ s.workers) (hId : worker_id < cfg.max_workers)
    (hLaunches : s₀.launches cfg l = some (worker_id, env.launched)) (hProcs : s.procs = s₀.procs)
    (hRef : s.nextRef = s₀.nextRef) :
    Path cfg s₀ l (s, slot dev ::ₘ h) (s.launch_worker cfg env caller worker_id dev, h) := by
  unfold launch_worker
  split
  next hLaunched =>
    rw [hLaunched] at hLaunches
    exact .head (.launch hFree hId hLaunches hProcs hRef) (.single (.put (zero_add h).symm
      (scoped_of_worker rfl rfl rfl (Nat.lt_succ_self _)) (by simp [Task.Begun, add_worker])))
  next hLaunched =>
    rw [Bool.not_eq_true] at hLaunched
    rw [hLaunched] at hLaunches
    exact .head (.leakSlot (raises_of_launches hLaunches)) path_spawn_raised

/-- A spawn up to its first suspension: it finds no id or no device, or takes a place on the
device. -/
theorem path_spawn_worker {caller : SpawnCaller} (hLaunches : s₀.launches cfg l = s.spawns cfg env)
    (hProcs : s.procs = s₀.procs) (hRef : s.nextRef = s₀.nextRef) :
    Path cfg s₀ l (s, h) (s.spawn_worker cfg env caller, h) := by
  unfold spawn_worker
  split
  next => exact path_spawn_returned_none
  next worker_id hNext =>
    split
    next => exact path_spawn_returned_none
    next dev hPick =>
      obtain ⟨hFree, hId⟩ := next_worker_id_spec hNext
      refine .head (.reserveSlot (.inl (pick_device_spec hPick))) ?_
      dsimp only
      split
      next hReady =>
        refine path_launch_worker hFree hId ?_ hProcs hRef
        rw [hLaunches, spawns, hNext, hPick]
        exact if_pos hReady
      next => exact .single (.put rfl ⟨by simp [Task.worker], by simp [Task.future],
        by simpa [Task.worker_id] using hId⟩ trivial)

/-- The rest of a spawn once the aggregator of the device is there. -/
theorem path_aggregator_ensured {caller : SpawnCaller} {worker_id : WorkerId} {dev : Device}
    (hId : worker_id < cfg.max_workers) (hLaunches : s₀.launches cfg l = s.ensured cfg env worker_id)
    (hProcs : s.procs = s₀.procs) (hRef : s.nextRef = s₀.nextRef) :
    Path cfg s₀ l (s, slot dev ::ₘ h) (s.aggregator_ensured cfg env caller worker_id dev, h) := by
  unfold aggregator_ensured
  split
  next hTaken =>
    rw [ensured, if_pos hTaken] at hLaunches
    split
    next => exact .head .releaseSlot path_spawn_returned_none
    next worker_id hNext =>
      rw [hNext] at hLaunches
      obtain ⟨hFree, hId⟩ := next_worker_id_spec hNext
      exact path_launch_worker hFree hId hLaunches hProcs hRef
  next hFree =>
    rw [ensured, if_neg hFree] at hLaunches
    exact path_launch_worker hFree hId hLaunches hProcs hRef

/-- A worker that is removed gives back its place, and what was kept under its id goes. -/
theorem path_remove_worker {worker_id : WorkerId} (hRemoves : s₀.removes l worker_id)
    (hWorkers : s.workers = s₀.workers) (hProcs : s.procs = s₀.procs) :
    Path cfg s₀ l (s, h) (s.remove_worker worker_id, h) := by
  unfold remove_worker
  split
  next o hLookup =>
    exact .head (.pop hLookup (.inl ⟨hRemoves, hWorkers, hProcs⟩))
      (.single (.unregister (.inl hRemoves)))
  next => exact .single (.unregister (.inl hRemoves))

/-- Stopping begins with the mark; who waits for the end of the process is put on the list. -/
theorem path_stop_worker {caller : StopCaller} (hWorker : o < s.nextRef) :
    Path cfg s₀ l (s, h) (s.stop_worker caller o, h) := by
  have hMark : Path cfg s₀ l (s, h) (s.mark_stopping o, h) := .single (.markStopping hWorker)
  have hTask : (Task.stopping caller o).Scoped cfg (s.mark_stopping o) :=
    scoped_of_worker rfl rfl rfl hWorker
  exact hMark.tail (.put (zero_add h).symm hTask trivial)

/-- The process has exited, and the worker goes if it is still there. -/
theorem path_stopped {caller : StopCaller} (hFor : s₀.removesFor l = some o)
    (hWorkers : s.workers = s₀.workers) (hProcs : s.procs = s₀.procs)
    (hSame : (s.infos o).worker_id = (s₀.infos o).worker_id) :
    Path cfg s₀ l (s, h) (s.stopped cfg env o caller, h) := by
  have hRemoves : s₀.removes l (s.infos o).worker_id := ⟨o, hFor, hSame⟩
  cases caller with
  | spawn caller =>
      exact (path_remove_worker hRemoves hWorkers hProcs).trans path_spawn_returned_none
  | endpoint => exact path_remove_worker hRemoves hWorkers hProcs
  | process => exact .single (.unregister (.inl hRemoves))

/-- A worker that has become ready is marked and goes to the caller of its spawn. -/
theorem path_worker_ready {caller : Option SpawnCaller} (hWorker : o < s.nextRef)
    (hWrite : s₀.overwritesFrom l s o)
    (hHands : ∀ a second, caller = some (.request a second) ∨ caller = some (.dispatch a second) →
      s₀.handsOver l = some o)
    (hSame : (s.infos o).active_requests = (s₀.infos o).active_requests)
    (hQueue : ∀ pr ∈ s.pending_requests, pr.future < s.nextFuture) :
    Path cfg s₀ l (s, h) (s.worker_ready cfg env caller o adapter_id, h) := by
  have hReady : Path cfg s₀ l (s, h)
      ((s.setStatus o .ready).register (s.infos o).worker_id adapter_id, h) :=
    .head (.write hWorker (by decide) (.inl hWrite)) (.single .register)
  cases caller with
  | none => exact hReady
  | some caller =>
      refine hReady.trans (path_spawn_returned_some hWorker ?_ ?_ hQueue)
      rotate_left
      · exact (active_setStatus s o o .ready).trans hSame
      rintro ⟨a, second, rfl | rfl⟩
      · exact hHands a second (.inl rfl)
      · exact hHands a second (.inr rfl)

/-- A caller of a swap names nothing beyond its worker and its future. -/
theorem SwapCaller.scoped {caller : SwapCaller} {a : AdapterId} (hWorker : o < s.nextRef)
    (hFuture : ∀ f, caller = .resolve f → f < s.nextFuture) :
    (Task.swapping caller o a).Scoped cfg s ∧ (Task.swapNew caller o a).Scoped cfg s := by
  cases caller with
  | resolve f =>
      have hLt := hFuture f rfl
      exact ⟨⟨by simpa [Task.worker] using hWorker, by simpa [Task.future] using hLt,
          by simp [Task.worker_id]⟩,
        ⟨by simpa [Task.worker] using hWorker, by simpa [Task.future] using hLt,
          by simp [Task.worker_id]⟩⟩
  | request needs_spawn =>
      exact ⟨scoped_of_worker rfl rfl rfl hWorker, scoped_of_worker rfl rfl rfl hWorker⟩
  | detached => exact ⟨scoped_of_worker rfl rfl rfl hWorker, scoped_of_worker rfl rfl rfl hWorker⟩

/-- A swap begins, unless the worker is being stopped. What the caller holds goes over to the
swap. -/
theorem path_swap_worker_adapter {caller : SwapCaller} (hWorker : o < s.nextRef)
    (hFuture : ∀ f, caller = .resolve f → f < s.nextFuture)
    (hWrite : s₀.overwritesFrom l s o ∨ (s.infos o).status ≠ .stopping) :
    Path cfg s₀ l (s, caller.holds o + h) (s.swap_worker_adapter caller o adapter_id, h) := by
  have hTask : (Task.swapping caller o adapter_id).Scoped cfg (s.setStatus o .swapping) :=
    (SwapCaller.scoped hWorker hFuture).1.mono le_rfl le_rfl
  refine .head (.beginSwap hWorker hWrite) (.single (.put ?_ hTask trivial))
  rw [Task.holds, Multiset.cons_add]

/-- An entry that is not to be given a worker any more is dropped. -/
theorem path_resolve {f : FutureId} (hWorker : o < s.nextRef) (hFuture : f < s.nextFuture) :
    Path cfg s₀ l (s, reservation o ::ₘ entry f ::ₘ h)
      (if s.isPending f then s.set_result f o else s.addActive o (-1), h) := by
  split
  next hPending =>
    refine .head (.resolve hWorker hFuture hPending) (.single (.drop ?_))
    simp [isPending, set_result]
  next hDone =>
    rw [Bool.not_eq_true] at hDone
    exact .head .release (.single (.drop hDone))

/-- A swap that has succeeded: its caller goes on with the worker. -/
theorem path_swap_succeeded {caller : SwapCaller} (hWorker : o < s.nextRef)
    (hFuture : ∀ f, caller = .resolve f → f < s.nextFuture) (hWrite : s₀.overwritesFrom l s o) :
    Path cfg s₀ l (s, swap o ::ₘ (caller.holds o + h)) (s.swap_succeeded o adapter_id caller, h) := by
  have hSwapped : Path cfg s₀ l (s, swap o ::ₘ (caller.holds o + h))
      (s.adapter_swapped o adapter_id, caller.holds o + h) :=
    .head (.setAdapter hWorker) (.head .register (.single (.endSwap hWorker hWrite)))
  refine hSwapped.trans ?_
  cases caller with
  | request needs_spawn =>
      rw [SwapCaller.holds, Multiset.singleton_add]
      cases needs_spawn with
      | false => exact path_send_inference hWorker
      | true =>
          have hGrow : Path cfg s₀ l (s.adapter_swapped o adapter_id, reservation o ::ₘ h)
              ((s.adapter_swapped o adapter_id).create_task (.spawnNew (.grow adapter_id)),
                reservation o ::ₘ h) :=
            .single (.put (zero_add _).symm (scoped_of_nothing rfl rfl rfl) trivial)
          exact hGrow.trans (path_send_inference hWorker)
  | resolve f =>
      rw [SwapCaller.holds, Multiset.cons_add, Multiset.singleton_add]
      exact path_resolve hWorker (hFuture f rfl)
  | detached =>
      rw [SwapCaller.holds, zero_add]
      exact .refl

/-- A swap that has failed: the queued request goes back into the queue, the routed one spawns. -/
theorem path_swap_failed {caller : SwapCaller} (hWorker : o < s.nextRef)
    (hFuture : ∀ f, caller = .resolve f → f < s.nextFuture) (hWrite : s₀.overwritesFrom l s o)
    (hLaunches : (∃ needs_spawn, caller = .request needs_spawn) →
      s₀.launches cfg l = s.spawns cfg env)
    (hProcs : s.procs = s₀.procs) (hRef : s.nextRef = s₀.nextRef) :
    Path cfg s₀ l (s, swap o ::ₘ (caller.holds o + h)) (s.swap_failed cfg env o adapter_id caller, h) := by
  have hEnded : Path cfg s₀ l (s, swap o ::ₘ (caller.holds o + h))
      (s.setStatus o .ready, caller.holds o + h) :=
    .single (.endSwap hWorker hWrite)
  refine hEnded.trans ?_
  cases caller with
  | request needs_spawn =>
      rw [SwapCaller.holds, Multiset.singleton_add]
      exact .head .release (path_spawn_worker (hLaunches ⟨needs_spawn, rfl⟩) hProcs hRef)
  | resolve f =>
      rw [SwapCaller.holds, Multiset.cons_add, Multiset.singleton_add]
      refine .head .release ?_
      unfold swap_failed
      dsimp only
      split
      next => exact .single (.requeue (hFuture f rfl))
      next hDone =>
        rw [Bool.not_eq_true] at hDone
        exact .single (.drop hDone)
  | detached =>
      rw [SwapCaller.holds, zero_add]
      exact .refl

/-- The reservation is given back. -/
theorem path_end_inference (hWorker : o < s.nextRef) :
    Path cfg s₀ l (s, reservation o ::ₘ h) (s.end_inference o, h) := by
  unfold end_inference
  refine .head .release ?_
  dsimp only
  split
  next hStatus => exact .single (.write hWorker (by simp) (.inr (by rw [hStatus]; decide)))
  next => exact .refl

/-- The end of an inference concerns no worker but its own, and of that only its counter. -/
theorem end_inference_frame : (s.end_inference o).workers = s.workers ∧
    (s.end_inference o).procs = s.procs ∧
    ((s.end_inference o).infos o).worker_id = (s.infos o).worker_id := by
  unfold end_inference
  dsimp only
  split <;> exact ⟨rfl, rfl, by simp⟩

/-- After an inference call the reservation is given back, and a lost connection may remove the
worker. -/
theorem path_inference_returned {connectFailed : Bool} (hWorker : o < s.nextRef)
    (hFor : connectFailed = true → retry = false → s₀.removesFor l = some o)
    (hWorkers : s.workers = s₀.workers) (hProcs : s.procs = s₀.procs)
    (hSame : (s.infos o).worker_id = (s₀.infos o).worker_id) :
    Path cfg s₀ l (s, reservation o ::ₘ h)
      (s.inference_returned o adapter_id retry connectFailed, h) := by
  unfold inference_returned
  refine (path_end_inference hWorker).trans ?_
  dsimp only
  split
  next hRetry =>
    obtain ⟨hFailed, hFirst⟩ : connectFailed = true ∧ retry = false := by simpa using hRetry
    obtain ⟨hPool, hSameProcs, hId⟩ := end_inference_frame (s := s) (o := o)
    have hRemoves : s₀.removes l ((s.end_inference o).infos o).worker_id :=
      ⟨o, hFor hFailed hFirst, hId.trans hSame⟩
    exact (path_remove_worker hRemoves (hPool.trans hWorkers) (hSameProcs.trans hProcs)).tail .queue
  next => exact .refl

/-- The request that waited gets its worker, and so does the dispatcher if it looks for a second
one. -/
theorem path_worker_available {f : FutureId} (hWorker : o < s.nextRef) (hFuture : f < s.nextFuture)
    (hResolved : (s.futures f).state = .resolved o)
    (hRetried : retry = true → s₀.retried l = some o) :
    Path cfg s₀ l (s, waiter f ::ₘ h) (s.worker_available f o adapter_id retry, h) := by
  refine .head (.deliver hFuture hResolved) ?_
  unfold worker_available
  dsimp only
  split
  next hRetry => exact .head (.reserveTwice (hRetried hRetry)) (path_send_inference hWorker)
  next => exact path_send_inference hWorker

/-- What a decision of the scheduler comes to: a free worker of the pool is reserved, or
nothing changes. -/
theorem decide_route_cases {best_wid : WorkerId} {decision : RoutingDecision}
    {worker : Option WorkerRef} (hPool : PoolScoped s)
    (hDecide : s.decide_route cfg adapter_id best_wid = some (s', decision, worker)) :
    (∃ o wid needs_swap needs_spawn, worker = some o ∧ decision = .route wid needs_swap needs_spawn ∧
      s' = s.addActive o 1 ∧ o < s.nextRef ∧ (s.infos o).active_requests = 0 ∧
      (s.infos o).status = .ready) ∨
    worker = none ∧ s' = s ∧ cfg.scheduler.route_request s.build_worker_snapshots
      (s.registry.adapter_to_workers adapter_id) s.num_workers cfg.max_workers best_wid =
        some decision := by
  simp only [decide_route, Option.bind_eq_bind, Option.bind_eq_some_iff] at hDecide
  obtain ⟨d, hRoute, hReserve⟩ := hDecide
  cases d with
  | route wid needs_swap needs_spawn =>
      simp only at hReserve
      split at hReserve
      next o hLookup =>
        simp only [Option.some.injEq, Prod.mk.injEq] at hReserve
        obtain ⟨rfl, rfl, rfl⟩ := hReserve
        obtain ⟨w, hFree, hId⟩ := cfg.scheduler.routes_free hRoute
        simp only [free, List.mem_filter, decide_eq_true_eq] at hFree
        obtain ⟨hMem, hReady, hIdle⟩ := hFree
        obtain ⟨⟨wid', o'⟩, hEntry, rfl⟩ := List.mem_map.mp hMem
        have hOther := AList.mem_lookup_iff.mpr hEntry
        have hKey := (hPool wid' o' hOther).2
        have hSame : o' = o := by
          simp only at hId
          rw [hKey] at hId
          subst hId
          exact Option.some.inj (hOther.symm.trans hLookup)
        subst hSame
        exact .inl ⟨_, _, _, _, rfl, rfl, rfl, (hPool wid o' hLookup).1, hIdle, hReady⟩
      next =>
        simp only [Option.some.injEq, Prod.mk.injEq] at hReserve
        obtain ⟨rfl, rfl, rfl⟩ := hReserve
        exact .inr ⟨rfl, rfl, hRoute⟩
  | spawn =>
      simp only [Option.some.injEq, Prod.mk.injEq] at hReserve
      obtain ⟨rfl, rfl, rfl⟩ := hReserve
      exact .inr ⟨rfl, rfl, hRoute⟩
  | queue =>
      simp only [Option.some.injEq, Prod.mk.injEq] at hReserve
      obtain ⟨rfl, rfl, rfl⟩ := hReserve
      exact .inr ⟨rfl, rfl, hRoute⟩
  | reject =>
      simp only [Option.some.injEq, Prod.mk.injEq] at hReserve
      obtain ⟨rfl, rfl, rfl⟩ := hReserve
      exact .inr ⟨rfl, rfl, hRoute⟩

/-- A report changes the adapter of the worker and the registry. -/
theorem path_report_adapter (hWorker : o < s.nextRef) :
    Path cfg s₀ l (s, h) (s.report_adapter o adapter_id, h) := by
  unfold report_adapter
  split
  next name =>
    split
    next => exact .refl
    next => exact .head (.setAdapter hWorker) (.single .register)
  next => exact .refl

/-- A report leaves everything alone that is held. -/
theorem report_adapter_frame : total (s.report_adapter o adapter_id, h) = total (s, h) ∧
    (s.report_adapter o adapter_id).nextRef = s.nextRef ∧
    (s.report_adapter o adapter_id).workers = s.workers ∧
    (s.report_adapter o adapter_id).procs = s.procs := by
  unfold report_adapter
  split
  next name => split <;> exact ⟨rfl, rfl, rfl, rfl⟩
  next => exact ⟨rfl, rfl, rfl, rfl⟩

end Controller
