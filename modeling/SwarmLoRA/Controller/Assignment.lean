import SwarmLoRA.Controller.Loaded

namespace Controller

open Machine State

/-- The worker may be used for the adapter: it has it loaded, and no swap that is under way or still
to begin is to load another one. -/
structure Fit (loaded : WorkerRef → AdapterId) (s : State) (o : WorkerRef) (a : AdapterId) :
    Prop where
  made : o < s.nextRef
  loaded : loaded o = a
  target : ∀ task ∈ s.tasks, ∀ p ∈ task.target, p.1 = o → p.2 = a

/-- A spawn waits for a worker that was launched with its adapter. -/
def Task.Polls : Task → Prop
  | .polling (some caller) _ a => caller.adapter_id = a
  | _ => True

/-- Every worker has loaded the adapter that it is assigned for, and a swap that is under way does
not change that. `asked` has the adapters that the queued requests are for. -/
structure Sound (loaded : WorkerRef → AdapterId) (asked : FutureId → AdapterId) (s : State) :
    Prop where
  pool : PoolScoped s
  infos : ∀ o < s.nextRef, (s.infos o).adapter_id = loaded o
  worker : ∀ task ∈ s.tasks, ∀ o ∈ task.worker, o < s.nextRef
  polls : ∀ task ∈ s.tasks, task.Polls
  asks : ∀ task ∈ s.tasks, ∀ p ∈ task.asked, p.1 < s.nextFuture ∧ p.2 = asked p.1
  assigned : ∀ task ∈ s.tasks, ∀ p ∈ task.assigned s.futures, loaded p.1 = p.2
  target : ∀ task ∈ s.tasks, ∀ p ∈ task.target,
    ((s.infos p.1).status = .ready ∨ ∃ t ∈ s.tasks, ∃ q ∈ t.assigned s.futures, q.1 = p.1) →
      loaded p.1 = p.2
  once : (s.tasks.filterMap fun task => task.target.map Prod.fst).Nodup
  queue : ∀ pr ∈ s.pending_requests, pr.future < s.nextFuture ∧ pr.adapter_id = asked pr.future
  resolved : ∀ f o, (s.futures f).state = .resolved o → o < s.nextRef

/-- What is not said of a worker by its status, its adapter or its id. -/
structure Alike (s s' : State) : Prop where
  workers : s'.workers = s.workers
  infos : ∀ o, (s'.infos o).worker_id = (s.infos o).worker_id ∧
    (s'.infos o).adapter_id = (s.infos o).adapter_id ∧ (s'.infos o).status = (s.infos o).status
  nextRef : s'.nextRef = s.nextRef
  tasks : s'.tasks = s.tasks
  queue : s'.pending_requests = s.pending_requests
  futures : s'.futures = s.futures
  nextFuture : s'.nextFuture = s.nextFuture

variable {cfg : Config} {s s' : State} {loaded loaded' : WorkerRef → AdapterId}
  {asked : FutureId → AdapterId} {o : WorkerRef} {a : AdapterId} {f : FutureId}

theorem mem_target {task : Task} {p : WorkerRef × AdapterId} (hTarget : p ∈ task.target) :
    p.1 ∈ task.worker := by
  cases task <;> cases hTarget
  exact rfl

namespace Sound

theorem alike (h : Sound loaded asked s) (hAlike : Alike s s') : Sound loaded asked s' := by
  obtain ⟨hWorkers, hInfos, hRef, hTasks, hQueue, hFutures, hNext⟩ := hAlike
  refine ⟨?_, ?_, ?_, ?_, ?_, ?_, ?_, ?_, ?_, ?_⟩
  · intro wid p hLookup
    rw [hRef, (hInfos p).1]
    exact h.pool wid p (hWorkers ▸ hLookup)
  · intro p hp
    rw [(hInfos p).2.1]
    exact h.infos p (hRef ▸ hp)
  · rw [hTasks, hRef]
    exact h.worker
  · rw [hTasks]
    exact h.polls
  · rw [hTasks, hNext]
    exact h.asks
  · rw [hTasks, hFutures]
    exact h.assigned
  · rw [hTasks, hFutures]
    intro task hTask p hp
    rw [(hInfos p.1).2.2]
    exact h.target task hTask p hp
  · rw [hTasks]
    exact h.once
  · rw [hQueue, hNext]
    exact h.queue
  · rw [hFutures, hRef]
    exact h.resolved

theorem made (h : Sound loaded asked s) {task : Task} (hTask : task ∈ s.tasks)
    {p : WorkerRef × AdapterId} (hp : p ∈ task.assigned s.futures) : p.1 < s.nextRef := by
  cases task with
  | inferring o a retry =>
      cases hp
      exact h.worker _ hTask o rfl
  | polling caller o a =>
      cases hp
      exact h.worker _ hTask o rfl
  | waiting f a retry =>
      simp only [Task.assigned] at hp
      split at hp
      next o hState =>
        cases hp
        exact h.resolved f o hState
      next => cases hp
  | _ => cases hp

theorem fit (h : Sound loaded asked s) {task : Task} (hTask : task ∈ s.tasks)
    (hp : (o, a) ∈ task.assigned s.futures) : Fit loaded s o a := by
  have hLoaded : loaded o = a := h.assigned task hTask (o, a) hp
  refine ⟨h.made hTask hp, hLoaded, ?_⟩
  rintro t ht p hTarget rfl
  rw [← h.target t ht p hTarget (.inr ⟨task, hTask, _, hp, rfl⟩), hLoaded]

theorem fit_of_ready (h : Sound loaded asked s) (hMade : o < s.nextRef)
    (hReady : (s.infos o).status = .ready) (hLoaded : loaded o = a) : Fit loaded s o a := by
  refine ⟨hMade, hLoaded, ?_⟩
  rintro t ht p hTarget rfl
  rw [← h.target t ht p hTarget (.inl hReady), hLoaded]

/-- Only what is said of workers that have been made counts. -/
theorem congr (h : Sound loaded asked s) (hSame : ∀ o < s.nextRef, loaded o = loaded' o) :
    Sound loaded' asked s where
  pool := h.pool
  infos o ho := (h.infos o ho).trans (hSame o ho)
  worker := h.worker
  polls := h.polls
  asks := h.asks
  assigned task hTask p hp := by
    rw [← hSame p.1 (h.made hTask hp)]
    exact h.assigned task hTask p hp
  target task hTask p hp hUse := by
    rw [← hSame p.1 (h.worker task hTask p.1 (mem_target hp))]
    exact h.target task hTask p hp hUse
  once := h.once
  queue := h.queue
  resolved := h.resolved

theorem of_sublist (h : Sound loaded asked s) {tasks : List Task} (hSub : tasks.Sublist s.tasks) :
    Sound loaded asked { s with tasks } where
  pool := h.pool
  infos := h.infos
  worker task hTask := h.worker task (hSub.subset hTask)
  polls task hTask := h.polls task (hSub.subset hTask)
  asks task hTask := h.asks task (hSub.subset hTask)
  assigned task hTask := h.assigned task (hSub.subset hTask)
  target task hTask p hp hUse := by
    refine h.target task (hSub.subset hTask) p hp (hUse.imp_right ?_)
    rintro ⟨t, ht, hUse⟩
    exact ⟨t, hSub.subset ht, hUse⟩
  once := h.once.sublist (hSub.filterMap _)
  queue := h.queue
  resolved := h.resolved

theorem set_queue (h : Sound loaded asked s) {queue : List PendingRequest}
    (hQueue : ∀ pr ∈ queue, pr.future < s.nextFuture ∧ pr.adapter_id = asked pr.future) :
    Sound loaded asked { s with pending_requests := queue } :=
  { h with queue := hQueue }

/-- A task that is not a swap under way is put down. -/
theorem create_task (h : Sound loaded asked s) {task : Task}
    (hWorker : ∀ o ∈ task.worker, o < s.nextRef)
    (hAsked : ∀ p ∈ task.asked, p.1 < s.nextFuture ∧ p.2 = asked p.1)
    (hAssigned : ∀ p ∈ task.assigned s.futures, Fit loaded s p.1 p.2)
    (hTarget : task.target = none) (hPolls : task.Polls) :
    Sound loaded asked (s.create_task task) where
  pool := h.pool
  infos := h.infos
  worker := List.forall_mem_append.mpr ⟨h.worker, List.forall_mem_singleton.mpr hWorker⟩
  polls := List.forall_mem_append.mpr ⟨h.polls, List.forall_mem_singleton.mpr hPolls⟩
  asks := List.forall_mem_append.mpr ⟨h.asks, List.forall_mem_singleton.mpr hAsked⟩
  assigned := List.forall_mem_append.mpr ⟨h.assigned, List.forall_mem_singleton.mpr
    fun p hp => (hAssigned p hp).loaded⟩
  target := by
    have hOld : ∀ t ∈ s.tasks, ∀ p ∈ t.target, ((s.infos p.1).status = .ready ∨
        ∃ t ∈ s.tasks ++ [task], ∃ q ∈ t.assigned s.futures, q.1 = p.1) → loaded p.1 = p.2 := by
      rintro t ht p hp (hReady | ⟨u, hu, q, hq, hSame⟩)
      · exact h.target t ht p hp (.inl hReady)
      · rcases List.mem_append.mp hu with hu | hu
        · exact h.target t ht p hp (.inr ⟨u, hu, q, hq, hSame⟩)
        · obtain rfl := List.mem_singleton.mp hu
          have hFit := hAssigned q hq
          rw [hFit.target t ht p hp hSame.symm, ← hSame]
          exact hFit.loaded
    refine List.forall_mem_append.mpr ⟨hOld, ?_⟩
    intro t ht p hp
    rw [List.mem_singleton.mp ht, hTarget] at hp
    cases hp
  once := by
    simpa [State.create_task, hTarget] using h.once
  queue := h.queue
  resolved := h.resolved

/-- A task that has to do with no adapter. -/
theorem create_other (h : Sound loaded asked s) {task : Task}
    (hWorker : ∀ o ∈ task.worker, o < s.nextRef) (hAsked : task.asked = none)
    (hAssigned : task.assigned s.futures = none) (hTarget : task.target = none) :
    Sound loaded asked (s.create_task task) := by
  refine h.create_task hWorker (by simp [hAsked]) (by simp [hAssigned]) hTarget ?_
  cases task with
  | polling => cases hAssigned
  | _ => trivial

theorem create_others (h : Sound loaded asked s) {tasks : List Task}
    (hTasks : ∀ task ∈ tasks, (∀ o ∈ task.worker, o < s.nextRef) ∧ task.asked = none ∧
      (∀ futures, task.assigned futures = none) ∧ task.target = none) :
    Sound loaded asked { s with tasks := s.tasks ++ tasks } := by
  induction tasks generalizing s with
  | nil => rwa [List.append_nil]
  | cons task rest ih =>
      obtain ⟨⟨hWorker, hAsked, hAssigned, hTarget⟩, hRest⟩ := List.forall_mem_cons.mp hTasks
      have hFirst := h.create_other hWorker hAsked (hAssigned _) hTarget
      have hAll := ih hFirst hRest
      simpa [State.create_task] using hAll

/-- A swap begins on a worker that is free for it. -/
theorem begin_swap (h : Sound loaded asked s) {caller : SwapCaller} (hMade : o < s.nextRef)
    (hAsked : ∀ f, caller = .resolve f → f < s.nextFuture ∧ a = asked f) (hVacant : s.vacant o a)
    (hStatus : (s.infos o).status ≠ .ready) :
    Sound loaded asked (s.create_task (.swapping caller o a)) where
  pool := h.pool
  infos := h.infos
  worker := by
    refine List.forall_mem_append.mpr ⟨h.worker, List.forall_mem_singleton.mpr ?_⟩
    rintro _ ⟨⟩
    exact hMade
  polls := List.forall_mem_append.mpr ⟨h.polls, List.forall_mem_singleton.mpr trivial⟩
  asks := by
    refine List.forall_mem_append.mpr ⟨h.asks, ?_⟩
    intro t ht p hp
    rw [List.mem_singleton.mp ht] at hp
    cases caller with
    | resolve f =>
        cases hp
        exact hAsked f rfl
    | _ => cases hp
  assigned := List.forall_mem_append.mpr ⟨h.assigned, by simp [Task.assigned]⟩
  target := by
    have hSame : (∃ t ∈ s.tasks ++ [.swapping caller o a], ∃ q ∈ t.assigned s.futures, q.1 = o) →
        loaded o = a := by
      rintro ⟨t, ht, q, hq, rfl⟩
      rcases List.mem_append.mp ht with ht | ht
      · rw [← (hVacant t ht).2 q hq rfl]
        exact h.assigned t ht q hq
      · rw [List.mem_singleton.mp ht] at hq
        cases hq
    refine List.forall_mem_append.mpr ⟨fun t ht p hp hUse => ?_, fun t ht p hp hUse => ?_⟩
    · refine h.target t ht p hp (hUse.imp_right ?_)
      rintro ⟨u, hu, q, hq, hSame⟩
      rcases List.mem_append.mp hu with hu | hu
      · exact ⟨u, hu, q, hq, hSame⟩
      · rw [List.mem_singleton.mp hu] at hq
        cases hq
    · rw [List.mem_singleton.mp ht] at hp
      cases hp
      exact hUse.elim (absurd · hStatus) hSame
  once := by
    unfold State.create_task
    rw [List.filterMap_append, List.nodup_append]
    refine ⟨h.once, by simp [Task.target], ?_⟩
    intro p hp q hq
    obtain ⟨t, ht, hTarget⟩ := List.mem_filterMap.mp hp
    obtain ⟨r, hr, rfl⟩ := Option.map_eq_some_iff.mp hTarget
    have hq : q = o := by simpa [Task.target] using hq
    rw [hq]
    exact (hVacant t ht).1 r hr
  queue := h.queue
  resolved := h.resolved

/-- A status is written. A worker becomes ready only if the swap under way on it, if there is one,
changes nothing. -/
theorem setStatus (h : Sound loaded asked s) {status : WorkerStatus}
    (hReady : status = .ready → ∀ task ∈ s.tasks, ∀ p ∈ task.target, p.1 = o → loaded p.1 = p.2) :
    Sound loaded asked (s.setStatus o status) where
  pool wid p hLookup := by
    rw [worker_id_setStatus]
    exact h.pool wid p hLookup
  infos p hp := by
    rw [← h.infos p hp]
    unfold State.setStatus
    rw [infos_setInfo]
    split
    next hSame => rw [hSame]
    next => rfl
  worker := h.worker
  polls := h.polls
  asks := h.asks
  assigned := h.assigned
  target task hTask p hp hUse := by
    rw [status_setStatus] at hUse
    rcases hUse with hUse | hUse
    · split at hUse
      next hSame => exact hReady hUse task hTask p hp hSame
      next => exact h.target task hTask p hp (.inl hUse)
    · exact h.target task hTask p hp (.inr hUse)
  once := h.once
  queue := h.queue
  resolved := h.resolved

theorem addActive (h : Sound loaded asked s) (o : WorkerRef) (n : Int) :
    Sound loaded asked (s.addActive o n) := by
  refine h.alike ⟨rfl, fun p => ⟨worker_id_addActive s o p n, ?_, status_addActive s o p n⟩, rfl,
    rfl, rfl, rfl, rfl⟩
  unfold State.addActive
  rw [infos_setInfo]
  split
  next hSame => rw [hSame]
  next => rfl

/-- Futures that resume requests with workers that fit them. -/
theorem of_futures (h : Sound loaded asked s) {futures : FutureId → Future}
    (hNew : ∀ task ∈ s.tasks, ∀ p ∈ task.assigned futures,
      p ∈ task.assigned s.futures ∨ Fit loaded s p.1 p.2)
    (hResolved : ∀ f o, (futures f).state = .resolved o → o < s.nextRef) :
    Sound loaded asked { s with futures } where
  pool := h.pool
  infos := h.infos
  worker := h.worker
  polls := h.polls
  asks := h.asks
  assigned task hTask p hp := by
    rcases hNew task hTask p hp with hOld | hFit
    · exact h.assigned task hTask p hOld
    · exact hFit.loaded
  target task hTask p hp := by
    rintro (hReady | ⟨t, ht, q, hq, hSame⟩)
    · exact h.target task hTask p hp (.inl hReady)
    · rcases hNew t ht q hq with hOld | hFit
      · exact h.target task hTask p hp (.inr ⟨t, ht, q, hOld, hSame⟩)
      · rw [hFit.target task hTask p hp hSame.symm, ← hSame]
        exact hFit.loaded
  once := h.once
  queue := h.queue
  resolved := hResolved

/-- A future takes a state in which it does not resume anybody. -/
theorem setFuture (h : Sound loaded asked s) {future : Future}
    (hState : ∀ o, future.state ≠ .resolved o) :
    Sound loaded asked { s with futures := Function.update s.futures f future } := by
  refine h.of_futures (fun task hTask p hp => .inl ?_) fun g o hResolved => ?_
  · cases task with
    | waiting g a retry =>
        simp only [Task.assigned] at hp ⊢
        by_cases hg : g = f
        · subst hg
          rw [Function.update_self] at hp
          split at hp
          next o hResolved => exact absurd hResolved (hState o)
          next => cases hp
        · rwa [Function.update_of_ne hg] at hp
    | _ => exact hp
  · by_cases hg : g = f
    · subst hg
      rw [Function.update_self] at hResolved
      exact absurd hResolved (hState o)
    · rw [Function.update_of_ne hg] at hResolved
      exact h.resolved g o hResolved

theorem set_result (h : Sound loaded asked s) (hFit : Fit loaded s o (asked f)) :
    Sound loaded asked (s.set_result f o) := by
  refine h.of_futures (fun task hTask p hp => ?_) fun g p hResolved => ?_
  · cases task with
    | waiting g a retry =>
        have hAsked : a = asked g := (h.asks _ hTask (g, a) rfl).2
        simp only [Task.assigned] at hp ⊢
        by_cases hg : g = f
        · subst hg
          rw [Function.update_self] at hp
          cases hp
          exact .inr (hAsked ▸ hFit)
        · rw [Function.update_of_ne hg] at hp
          exact .inl hp
    | _ => exact .inl hp
  · by_cases hg : g = f
    · subst hg
      rw [Function.update_self] at hResolved
      obtain rfl : o = p := FutureState.resolved.inj hResolved
      exact hFit.made
    · rw [Function.update_of_ne hg] at hResolved
      exact h.resolved g p hResolved

theorem cancel (h : Sound loaded asked s) (f : FutureId) : Sound loaded asked (s.cancel f) := by
  unfold State.cancel
  split
  next => exact h.setFuture (by simp)
  next => exact h

theorem wait_for_available_worker (h : Sound loaded asked s) (a : AdapterId) (retry : Bool) :
    Sound loaded (Function.update asked s.nextFuture a) (s.wait_for_available_worker a retry) := by
  have hOld : ∀ f < s.nextFuture, Function.update asked s.nextFuture a f = asked f :=
    fun f hf => Function.update_of_ne hf.ne _ _
  have hFuture : Sound loaded (Function.update asked s.nextFuture a)
      { s with
        futures := Function.update s.futures s.nextFuture {}
        nextFuture := s.nextFuture + 1 } := by
    have hFresh : Sound loaded asked { s with futures := Function.update s.futures s.nextFuture {} } :=
      h.setFuture (by simp)
    refine { hFresh with asks := fun task hTask p hp => ?_, queue := fun pr hMem => ?_ }
    · obtain ⟨hLt, hAsked⟩ := h.asks task hTask p hp
      exact ⟨Nat.lt_succ_of_lt hLt, hAsked.trans (hOld p.1 hLt).symm⟩
    · obtain ⟨hLt, hAsked⟩ := h.queue pr hMem
      exact ⟨Nat.lt_succ_of_lt hLt, hAsked.trans (hOld pr.future hLt).symm⟩
  have hNew : s.nextFuture < s.nextFuture + 1 ∧
      a = Function.update asked s.nextFuture a s.nextFuture :=
    ⟨Nat.lt_succ_self _, by rw [Function.update_self]⟩
  have hEntries : ∀ pr ∈ s.pending_requests ++ [⟨a, s.nextFuture⟩], pr.future < s.nextFuture + 1 ∧
      pr.adapter_id = Function.update asked s.nextFuture a pr.future :=
    List.forall_mem_append.mpr ⟨hFuture.queue, List.forall_mem_singleton.mpr hNew⟩
  have hQueue := hFuture.set_queue hEntries
  have hWorker : ∀ o ∈ (Task.waiting s.nextFuture a retry).worker, o < s.nextRef := by rintro _ ⟨⟩
  have hAsked : ∀ p ∈ (Task.waiting s.nextFuture a retry).asked, p.1 < s.nextFuture + 1 ∧
      p.2 = Function.update asked s.nextFuture a p.1 := by
    rintro _ ⟨⟩
    exact hNew
  have hTask := hQueue.create_task hWorker hAsked (by simp [Task.assigned]) rfl trivial
  exact hTask

theorem pop_worker (h : Sound loaded asked s) (wid : WorkerId) (o : WorkerRef) :
    Sound loaded asked (s.pop_worker wid o) where
  pool := h.pool.pop wid o
  infos := h.infos
  worker := h.worker
  polls := h.polls
  asks := h.asks
  assigned := h.assigned
  target := h.target
  once := h.once
  queue := h.queue
  resolved := h.resolved

theorem add_worker (h : Sound loaded asked s) {wid : WorkerId} {dev : Device}
    (hLoaded : loaded s.nextRef = a) : Sound loaded asked (s.add_worker cfg wid dev a) where
  pool w o hLookup := by
    unfold State.add_worker at hLookup ⊢
    by_cases hw : w = wid
    · subst hw
      rw [AList.lookup_insert, Option.some.injEq] at hLookup
      subst hLookup
      simp
    · rw [AList.lookup_insert_ne hw] at hLookup
      obtain ⟨hRef, hId⟩ := h.pool w o hLookup
      simp only [Function.update_of_ne hRef.ne]
      exact ⟨Nat.lt_succ_of_lt hRef, hId⟩
  infos o ho := by
    unfold State.add_worker at ho ⊢
    rcases (Nat.lt_succ_iff_lt_or_eq.mp ho) with hOld | rfl
    · simp only [Function.update_of_ne hOld.ne]
      exact h.infos o hOld
    · simp only [Function.update_self]
      exact hLoaded.symm
  worker task hTask o ho := Nat.lt_succ_of_lt (h.worker task hTask o ho)
  polls := h.polls
  asks := h.asks
  assigned := h.assigned
  target task hTask p hp hUse := by
    have hOld : p.1 ≠ s.nextRef := (h.worker task hTask p.1 (mem_target hp)).ne
    refine h.target task hTask p hp (hUse.imp_left fun hReady => ?_)
    simpa only [State.add_worker, Function.update_of_ne hOld] using hReady
  once := h.once
  queue := h.queue
  resolved f o hState := Nat.lt_succ_of_lt (h.resolved f o hState)

/-- A worker that names the adapter that it has loaded is not told anything. -/
theorem set_adapter (h : Sound loaded asked s) (hMade : o < s.nextRef) (hLoaded : loaded o = a) :
    Sound loaded asked (s.setInfo o { s.infos o with adapter_id := a }) := by
  refine h.alike ⟨rfl, fun p => ?_, rfl, rfl, rfl, rfl, rfl⟩
  rw [infos_setInfo]
  split
  next hSame =>
    subst hSame
    exact ⟨rfl, hLoaded.symm.trans (h.infos p hMade).symm, rfl⟩
  next => exact ⟨rfl, rfl, rfl⟩

/-- A swap comes back with success, with no other under way on the worker. -/
theorem loads (h : Sound loaded asked s)
    (hAlone : ∀ task ∈ s.tasks, ∀ p ∈ task.target, p.1 ≠ o)
    (hAssigned : ∀ task ∈ s.tasks, ∀ p ∈ task.assigned s.futures, p.1 = o → p.2 = a) :
    Sound (fun p => if p = o then a else loaded p) asked
      (s.setInfo o { s.infos o with adapter_id := a }) where
  pool wid p hLookup := by
    have hKeeps : (s.infos p).Keeps ((s.setInfo o { s.infos o with adapter_id := a }).infos p) :=
      keeps_setInfo s o p ⟨_, _, _, rfl⟩
    rw [hKeeps.worker_id]
    exact h.pool wid p hLookup
  infos p hp := by
    rw [infos_setInfo]
    split
    next => rfl
    next => exact h.infos p hp
  worker := h.worker
  polls := h.polls
  asks := h.asks
  assigned task hTask p hp := by
    split
    next hSame => exact (hAssigned task hTask p hp hSame).symm
    next => exact h.assigned task hTask p hp
  target task hTask p hp hUse := by
    have hOther := hAlone task hTask p hp
    rw [infos_setInfo, if_neg hOther] at hUse
    rw [if_neg hOther]
    exact h.target task hTask p hp hUse
  once := h.once
  queue := h.queue
  resolved := h.resolved

end Sound

end Controller
