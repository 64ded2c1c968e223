import SwarmLoRA.Controller.Paths

namespace Controller

open Machine State Holding

variable {cfg : Config} {s₀ s s₁ s' : State} {l : Label} {h h' : Multiset Holding} {env : Env}
  {o : WorkerRef} {adapter_id : AdapterId}

/-- A request is routed: it is sent to a worker, waits for a swap or a spawn of its own, or is
queued. -/
theorem path_route_request {best_wid : WorkerId} (hPool : PoolScoped s)
    (hStep : s.route_request cfg env adapter_id best_wid = some s') :
    Path cfg s (.request env adapter_id best_wid) (s, h) (s', h) := by
  simp only [route_request, Option.bind_eq_bind, Option.bind_eq_some_iff] at hStep
  obtain ⟨⟨s₁, decision, worker⟩, hDecide, hRoute⟩ := hStep
  rcases decide_route_cases hPool hDecide with
    ⟨o, wid, needs_swap, needs_spawn, rfl, rfl, rfl, hWorker, hIdle, hReady⟩ | ⟨rfl, rfl, hDecision⟩
  · have hReserve : Path cfg s (.request env adapter_id best_wid) (s, h)
        (s.addActive o 1, reservation o ::ₘ h) := .single (.reserve hWorker (.inl hIdle))
    refine hReserve.trans ?_
    cases needs_swap with
    | true =>
        obtain rfl := Option.some.inj hRoute
        have hStatus : ((s.addActive o 1).infos o).status ≠ .stopping := by
          rw [status_addActive, hReady]
          decide
        have hSwap : Path cfg s (.request env adapter_id best_wid)
            (s.addActive o 1, (SwapCaller.request needs_spawn).holds o + h)
            ((s.addActive o 1).swap_worker_adapter (.request needs_spawn) o adapter_id, h) :=
          path_swap_worker_adapter hWorker (by simp) (.inr hStatus)
        rwa [SwapCaller.holds, Multiset.singleton_add] at hSwap
    | false =>
        obtain rfl := Option.some.inj hRoute
        cases needs_spawn with
        | false => exact path_send_inference hWorker
        | true =>
            have hGrow : Path cfg s (.request env adapter_id best_wid)
                (s.addActive o 1, reservation o ::ₘ h)
                ((s.addActive o 1).create_task (.spawnNew (.grow adapter_id)),
                  reservation o ::ₘ h) :=
              .single (.put (zero_add _).symm (scoped_of_nothing rfl rfl rfl) trivial)
            exact hGrow.trans (path_send_inference hWorker)
  · cases decision with
    | route wid needs_swap needs_spawn =>
        cases needs_swap <;> obtain rfl := Option.some.inj hRoute <;> exact .refl
    | spawn =>
        obtain rfl := Option.some.inj hRoute
        exact path_spawn_worker (by simp only [launches, hDecision]) rfl rfl
    | queue =>
        obtain rfl := Option.some.inj hRoute
        exact path_queue_request
    | reject =>
        obtain rfl := Option.some.inj hRoute
        exact .refl

/-- A future is cancelled. -/
theorem path_cancel {f : FutureId} (hFuture : f < s.nextFuture) :
    Path cfg s₀ l (s, h) (s.cancel f, h) := by
  unfold cancel
  split
  next hPending => exact .single (.cancel hFuture hPending)
  next => exact .refl

/-- It is not pending any more. -/
theorem isPending_cancel (s : State) (f : FutureId) : (s.cancel f).isPending f = false := by
  unfold cancel
  split
  next => simp [isPending, State.setFuture]
  next hDone => simpa using hDone

/-- An entry in hand whose future is cancelled, unless it is done already, is dropped. -/
theorem path_cancel_entry {f : FutureId} (hFuture : f < s.nextFuture) :
    Path cfg s₀ l (s, entry f ::ₘ h) (s.cancel f, h) :=
  (path_cancel hFuture).tail (.drop (isPending_cancel s f))

/-- Every entry that the pruning passes is taken off the queue, and its future is done. -/
theorem path_prune {expired : FutureId → Bool} {entries : List PendingRequest}
    (hQueue : ∀ pr ∈ entries, pr.future < s.nextFuture) :
    Path cfg s₀ l ({ s with pending_requests := entries }, h)
      ({ (prune expired s entries).1 with pending_requests := (prune expired s entries).2 }, h) := by
  induction entries generalizing s with
  | nil => exact .refl
  | cons pr rest ih =>
      unfold prune
      split
      next =>
        have hFuture : pr.future < s.nextFuture := hQueue pr List.mem_cons_self
        have hCancel : Path cfg s₀ l
            ({ s with pending_requests := rest }, entry pr.future ::ₘ h)
            ({ s with pending_requests := rest }.cancel pr.future, h) := path_cancel_entry hFuture
        have hSame : { s with pending_requests := rest }.cancel pr.future =
            { s.cancel pr.future with pending_requests := rest } := by
          unfold cancel isPending
          split <;> rfl
        have hRest := ih (s := s.cancel pr.future) fun p hp => by
          have hOld := hQueue p (List.mem_cons_of_mem _ hp)
          unfold cancel
          split <;> exact hOld
        rw [hSame] at hCancel
        exact .head (.dequeue rfl) (hCancel.trans hRest)
      next => exact .refl

/-- One entry that the dispatcher has in hand. The queue itself plays no part in it. -/
theorem path_dispatch_one {pr : PendingRequest} {expired keep : Bool} {best_wid : WorkerId}
    {queue : List PendingRequest} (hPool : PoolScoped s) (hFuture : pr.future < s.nextFuture)
    (hDispatch : s.dispatch_one cfg pr expired best_wid = some (s', keep)) :
    Path cfg s₀ l ({ s with pending_requests := queue }, entry pr.future ::ₘ h)
      ({ s' with pending_requests := queue }, if keep then entry pr.future ::ₘ h else h) := by
  unfold dispatch_one at hDispatch
  split at hDispatch
  next =>
    obtain ⟨rfl, rfl⟩ := Prod.mk.inj (Option.some.inj hDispatch)
    have hCancel : Path cfg s₀ l
        ({ s with pending_requests := queue }, entry pr.future ::ₘ h)
        ({ s with pending_requests := queue }.cancel pr.future, h) := path_cancel_entry hFuture
    have hSame : { s with pending_requests := queue }.cancel pr.future =
        { s.cancel pr.future with pending_requests := queue } := by
      unfold cancel isPending
      split <;> rfl
    rwa [hSame] at hCancel
  next hLive =>
    simp only [Option.bind_eq_bind, Option.bind_eq_some_iff] at hDispatch
    obtain ⟨⟨s₁, decision, worker⟩, hDecide, hRoute⟩ := hDispatch
    rcases decide_route_cases hPool hDecide with
      ⟨o, wid, needs_swap, needs_spawn, rfl, rfl, rfl, hWorker, hIdle, hReady⟩ | ⟨rfl, rfl, hDecision⟩
    · have hReserve : Path cfg s₀ l
          ({ s with pending_requests := queue }, entry pr.future ::ₘ h)
          ({ s.addActive o 1 with pending_requests := queue },
            reservation o ::ₘ entry pr.future ::ₘ h) := .single (.reserve hWorker (.inl hIdle))
      refine hReserve.trans ?_
      cases needs_swap with
      | true =>
          obtain ⟨rfl, rfl⟩ := Prod.mk.inj (Option.some.inj hRoute)
          have hTask : (Task.swapNew (.resolve pr.future) o pr.adapter_id).Scoped cfg s :=
            (SwapCaller.scoped hWorker (by rintro f ⟨⟩; exact hFuture)).2
          refine .single (.put ?_ (hTask.mono le_rfl le_rfl) trivial)
          simp [Task.holds, SwapCaller.holds]
      | false =>
          simp only at hRoute
          split at hRoute
          next hPending =>
            obtain ⟨rfl, rfl⟩ := Prod.mk.inj (Option.some.inj hRoute)
            refine .head (.resolve hWorker hFuture hPending) (.single (.drop ?_))
            simp [isPending, set_result]
          next hDone =>
            rw [Bool.not_eq_true] at hDone
            obtain ⟨rfl, rfl⟩ := Prod.mk.inj (Option.some.inj hRoute)
            exact .head .release (.single (.drop hDone))
    · cases decision with
      | route wid needs_swap needs_spawn =>
          cases needs_swap <;> obtain ⟨rfl, rfl⟩ := Prod.mk.inj (Option.some.inj hRoute) <;>
            exact .refl
      | spawn =>
          obtain ⟨rfl, rfl⟩ := Prod.mk.inj (Option.some.inj hRoute)
          exact path_spawn_for_dispatch
      | queue =>
          obtain ⟨rfl, rfl⟩ := Prod.mk.inj (Option.some.inj hRoute)
          exact .refl
      | reject =>
          obtain ⟨rfl, rfl⟩ := Prod.mk.inj (Option.some.inj hRoute)
          exact .refl

/-- The dispatcher takes the entries one by one from the front of the queue and puts those
that stay back at its end. -/
theorem path_dispatch_all {expired : FutureId → Bool} {best_wid : FutureId → WorkerId}
    {entries kept still_pending : List PendingRequest}
    (hScoped : Scoped cfg { s with pending_requests := [] })
    (hQueue : ∀ pr ∈ entries, pr.future < s.nextFuture)
    (hDispatch : dispatch_all cfg expired best_wid s entries = some (s', still_pending)) :
    Path cfg s₀ l ({ s with pending_requests := entries ++ kept }, h)
      ({ s' with pending_requests := kept ++ still_pending }, h) := by
  induction entries generalizing s kept still_pending with
  | nil =>
      obtain ⟨rfl, rfl⟩ := Prod.mk.inj (Option.some.inj hDispatch)
      rw [List.append_nil, List.nil_append]
  | cons pr rest ih =>
      simp only [dispatch_all, Option.bind_eq_bind, Option.bind_eq_some_iff] at hDispatch
      obtain ⟨⟨s₁, keep⟩, hOne, ⟨s₂, still⟩, hRest, hEnd⟩ := hDispatch
      obtain ⟨rfl, rfl⟩ := Prod.mk.inj (Option.some.inj hEnd)
      have hFuture : pr.future < s.nextFuture := hQueue pr List.mem_cons_self
      have hPath : ∀ queue, Path cfg s₀ l
          ({ s with pending_requests := queue }, entry pr.future ::ₘ h)
          ({ s₁ with pending_requests := queue }, if keep then entry pr.future ::ₘ h else h) :=
        fun queue => path_dispatch_one hScoped.pool hFuture hOne
      have hScoped₁ : Scoped cfg { s₁ with pending_requests := [] } := hScoped.path (hPath [])
      have hNext : s.nextFuture ≤ s₁.nextFuture := by
        have hLe := nextFuture_le_of_path (hPath [])
        exact hLe
      cases keep with
      | false =>
          have hRest' := @ih s₁ kept still hScoped₁
            (fun p hp => (hQueue p (List.mem_cons_of_mem _ hp)).trans_le hNext) hRest
          exact .head (.dequeue rfl) ((hPath (rest ++ kept)).trans hRest')
      | true =>
          have hRest' := @ih s₁ (kept ++ [pr]) still hScoped₁
            (fun p hp => (hQueue p (List.mem_cons_of_mem _ hp)).trans_le hNext) hRest
          have hBack : Path cfg s₀ l
              ({ s₁ with pending_requests := rest ++ kept }, entry pr.future ::ₘ h)
              ({ s₁ with pending_requests := rest ++ (kept ++ [pr]) }, h) := by
            rw [← List.append_assoc]
            exact .single (.requeue ((hQueue pr List.mem_cons_self).trans_le hNext))
          rw [List.append_assoc, List.singleton_append] at hRest'
          exact .head (.dequeue rfl) ((hPath (rest ++ kept)).trans (hBack.trans hRest'))

/-- A round of the dispatcher, over a queue that it has taken off and puts back together. -/
theorem path_dispatch {pruned expired : FutureId → Bool} {best_wid : FutureId → WorkerId}
    (hScoped : Scoped cfg s) (hStep : s.dispatch cfg pruned expired best_wid = some s') :
    Path cfg s₀ l (s, h) (s', h) := by
  have hPrune : Path cfg s₀ l (s, h) ({ (prune pruned s s.pending_requests).1 with
      pending_requests := (prune pruned s s.pending_requests).2 }, h) := path_prune hScoped.queue
  have hScoped₁ := hScoped.path hPrune
  simp only [dispatch, Option.bind_eq_bind, Option.bind_eq_some_iff] at hStep
  obtain ⟨⟨s₁, still_pending⟩, hAll, hEnd⟩ := hStep
  obtain rfl := Option.some.inj hEnd
  have hRound : Path cfg s₀ l ({ (prune pruned s s.pending_requests).1 with
      pending_requests := (prune pruned s s.pending_requests).2 ++ [] }, h)
      ({ s₁ with pending_requests := [] ++ still_pending }, h) :=
    path_dispatch_all ⟨hScoped₁.pool, fun task hTask => (hScoped₁.tasks task hTask).mono le_rfl le_rfl,
      by simp, hScoped₁.resolved⟩ hScoped₁.queue hAll
  rw [List.append_nil] at hRound
  exact hPrune.trans hRound

/-- A worker that the reaper has taken out of the pool, under one of the ids that it was given. Its
process is still to be stopped. -/
structure Reaped (ids : List WorkerId) (s : State) (o : WorkerRef) : Prop where
  made : o < s.nextRef
  id : (s.infos o).worker_id ∈ ids
  gone : (s.infos o).worker_id ∉ s.workers

/-- The loop over idle workers leaves a worker that it has stopped where it is. -/
theorem Reaped.reap_loop {ids : List WorkerId} (hReaped : Reaped ids s o) (current_count : Nat)
    (worker_ids : List WorkerId) :
    Reaped ids (State.reap_loop cfg s current_count worker_ids).1 o := by
  induction worker_ids generalizing s current_count with
  | nil => exact hReaped
  | cons wid rest ih =>
      unfold State.reap_loop
      split
      next => exact hReaped
      next =>
        split
        next => exact ih hReaped current_count
        next p hLookup =>
          split
          next => exact ih hReaped current_count
          next =>
            have hSame : (((s.mark_stopping p).pop_worker wid p).infos o).worker_id =
                (s.infos o).worker_id := worker_id_setStatus s p o .stopping
            have hOld : Reaped ids ((s.mark_stopping p).pop_worker wid p) o := by
              refine ⟨hReaped.made, hSame ▸ hReaped.id, ?_⟩
              rw [hSame]
              simp only [pop_worker, AList.mem_erase, not_and]
              exact fun _ => hReaped.gone
            exact ih hOld (current_count - 1)

/-- The workers that the reaper takes out of the pool are marked first, and their ids are
among those that were selected. -/
theorem path_reap_loop {ids worker_ids : List WorkerId} {current_count : Nat}
    (hIds : ∀ wid ∈ worker_ids, wid ∈ ids) (hPool : PoolScoped s) :
    Path cfg s₀ (.reap ids) (s, h) ((reap_loop cfg s current_count worker_ids).1, h) ∧
      ∀ o ∈ (reap_loop cfg s current_count worker_ids).2,
        Reaped ids (reap_loop cfg s current_count worker_ids).1 o := by
  induction worker_ids generalizing s current_count with
  | nil => exact ⟨.refl, by simp [reap_loop]⟩
  | cons wid rest ih =>
      have hRest : ∀ w ∈ rest, w ∈ ids := fun w hw => hIds w (List.mem_cons_of_mem _ hw)
      unfold reap_loop
      split
      next => exact ⟨.refl, by simp⟩
      next =>
        split
        next => exact ih hRest hPool
        next o hLookup =>
          split
          next => exact ih hRest hPool
          next =>
            obtain ⟨hWorker, hId⟩ := hPool wid o hLookup
            have hMark : Path cfg s₀ (.reap ids) (s, h) (s.mark_stopping o, h) :=
              .single (.markStopping hWorker)
            have hAsked : ((s.mark_stopping o).procs o).asked_to_stop = true := by
              simp [mark_stopping]
            have hWid : wid ∈ ids := hIds wid List.mem_cons_self
            have hPop : Path cfg s₀ (.reap ids) (s, h) ((s.mark_stopping o).pop_worker wid o, h) :=
              hMark.tail (.pop hLookup (.inr ⟨ids, rfl, hWid, hAsked⟩))
            have hMarked : PoolScoped (s.mark_stopping o) := by
              intro w p hOther
              have hOld := hPool w p hOther
              exact ⟨hOld.1, (worker_id_setStatus s o p .stopping).trans hOld.2⟩
            obtain ⟨hLoop, hStop⟩ := @ih _ (current_count - 1) hRest (hMarked.pop wid o)
            refine ⟨hPop.trans hLoop, fun p hp => ?_⟩
            rcases List.mem_cons.mp hp with rfl | hp
            · have hReaped : Reaped ids ((s.mark_stopping p).pop_worker wid p) p := by
                have hSame : (((s.mark_stopping p).pop_worker wid p).infos p).worker_id = wid :=
                  (worker_id_setStatus s p p .stopping).trans hId
                refine ⟨hWorker, hSame ▸ hWid, ?_⟩
                rw [hSame]
                simp [pop_worker]
              exact hReaped.reap_loop (current_count - 1) rest
            · exact hStop p hp

/-- The reaping begins to stop the workers that are idle. -/
theorem path_reap {worker_ids : List WorkerId} (hPool : PoolScoped s) :
    Path cfg s₀ (.reap worker_ids) (s, h) (s.reap_idle_workers cfg worker_ids, h) := by
  unfold reap_idle_workers
  split
  next => exact .refl
  next =>
    have hReap : Path cfg s₀ (.reap worker_ids) (s, h)
          ((reap_loop cfg s s.num_workers worker_ids).1, h) ∧ _ :=
      path_reap_loop (fun _ hw => hw) hPool
    obtain ⟨hLoop, hStop⟩ := hReap
    refine hLoop.trans ?_
    dsimp only
    generalize (reap_loop cfg s s.num_workers worker_ids).1 = s₁ at hStop ⊢
    generalize (reap_loop cfg s s.num_workers worker_ids).2 = to_stop at hStop ⊢
    induction to_stop generalizing s₁ with
    | nil => exact .refl
    | cons o rest ih =>
        obtain ⟨hWorker, hId, hGone⟩ := hStop o List.mem_cons_self
        have hUnregister : Path cfg s₀ (.reap worker_ids) (s₁, h)
            (s₁.unregister (s₁.infos o).worker_id, h) :=
          .single (.unregister (.inr ⟨worker_ids, rfl, hId, hGone⟩))
        have hTask : Path cfg s₀ (.reap worker_ids) (s₁.unregister (s₁.infos o).worker_id, h)
            ((s₁.unregister (s₁.infos o).worker_id).create_task (.stopping .process o), h) :=
          .single (.put (zero_add h).symm (scoped_of_worker rfl rfl rfl hWorker) trivial)
        rw [List.foldl_cons]
        refine hUnregister.trans (hTask.trans (ih _ fun p hp => ?_))
        have hOther := hStop p (List.mem_cons_of_mem _ hp)
        exact ⟨hOther.made, hOther.id, hOther.gone⟩

/-- The rebalancing begins swaps of idle workers. -/
theorem path_rebalance {rebalances : List (WorkerId × AdapterId)} (hPool : PoolScoped s) :
    Path cfg s₀ l (s, h) (s.rebalance rebalances, h) := by
  unfold rebalance
  induction rebalances generalizing s with
  | nil => exact .refl
  | cons r rest ih =>
      rw [List.foldl_cons]
      split
      next o hLookup =>
        split
        next =>
          have hPut : Path cfg s₀ l (s, h) (s.create_task (.swapNew .detached o r.2), h) :=
            .single (.put (zero_add h).symm
              (scoped_of_worker rfl rfl rfl (hPool r.1 o hLookup).1) trivial)
          exact hPut.trans (ih hPool)
        next => exact ih hPool
      next => exact ih hPool

/-- An operator's call launches a worker for the adapter. -/
theorem path_prewarm {device : Option Device} (hStep : s.prewarm cfg device adapter_id = some s') :
    Path cfg s (.prewarm device adapter_id) (s, h) (s', h) := by
  simp only [prewarm, Option.bind_eq_bind, Option.bind_eq_some_iff] at hStep
  obtain ⟨worker_id, hNext, dev, hDevice, hEnd⟩ := hStep
  obtain rfl := Option.some.inj hEnd
  obtain ⟨hFree, hId⟩ := next_worker_id_spec hNext
  have hRoom : (∀ cap ∈ cfg.cap dev, s.gpu_worker_count dev < cap) ∨
      namesDevice (.prewarm device adapter_id) = some dev ∧
        s.gpu_worker_count = s.gpu_worker_count := by
    cases device with
    | some named => exact .inr ⟨hDevice, rfl⟩
    | none => exact .inl (pick_device_spec hDevice)
  have hLaunches : s.launches cfg (.prewarm device adapter_id) = some (worker_id, true) := by
    simp [launches, hNext, hDevice]
  have hReserve : Path cfg s (.prewarm device adapter_id) (s, h)
      (s.addCount dev 1, slot dev ::ₘ h) := .single (.reserveSlot hRoom)
  have hLaunch : Path cfg s (.prewarm device adapter_id) (s.addCount dev 1, slot dev ::ₘ h)
      ((s.addCount dev 1).add_worker cfg worker_id dev adapter_id, h) :=
    .single (.launch hFree hId hLaunches rfl rfl)
  exact hReserve.trans (hLaunch.tail (.put (zero_add h).symm
    (scoped_of_worker rfl rfl rfl (Nat.lt_succ_self _))
    (by simp [Task.Begun, add_worker, addCount])))

/-- The entries are cancelled from the front of the queue on. -/
theorem path_cancel_all {entries : List PendingRequest}
    (hQueue : ∀ pr ∈ entries, pr.future < s.nextFuture) :
    Path cfg s₀ l ({ s with pending_requests := entries }, h)
      ({ entries.foldl (fun s pr => s.cancel pr.future) s with pending_requests := [] }, h) := by
  have hAll : ∀ t : State, prune (fun _ => true) t entries =
      (entries.foldl (fun s pr => s.cancel pr.future) t, []) := by
    induction entries with
    | nil => exact fun t => rfl
    | cons pr rest ih =>
        intro t
        rw [List.foldl_cons, ← ih fun p hp => hQueue p (List.mem_cons_of_mem _ hp)]
        simp [prune]
  have hPrune : Path cfg s₀ l ({ s with pending_requests := entries }, h)
      ({ (prune (fun _ => true) s entries).1 with
        pending_requests := (prune (fun _ => true) s entries).2 }, h) := path_prune hQueue
  rwa [hAll] at hPrune

/-- A health check is begun for every worker of the pool. -/
theorem path_check_all {entries : List (Sigma fun _ : WorkerId => WorkerRef)}
    (hEntries : ∀ entry ∈ entries, entry.2 < s.nextRef) :
    Path cfg s₀ l (s, h)
      ({ s with tasks := s.tasks ++ entries.map fun entry => .health entry.2 }, h) := by
  apply path_put_all
  intro task hTask
  obtain ⟨entry, hEntry, rfl⟩ := List.mem_map.mp hTask
  exact ⟨rfl, scoped_of_worker rfl rfl rfl (hEntries entry hEntry), trivial⟩

/-- A task has been taken from the list and goes on. The rest of the state is as before, and what the
task names is in scope. -/
structure Taken (cfg : Config) (s : State) (i : Nat) (task : Task) (s₁ : State) : Prop where
  here : s.tasks[i]? = some task
  rest : s₁ = { s with tasks := s.tasks.eraseIdx i }
  in_scope : Scoped cfg s₁
  own : task.Scoped cfg s₁

namespace Taken

variable {i : Nat} {task : Task} {outcome : Outcome} {o : WorkerRef} {a : AdapterId} {retry : Bool}

theorem infos (hTaken : Taken cfg s i task s₁) : s₁.infos = s.infos := by rw [hTaken.rest]

theorem workers (hTaken : Taken cfg s i task s₁) : s₁.workers = s.workers := by rw [hTaken.rest]

theorem procs (hTaken : Taken cfg s i task s₁) : s₁.procs = s.procs := by rw [hTaken.rest]

theorem nextRef (hTaken : Taken cfg s i task s₁) : s₁.nextRef = s.nextRef := by rw [hTaken.rest]

/-- What the guards see of the step is this task and this outcome. -/
theorem resumed (hTaken : Taken cfg s i task s₁) (env : Env) (outcome : Outcome) :
    s.resumed (.run i env outcome) = some (task, outcome) := by
  simp [State.resumed, hTaken.here]

/-- A status that the task writes is one that the guards speak of. -/
theorem write (hTaken : Taken cfg s i task s₁)
    (hOver : s.overwrites (.run i env outcome) = some o) :
    s.overwritesFrom (.run i env outcome) s₁ o := ⟨hOver, hTaken.workers, hTaken.procs⟩

section Swaps

variable {caller : SwapCaller}

/-- A swap that has been scheduled begins. -/
theorem swapNew (hTaken : Taken cfg s i (.swapNew caller o a) s₁)
    (hStep : s₁.resume cfg env (.swapNew caller o a) outcome = some s') :
    Path cfg s (.run i env outcome) (s₁, (Task.swapNew caller o a).holds + 0) (s', 0) := by
  cases resumes_of_resume hStep with
  | swap =>
      refine path_swap_worker_adapter (hTaken.own.worker o rfl) ?_
        (.inl (hTaken.write (by simp [overwrites, hTaken.resumed])))
      rintro f rfl
      exact hTaken.own.future f rfl

/-- The worker has answered the swap. -/
theorem swapping (hTaken : Taken cfg s i (.swapping caller o a) s₁)
    (hStep : s₁.resume cfg env (.swapping caller o a) outcome = some s') :
    Path cfg s (.run i env outcome) (s₁, (Task.swapping caller o a).holds + 0) (s', 0) := by
  have hFuture : ∀ f, caller = .resolve f → f < s₁.nextFuture := by
    rintro f rfl
    exact hTaken.own.future f rfl
  have hOver : s.overwrites (.run i env outcome) = some o := by
    simp [overwrites, hTaken.resumed]
  simp only [Task.holds, Multiset.cons_add]
  cases resumes_of_resume hStep with
  | swapped => exact path_swap_succeeded (hTaken.own.worker o rfl) hFuture (hTaken.write hOver)
  | swapFailed =>
      refine path_swap_failed (hTaken.own.worker o rfl) hFuture (hTaken.write hOver) ?_
        hTaken.procs hTaken.nextRef
      rintro ⟨needs_spawn, rfl⟩
      simp only [launches, hTaken.here, hTaken.rest]
      rfl

end Swaps

section Spawns

variable {caller : SpawnCaller}

/-- A spawn that begins, or begins again after a pause. -/
theorem spawn (hTaken : Taken cfg s i task s₁) (hTask : task = .spawnNew caller ∨
      task = .retrySleep caller) (hStep : s₁.resume cfg env task outcome = some s') :
    Path cfg s (.run i env outcome) (s₁, task.holds + 0) (s', 0) := by
  rcases hTask with rfl | rfl
  all_goals
    cases resumes_of_resume hStep
    refine path_spawn_worker ?_ hTaken.procs hTaken.nextRef
    simp only [launches, hTaken.here, hTaken.rest]
    rfl

/-- The aggregator of the device is there, or is not, or waiting for it has raised. -/
theorem ensuring {worker_id : WorkerId} {device : Device}
    (hTaken : Taken cfg s i (.ensuring caller worker_id device) s₁)
    (hStep : s₁.resume cfg env (.ensuring caller worker_id device) outcome = some s') :
    Path cfg s (.run i env outcome) (s₁, (Task.ensuring caller worker_id device).holds + 0)
      (s', 0) := by
  show Path cfg s (.run i env outcome) (_, slot device ::ₘ 0) (_, 0)
  have hRaises (hEnds : outcome = .raised ∨ outcome = .cancelled) :
      s.raises cfg (.run i env outcome) = true := by
    rcases hEnds with rfl | rfl <;> simp [raises, hTaken.resumed]
  cases resumes_of_resume hStep with
  | ensured =>
      refine .head .aggregator (path_aggregator_ensured (hTaken.own.worker_id worker_id rfl) ?_
        hTaken.procs hTaken.nextRef)
      simp only [launches, hTaken.here, hTaken.rest]
      rfl
  | notEnsured => exact .head .releaseSlot path_spawn_returned_none
  | raised => exact .head (.leakSlot (hRaises (.inl rfl))) path_spawn_raised
  | cancelledEnsuring => exact .single (.leakSlot (hRaises (.inr rfl)))

/-- The worker has become ready in time or has not. -/
theorem polling {caller : Option SpawnCaller} (hTaken : Taken cfg s i (.polling caller o a) s₁)
    (hStep : s₁.resume cfg env (.polling caller o a) outcome = some s') :
    Path cfg s (.run i env outcome) (s₁, (Task.polling caller o a).holds + 0) (s', 0) := by
  cases resumes_of_resume hStep with
  | ready hAnswers hInitialized =>
      refine path_worker_ready (hTaken.own.worker o rfl)
        (hTaken.write (by simp [overwrites, hTaken.resumed])) ?_ (by rw [hTaken.infos])
        hTaken.in_scope.queue
      rintro a second (rfl | rfl) <;> simp [handsOver, hTaken.resumed]
  | notReady => exact path_stop_worker (hTaken.own.worker o rfl)
  | prewarmFailed | cancelledPolling => exact .refl

end Spawns

/-- The process has exited, or waiting for it was cancelled. -/
theorem stopping {caller : StopCaller} (hTaken : Taken cfg s i (.stopping caller o) s₁)
    (hStep : s₁.resume cfg env (.stopping caller o) outcome = some s') :
    Path cfg s (.run i env outcome) (s₁, (Task.stopping caller o).holds + 0) (s', 0) := by
  cases resumes_of_resume hStep with
  | stopped hExited =>
      exact path_stopped (by simp [removesFor, hTaken.resumed]) hTaken.workers hTaken.procs
        (by rw [hTaken.infos])
  | cancelledStopping => exact .refl

section Requests

/-- The queued request has got its worker, or has been cancelled. -/
theorem waiting {f : FutureId} (hTaken : Taken cfg s i (.waiting f a retry) s₁)
    (hStep : s₁.resume cfg env (.waiting f a retry) outcome = some s') :
    Path cfg s (.run i env outcome) (s₁, (Task.waiting f a retry).holds + 0) (s', 0) := by
  show Path cfg s (.run i env outcome) (_, waiter f ::ₘ 0) (_, 0)
  cases resumes_of_resume hStep with
  | @available _ _ _ o hState =>
      have hOld : (s.futures f).state = .resolved o := by
        rw [hTaken.rest] at hState
        exact hState
      refine path_worker_available (hTaken.in_scope.resolved f o hState)
        (hTaken.own.future f rfl) hState ?_
      rintro rfl
      simp [retried, hTaken.resumed, hOld]
  | expired hState => exact .single (.notice hState)

/-- The inference call has returned or raised. -/
theorem inferring (hTaken : Taken cfg s i (.inferring o a retry) s₁)
    (hStep : s₁.resume cfg env (.inferring o a retry) outcome = some s') :
    Path cfg s (.run i env outcome) (s₁, (Task.inferring o a retry).holds + 0) (s', 0) := by
  show Path cfg s (.run i env outcome) (_, reservation o ::ₘ 0) (_, 0)
  cases resumes_of_resume hStep with
  | answered hOutcome =>
      exact path_inference_returned (hTaken.own.worker o rfl) (by rintro ⟨⟩) hTaken.workers
        hTaken.procs (by rw [hTaken.infos])
  | unreached =>
      refine path_inference_returned (hTaken.own.worker o rfl) ?_ hTaken.workers hTaken.procs
        (by rw [hTaken.infos])
      rintro - rfl
      simp [removesFor, hTaken.resumed]

end Requests

section Health

/-- The worker has answered a health check, or has not. -/
theorem health (hTaken : Taken cfg s i (.health o) s₁)
    (hStep : s₁.resume cfg env (.health o) outcome = some s') :
    Path cfg s (.run i env outcome) (s₁, (Task.health o).holds + 0) (s', 0) := by
  have hWorker := hTaken.own.worker o rfl
  cases resumes_of_resume hStep with
  | healthReady =>
      have hInfo : (Task.adapterInfo o).Scoped cfg s₁ := scoped_of_worker rfl rfl rfl hWorker
      split
      next hStatus =>
        refine .head (.write hWorker (by decide) (.inr ?_))
          (.single (.put (zero_add 0).symm (hInfo.mono le_rfl le_rfl) trivial))
        rcases hStatus with hStatus | hStatus <;> rw [hStatus] <;> decide
      next => exact .single (.put (zero_add 0).symm hInfo trivial)
  | healthUnready =>
      split
      next hStatus =>
        refine .single (.write hWorker (by decide) (.inl (hTaken.write ?_)))
        simpa [overwrites, hTaken.resumed, hTaken.infos] using hStatus
      next => exact .refl
  | healthOther =>
      exact .single (.write hWorker (by decide)
        (.inl (hTaken.write (by simp [overwrites, hTaken.resumed]))))
  | failure =>
      unfold handle_worker_failure
      split
      next hExited =>
        have hRemoves : s.removes (.run i env .failed) (s₁.infos o).worker_id := by
          refine ⟨o, ?_, by rw [hTaken.infos]⟩
          simpa [removesFor, hTaken.resumed, hTaken.procs] using hExited
        exact path_remove_worker hRemoves hTaken.workers hTaken.procs
      next hExited =>
        refine .single (.write hWorker (by decide) (.inl (hTaken.write ?_)))
        simpa [overwrites, hTaken.resumed, hTaken.procs] using hExited

/-- The answer to a health check may report a swap, with which the worker is marked. -/
theorem adapterInfo (hTaken : Taken cfg s i (.adapterInfo o) s₁)
    (hStep : s₁.resume cfg env (.adapterInfo o) outcome = some s') :
    Path cfg s (.run i env outcome) (s₁, (Task.adapterInfo o).holds + 0) (s', 0) := by
  cases resumes_of_resume hStep with
  | noInfo => exact .refl
  | @info _ name is_swapping =>
      have hPath : Path cfg s (.run i env (.adapterInfo name is_swapping)) (s₁, 0)
          (s₁.report_adapter o name, 0) := path_report_adapter (hTaken.own.worker o rfl)
      obtain ⟨hTotal, hSameRef, hSameWorkers, hSameProcs⟩ :
        total (s₁.report_adapter o name, 0) = total (s₁, 0) ∧ _ := report_adapter_frame
      have hLt : o < (s₁.report_adapter o name).nextRef := hSameRef ▸ hTaken.own.worker o rfl
      refine hPath.trans ?_
      unfold update_worker_adapter_info
      dsimp only
      split
      next hSwapping =>
        subst hSwapping
        have hLedger : total (s₁, 0) = s.ledger := by
          rw [hTaken.rest]
          exact (total_take hTaken.here).trans (total_zero s)
        refine .single (.reportSwapping hLt ?_ ?_ (hTotal.trans hLedger))
        · exact ⟨by simp [overwrites, hTaken.resumed], hSameWorkers.trans hTaken.workers,
            hSameProcs.trans hTaken.procs⟩
        · simp [reportsSwapping, hTaken.resumed]
      next => exact .refl

end Health

end Taken

/-- A resumed coroutine has in hand what it held, and its code is made of the effects that
the guards on the resumption speak of. -/
theorem path_resume {i : Nat} {task : Task} {outcome : Outcome} (hScoped : Scoped cfg s)
    (hTask : s.tasks[i]? = some task) (hRest : s₁ = { s with tasks := s.tasks.eraseIdx i })
    (hStep : s₁.resume cfg env task outcome = some s') :
    Path cfg s (.run i env outcome) (s, 0) (s', 0) := by
  have hTake : Path cfg s (.run i env outcome) (s, 0) (s₁, task.holds + 0) := by
    rw [hRest]
    exact .single (.take hTask rfl)
  have hOwn : task.Scoped cfg s₁ := by
    rw [hRest]
    exact (hScoped.tasks task (List.mem_of_getElem? hTask)).mono le_rfl le_rfl
  have hTaken : Taken cfg s i task s₁ := ⟨hTask, hRest, hScoped.path hTake, hOwn⟩
  refine hTake.trans ?_
  cases task with
  | swapNew caller o a => exact hTaken.swapNew hStep
  | swapping caller o a => exact hTaken.swapping hStep
  | spawnNew caller => exact hTaken.spawn (.inl rfl) hStep
  | retrySleep caller => exact hTaken.spawn (.inr rfl) hStep
  | ensuring caller worker_id device => exact hTaken.ensuring hStep
  | polling caller o a => exact hTaken.polling hStep
  | stopping caller o => exact hTaken.stopping hStep
  | waiting f a retry => exact hTaken.waiting hStep
  | inferring o a retry => exact hTaken.inferring hStep
  | health o => exact hTaken.health hStep
  | adapterInfo o => exact hTaken.adapterInfo hStep

/-- A process keeps its port and stays exited, and another adapter is loaded only where the step
says so. -/
theorem path_process {o : WorkerRef} {proc : Process} (hWorker : o < s.nextRef)
    (hPort : proc.port = (s.procs o).port) (hExited : (s.procs o).exited = true → proc.exited = true)
    (hAsked : proc.asked_to_stop = (s.procs o).asked_to_stop)
    (hAdapter : proc.adapter_id = (s.procs o).adapter_id ∨
      (∃ i, l = .loads i o) ∧ s.tasks = s₀.tasks) :
    Path cfg s₀ l (s, h) ({ s with procs := Function.update s.procs o proc }, h) :=
  .single (.process hWorker hPort hExited hAsked hAdapter)

/-- Every step is made of effects, with nothing in hand before and after it. -/
theorem path_of_step (hScoped : Scoped cfg s) (hStep : step cfg s l = some s') :
    Path cfg s l (s, 0) (s', 0) := by
  cases l with
  | request env a best_wid => exact path_route_request hScoped.pool hStep
  | run i env outcome =>
      simp only [step] at hStep
      split at hStep
      next task hTask => exact path_resume hScoped hTask rfl hStep
      next => simp at hStep
  | timeout i =>
      simp only [step] at hStep
      split at hStep
      next f a retry hTask =>
        simp only [Option.ite_none_right_eq_some, Option.some.injEq] at hStep
        obtain ⟨hPending, rfl⟩ := hStep
        have hFuture := (hScoped.tasks _ (List.mem_of_getElem? hTask)).future f rfl
        exact .single (.cancel hFuture hPending)
      next => simp at hStep
  | dispatch pruned expired best_wid => exact path_dispatch hScoped hStep
  | checkAll =>
      simp only [step, Option.ite_none_left_eq_some, Option.some.injEq] at hStep
      obtain ⟨-, rfl⟩ := hStep
      apply path_check_all
      intro entry hEntry
      exact (hScoped.pool entry.1 entry.2 (AList.mem_lookup_iff.mpr hEntry)).1
  | reap worker_ids =>
      obtain rfl := Option.some.inj hStep
      exact path_reap hScoped.pool
  | proactive rebalances spawns =>
      simp only [step, Option.ite_none_right_eq_some, Option.some.injEq] at hStep
      obtain ⟨-, rfl⟩ := hStep
      exact (path_rebalance hScoped.pool).trans path_spawn_for_dispatch
  | swapEndpoint worker_id a =>
      obtain ⟨o, hLookup, rfl⟩ := Option.map_eq_some_iff.mp hStep
      have hSwap : Path cfg s (.swapEndpoint worker_id a) (s, SwapCaller.detached.holds o + 0)
          (s.swap_worker_adapter .detached o a, 0) :=
        path_swap_worker_adapter (hScoped.pool worker_id o hLookup).1 (by simp)
          (.inl ⟨hLookup, rfl, rfl⟩)
      exact hSwap
  | spawnEndpoint env a initial =>
      obtain rfl := Option.some.inj hStep
      exact path_spawn_worker rfl rfl rfl
  | stopEndpoint worker_id =>
      obtain ⟨o, hLookup, rfl⟩ := Option.map_eq_some_iff.mp hStep
      exact path_stop_worker (hScoped.pool worker_id o hLookup).1
  | prewarm device a => exact path_prewarm hStep
  | cancelPending =>
      obtain rfl := Option.some.inj hStep
      exact path_cancel_all hScoped.queue
  | aggregatorReady device =>
      obtain rfl := Option.some.inj hStep
      exact .single .aggregator
  | listens o =>
      simp only [step, Option.ite_none_right_eq_some, Option.some.injEq] at hStep
      obtain ⟨⟨hWorker, -⟩, rfl⟩ := hStep
      exact path_process hWorker rfl id rfl (.inl rfl)
  | initialized o =>
      simp only [step, Option.ite_none_right_eq_some, Option.some.injEq] at hStep
      obtain ⟨hWorker, rfl⟩ := hStep
      exact path_process hWorker rfl id rfl (.inl rfl)
  | loads i o =>
      simp only [step] at hStep
      split at hStep
      next caller w a hTask =>
        simp only [Option.ite_none_right_eq_some, Option.some.injEq] at hStep
        obtain ⟨hAnswers, rfl⟩ := hStep
        exact path_process hAnswers.1 rfl id rfl (.inr ⟨⟨i, rfl⟩, rfl⟩)
      next => simp at hStep
  | exits o =>
      simp only [step, Option.ite_none_right_eq_some, Option.some.injEq] at hStep
      obtain ⟨hWorker, rfl⟩ := hStep
      exact path_process hWorker rfl (fun _ => rfl) rfl (.inl rfl)

/-- At the start nothing is out of scope. -/
theorem Initial.scoped (hInitial : Initial s) : Scoped cfg s := by
  refine ⟨?_, ?_, ?_, ?_⟩
  · intro wid o hLookup
    rw [hInitial.workers] at hLookup
    simp at hLookup
  · simp [hInitial.tasks]
  · simp [hInitial.pending_requests]
  · simp [hInitial.futures]

/-- Nor is anything in any state of a run. -/
theorem scoped_of_reach {guard : State → Label → Prop} (run : (machine cfg).Reach guard s) :
    Scoped cfg s :=
  run.invariant (Scoped cfg) (fun _ => Initial.scoped)
    fun _ _ _ hScoped _ hStep => hScoped.path (path_of_step hScoped hStep)

/-- Whatever steps the runs are restricted to, their steps are made of effects. -/
theorem madeOf_effects (guard : State → Label → Prop) :
    (machine cfg).MadeOf guard (Effect cfg) :=
  fun _ _ _ prior _ hStep => path_of_step (scoped_of_reach prior) hStep

end Controller
