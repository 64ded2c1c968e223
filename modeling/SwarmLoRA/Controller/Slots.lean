import SwarmLoRA.Controller.Accounts

namespace Controller

open Machine State Holding

/-- The call of `spawn_worker` has a place on the device and has not launched a process yet. -/
def Task.reservesOn (dev : Device) : Task → Bool
  | .ensuring _ _ d => d = dev
  | _ => false

namespace State

/-- The workers of the pool on the device. -/
def onDevice (s : State) (dev : Device) : Nat :=
  s.workers.entries.countP fun entry => (s.infos entry.2).device = dev

/-- The places on the device that spawns hold. -/
def placesOn (s : State) (dev : Device) : Nat := s.tasks.countP (Task.reservesOn dev)

end State

variable {cfg : Config} {s₀ s s' : State} {l : Label} {x y : Held} {dev : Device}

theorem count_slot (s : State) (dev : Device) : s.ledger.count (slot dev) = s.placesOn dev := by
  have hFutures : ∀ f, (s.futures f).state.holds.count (slot dev) = 0 := by
    intro f
    cases (s.futures f).state <;> simp [FutureState.holds]
  have hTasks : ∀ task : Task, task.holds.count (slot dev) = if task.reservesOn dev then 1 else 0 := by
    intro task
    cases task with
    | swapNew caller => cases caller <;> simp [Task.holds, SwapCaller.holds, Task.reservesOn]
    | swapping caller => cases caller <;> simp [Task.holds, SwapCaller.holds, Task.reservesOn]
    | ensuring caller wid d =>
        simp [Task.holds, Task.reservesOn, Multiset.count_singleton, eq_comm]
    | _ => simp [Task.holds, Task.reservesOn]
  rw [count_ledger, Finset.sum_congr rfl fun f _ => hFutures f, Finset.sum_const_zero]
  simp [hTasks, sum_map_ite, placesOn]

/-- The device of a worker of the pool does not change. -/
theorem onDevice_of_same (hPool : PoolScoped s) (hWorkers : s'.workers = s.workers)
    (hInfos : ∀ o < s.nextRef, (s.infos o).Keeps (s'.infos o)) (dev : Device) :
    s'.onDevice dev = s.onDevice dev := by
  rw [onDevice, onDevice, hWorkers]
  apply List.countP_congr
  intro entry hEntry
  have hWorker := (hPool entry.1 entry.2 (AList.mem_lookup_iff.mpr hEntry)).1
  rw [(hInfos entry.2 hWorker).device]

theorem onDevice_add_worker {worker_id : WorkerId} {adapter_id : AdapterId} (hPool : PoolScoped s)
    (hFree : worker_id ∉ s.workers) (d dev : Device) :
    (s.add_worker cfg worker_id d adapter_id).onDevice dev =
      s.onDevice dev + if dev = d then 1 else 0 := by
  have hOld : s.workers.entries.countP (fun entry =>
      ((s.add_worker cfg worker_id d adapter_id).infos entry.2).device = dev) = s.onDevice dev := by
    apply List.countP_congr
    intro entry hEntry
    have hWorker := (hPool entry.1 entry.2 (AList.mem_lookup_iff.mpr hEntry)).1
    simp only [add_worker, Function.update_of_ne hWorker.ne]
  have hNew : ((s.add_worker cfg worker_id d adapter_id).infos s.nextRef).device = d := by
    simp [add_worker]
  have hEntries : (s.add_worker cfg worker_id d adapter_id).workers.entries =
      ⟨worker_id, s.nextRef⟩ :: s.workers.entries := AList.entries_insert_of_notMem hFree
  rw [onDevice, hEntries, List.countP_cons, hOld, hNew]
  simp [eq_comm]

theorem onDevice_pop_worker {worker_id : WorkerId} {o : WorkerRef}
    (hLookup : s.workers.lookup worker_id = some o) (dev : Device) :
    (s.pop_worker worker_id o).onDevice dev + (if (s.infos o).device = dev then 1 else 0) =
      s.onDevice dev := by
  have hKey : worker_id ∈ s.workers.entries.keys := AList.lookup_isSome.mp (by simp [hLookup])
  obtain ⟨p, before, rest, -, hEntries, hErased⟩ := List.exists_of_kerase hKey
  have hSame : p = o := by
    have hMem : p ∈ s.workers.lookup worker_id := AList.mem_lookup_iff.mpr (by simp [hEntries])
    rw [hLookup] at hMem
    exact (Option.some.inj hMem).symm
  have hPopped : (s.pop_worker worker_id o).workers.entries = before ++ rest := hErased
  have hAfter : (s.pop_worker worker_id o).onDevice dev =
      (before ++ rest).countP fun entry => (s.infos entry.2).device = dev := by
    rw [onDevice, hPopped]
    rfl
  rw [hAfter, onDevice, hEntries, hSame]
  simp only [List.countP_append, List.countP_cons, decide_eq_true_eq]
  omega

theorem gpu_worker_count_addCount (s : State) (d dev : Device) (n : Int) :
    (s.addCount d n).gpu_worker_count dev = s.gpu_worker_count dev + if dev = d then n else 0 := by
  show Function.update s.gpu_worker_count d (s.gpu_worker_count d + n) dev = _
  rw [Function.update_apply]
  split
  next hd => rw [hd]
  next => exact (Int.add_zero _).symm

theorem count_slot_cons (s : State) (h : Multiset Holding) (d dev : Device) :
    (total (s, slot d ::ₘ h)).count (slot dev) =
      (total (s, h)).count (slot dev) + if dev = d then 1 else 0 := by
  rw [total_cons, Multiset.count_cons]
  simp only [Holding.slot.injEq]

/-- The count of every device is that of its workers and of the places that spawns hold there,
and no more than its cap. -/
structure Placed (cfg : Config) (x : Held) : Prop where
  pool : PoolScoped x.1
  counted : ∀ dev, x.1.gpu_worker_count dev = x.1.onDevice dev + (total x).count (slot dev)
  capped : ∀ dev, ∀ cap ∈ cfg.cap dev, x.1.gpu_worker_count dev ≤ cap
  ids : ∀ wid ∈ x.1.workers, wid < cfg.max_workers

/-- An effect that has nothing to do with devices. -/
theorem Placed.of_same (hPlaced : Placed cfg x) (hPool : PoolScoped y.1)
    (hWorkers : y.1.workers = x.1.workers)
    (hInfos : ∀ o < x.1.nextRef, (x.1.infos o).Keeps (y.1.infos o))
    (hCounts : y.1.gpu_worker_count = x.1.gpu_worker_count)
    (hSlots : ∀ dev, (total y).count (slot dev) = (total x).count (slot dev)) : Placed cfg y := by
  refine ⟨hPool, fun dev => ?_, ?_, ?_⟩
  · rw [hCounts, hSlots, onDevice_of_same hPlaced.pool hWorkers hInfos]
    exact hPlaced.counted dev
  · rw [hCounts]
    exact hPlaced.capped
  · rw [hWorkers]
    exact hPlaced.ids

/-- No call of `spawn_worker` ends by an exception while it holds a place, and no prewarm
request names a device that has its share. -/
def Room (cfg : Config) (s : State) (l : Label) : Prop :=
  s.raises cfg l = false ∧
    ∀ dev ∈ namesDevice l, ∀ cap ∈ cfg.cap dev, s.gpu_worker_count dev < cap

instance (s : State) (l : Label) : Decidable (Room cfg s l) :=
  inferInstanceAs (Decidable (_ ∧ _))

section Effects

variable {h : Multiset Holding} {d : Device} {wid : WorkerId} {o : WorkerRef} {a : AdapterId}

theorem Placed.reserveSlot (hPlaced : Placed cfg (s, h)) (hPool : PoolScoped (s.addCount d 1))
    (hLt : ∀ cap ∈ cfg.cap d, s.gpu_worker_count d < cap) :
    Placed cfg (s.addCount d 1, slot d ::ₘ h) := by
  refine ⟨hPool, fun dev => ?_, fun dev cap hCap => ?_, hPlaced.ids⟩
  · have hOld := hPlaced.counted dev
    rw [gpu_worker_count_addCount, count_slot_cons]
    show _ = (s.onDevice dev : Int) + (((total (s, h)).count (slot dev) + _ : Nat) : Int)
    dsimp only at hOld
    split <;> omega
  · have hOld := hPlaced.capped dev cap hCap
    rw [gpu_worker_count_addCount]
    split
    next hd =>
      subst hd
      have hNew := hLt cap hCap
      omega
    next => simpa using hOld

theorem Placed.releaseSlot (hPlaced : Placed cfg (s, slot d ::ₘ h))
    (hPool : PoolScoped (s.addCount d (-1))) : Placed cfg (s.addCount d (-1), h) := by
  refine ⟨hPool, fun dev => ?_, fun dev cap hCap => ?_, hPlaced.ids⟩
  · have hOld := hPlaced.counted dev
    rw [count_slot_cons] at hOld
    rw [gpu_worker_count_addCount]
    show _ = (s.onDevice dev : Int) + ((total (s, h)).count (slot dev) : Int)
    dsimp only at hOld
    by_cases hd : dev = d
    · rw [if_pos hd] at hOld ⊢
      omega
    · rw [if_neg hd] at hOld ⊢
      omega
  · have hOld := hPlaced.capped dev cap hCap
    rw [gpu_worker_count_addCount]
    split <;> dsimp only at hOld ⊢ <;> omega

/-- A place becomes a worker. -/
theorem Placed.launch (hPlaced : Placed cfg (s, slot d ::ₘ h))
    (hPool : PoolScoped (s.add_worker cfg wid d a)) (hFree : wid ∉ s.workers)
    (hId : wid < cfg.max_workers) : Placed cfg (s.add_worker cfg wid d a, h) := by
  refine ⟨hPool, fun dev => ?_, hPlaced.capped, fun w hw => ?_⟩
  · have hOld := hPlaced.counted dev
    rw [count_slot_cons] at hOld
    rw [onDevice_add_worker hPlaced.pool hFree]
    show s.gpu_worker_count dev = ((s.onDevice dev + _ : Nat) : Int) +
      ((total (s, h)).count (slot dev) : Int)
    dsimp only at hOld
    omega
  · rcases (AList.mem_insert s.workers).mp hw with rfl | hOld
    · exact hId
    · exact hPlaced.ids w hOld

/-- A worker leaves the pool and is not counted any more. -/
theorem Placed.pop (hPlaced : Placed cfg (s, h)) (hPool : PoolScoped (s.pop_worker wid o))
    (hLookup : s.workers.lookup wid = some o) : Placed cfg (s.pop_worker wid o, h) := by
  have hGpu : ∀ dev, (s.pop_worker wid o).gpu_worker_count dev =
      (s.pop_worker wid o).onDevice dev + (total (s, h)).count (slot dev) := by
    intro dev
    have hOld := hPlaced.counted dev
    have hPop := onDevice_pop_worker hLookup dev
    show (Function.update s.gpu_worker_count _ _ dev : Int) = _
    rw [Function.update_apply]
    dsimp only at hOld
    by_cases hd : dev = (s.infos o).device
    · rw [if_pos hd.symm] at hPop
      rw [if_pos hd, ← hd]
      omega
    · rw [if_neg (Ne.symm hd)] at hPop
      rw [if_neg hd]
      omega
  refine ⟨hPool, hGpu, fun dev cap hCap => ?_, fun w hw => ?_⟩
  · have hOld := hPlaced.capped dev cap hCap
    have hCounted := hPlaced.counted dev
    have hPop := onDevice_pop_worker hLookup dev
    rw [hGpu]
    dsimp only at hOld hCounted
    omega
  · exact hPlaced.ids w (AList.mem_erase.mp hw).2

end Effects

/-- No effect in a run with room breaks the accounts. -/
theorem Placed.effect (hPlaced : Placed cfg x) (hRoom : Room cfg s₀ l)
    (hPool : PoolScoped y.1) (hEffect : Effect cfg s₀ l x y) : Placed cfg y := by
  have hInfos : ∀ o < x.1.nextRef, (x.1.infos o).Keeps (y.1.infos o) :=
    fun o hWorker => (hEffect.keeps hWorker).2
  cases hEffect with
  | take hTask hHolds =>
      subst hHolds
      exact hPlaced.of_same hPool rfl hInfos rfl fun dev => by rw [total_take hTask]
  | put hHolds =>
      subst hHolds
      exact hPlaced.of_same hPool rfl hInfos rfl fun dev => by rw [total_put]
  | queue => exact hPlaced.of_same hPool rfl hInfos rfl fun dev => by simp [total_queue]
  | requeue =>
      exact hPlaced.of_same hPool rfl hInfos rfl fun dev => by rw [total_requeue, total_cons]
  | dequeue hHead =>
      exact hPlaced.of_same hPool rfl hInfos rfl fun dev => by rw [total_cons, total_dequeue hHead]
  | resolve hWorker hFuture hPending =>
      exact hPlaced.of_same hPool rfl hInfos rfl fun dev => by
        rw [total_resolve hFuture hPending, total_cons]
  | deliver hFuture hResolved =>
      exact hPlaced.of_same hPool rfl hInfos rfl fun dev => by
        rw [total_cons, total_deliver hFuture hResolved]
        simp
  | cancel hFuture hPending =>
      exact hPlaced.of_same hPool rfl hInfos rfl fun dev => by rw [total_cancel hFuture hPending]
  | @reserveSlot s h d hFull =>
      refine hPlaced.reserveSlot hPool ?_
      rcases hFull with hFree | ⟨hNames, hSame⟩
      · exact hFree
      · rw [hSame]
        exact hRoom.2 d hNames
  | releaseSlot => exact hPlaced.releaseSlot hPool
  | leakSlot hRaises =>
      rw [hRoom.1] at hRaises
      exact absurd hRaises (by simp)
  | launch hFree hId => exact hPlaced.launch hPool hFree hId
  | pop hLookup => exact hPlaced.pop hPool hLookup
  | reserve | release | drop | notice | beginSwap | endSwap =>
      exact hPlaced.of_same hPool rfl hInfos rfl fun dev => by simp
  | _ => exact hPlaced.of_same hPool rfl hInfos rfl fun dev => rfl

/-- The count of every device is that of its workers and of the spawns that hold a place there,
no device has more than its cap, and every id of the pool is one of the configured ones. -/
structure Accounted (cfg : Config) (s : State) : Prop where
  counted : ∀ dev, s.gpu_worker_count dev = s.onDevice dev + s.placesOn dev
  capped : ∀ dev, ∀ cap ∈ cfg.cap dev, s.gpu_worker_count dev ≤ cap
  ids : ∀ wid ∈ s.workers, wid < cfg.max_workers

/-- The counts of the devices are those of their workers and stay within the caps, as long as no
spawn ends by an exception while it holds a place and no prewarm request names a device that has its
share. -/
theorem accounted_of_reach (run : (machine cfg).Reach (Room cfg) s) : Accounted cfg s := by
  have hPlaced : Placed cfg (s, 0) := by
    refine (run.invariant_of_effects (I := fun x => Scoped cfg x.1 ∧ Placed cfg x)
      (madeOf_effects (Room cfg)) ?_ ?_).2
    · intro s hInitial
      have hScoped : Scoped cfg s := hInitial.scoped
      refine ⟨hScoped, hScoped.pool, fun dev => ?_, fun dev cap _ => ?_, fun wid hMem => ?_⟩
      · simp [total_zero, ledger_of_initial hInitial, hInitial.gpu_worker_count, onDevice,
          hInitial.workers]
      · simp [hInitial.gpu_worker_count]
      · rw [hInitial.workers] at hMem
        simp at hMem
    · intro s l x y prior hStart hGuard hOld hEffect
      have hScoped : Scoped cfg y.1 := hOld.1.effect hEffect
      exact ⟨hScoped, hOld.2.effect hGuard hScoped.pool hEffect⟩
  refine ⟨fun dev => ?_, hPlaced.capped, hPlaced.ids⟩
  rw [← count_slot, ← total_zero]
  exact hPlaced.counted dev

/-- One device that takes a single worker. -/
def oneCapped : Config where
  __ := twoWorkers
  gpu_worker_caps := some fun dev => if dev = "cuda:0" then some 1 else none

/-- A spawn waits for the aggregator and launches its worker. -/
theorem accounted_of_launch : ∃ s, (machine oneCapped).Reach (Room oneCapped) s ∧
    s.gpu_worker_count "cuda:0" = 1 ∧ Accounted oneCapped s := by
  have hRun : ((machine oneCapped).replayUnder (Room oneCapped) built
      [.spawnEndpoint {} (some "a") false, .run 0 {} .succeeded]).map
      (fun s => s.gpu_worker_count "cuda:0") = some 1 := by decide +kernel
  obtain ⟨s, hReplay, hCount⟩ := Option.map_eq_some_iff.mp hRun
  have run := System.reach_of_replayUnder (.start built_initial) hReplay
  exact ⟨s, run, hCount, accounted_of_reach run⟩

/-- The launch of a process raises, and the place that the spawn took is never given back. -/
theorem raised_launch_keeps_place : ∃ s, (machine oneCapped).Reachable s ∧ s.tasks = [] ∧
    s.workers.entries = [] ∧ s.gpu_worker_count "cuda:0" = 1 ∧ ¬ Accounted oneCapped s := by
  have hRun : ((machine oneCapped).replay built
      [.aggregatorReady "cuda:0", .spawnEndpoint { launched := false } (some "a") false]).map
      (fun s => (s.tasks, s.workers.entries, s.gpu_worker_count "cuda:0")) =
      some ([], [], 1) := by decide +kernel
  obtain ⟨s, hReplay, hEnd⟩ := Option.map_eq_some_iff.mp hRun
  simp only [Prod.mk.injEq] at hEnd
  obtain ⟨hTasks, hEntries, hCount⟩ := hEnd
  refine ⟨s, System.reachable_of_replay (.start built_initial) hReplay, hTasks, hEntries, hCount, ?_⟩
  intro hAccounted
  have hCounted := hAccounted.counted "cuda:0"
  rw [hCount, onDevice, placesOn, hEntries, hTasks] at hCounted
  exact absurd hCounted (by simp)

end Controller
