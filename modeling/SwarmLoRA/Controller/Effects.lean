import Mathlib.Algebra.BigOperators.Group.Finset.Basic
import Mathlib.Data.Multiset.Basic
import SwarmLoRA.Controller.Step
import SwarmLoRA.Machine.System

namespace Machine

/-- A relation keeps a property along every path if it keeps it from link to link. -/
theorem preserved_of_path {α : Type} {E : α → α → Prop} {I : α → Prop}
    (hLink : ∀ x y, I x → E x y → I y) {x y : α} (path : Relation.ReflTransGen E x y)
    (h : I x) : I y := by
  induction path with
  | refl => exact h
  | tail _ hLast ih => exact hLink _ _ ih hLast

namespace System

variable {State Label Holding : Type} {M : System State Label} {guard : State → Label → Prop}

/-- The effects of the steps that can be made from a state with a label. -/
abbrev Effects (State Label Holding : Type) : Type :=
  State → Label → State × Multiset Holding → State × Multiset Holding → Prop

/-- The steps of guarded runs are paths of effects with nothing in hand at the ends. -/
def MadeOf (M : System State Label) (guard : State → Label → Prop)
    (E : Effects State Label Holding) : Prop :=
  ∀ s l s', M.Reach guard s → guard s l → M.step s l = some s' →
    Relation.ReflTransGen (E s l) (s, 0) (s', 0)

/-- The invariant rule for steps that are made of effects: the invariant speaks of the state
and of what is in hand, and every single effect keeps it. -/
theorem Reach.invariant_of_effects {E : Effects State Label Holding}
    (hMade : M.MadeOf guard E) (I : State × Multiset Holding → Prop)
    (hInit : ∀ s, M.initial s → I (s, 0))
    (hEffect : ∀ s l x y, M.Reach guard s → I (s, 0) → guard s l → I x → E s l x y → I y)
    {s : State} (run : M.Reach guard s) : I (s, 0) := by
  induction run with
  | start hInitial => exact hInit _ hInitial
  | next prior hGuard hLast ih =>
      exact preserved_of_path (fun x y => hEffect _ _ x y prior ih hGuard)
        (hMade _ _ _ prior hGuard hLast) ih

end System

end Machine

/-!
What a stretch of code of the load balancer can do to the state, effect by effect. What a
suspended coroutine, a queue entry or a future stands for is a multiset of holdings, and so
is what the running code has in hand.
-/

namespace Controller

open Machine State

/-- A reservation of a worker by a request, a reserved place on a device, a queued request
that is to be given a worker, a request that waits for its future, and a swap call on a
worker. -/
inductive Holding where
  | reservation (o : WorkerRef)
  | slot (dev : Device)
  | entry (f : FutureId)
  | waiter (f : FutureId)
  | swap (o : WorkerRef)
  deriving DecidableEq

open Holding

def SwapCaller.holds (o : WorkerRef) : SwapCaller → Multiset Holding
  | .request _ => {reservation o}
  | .resolve f => reservation o ::ₘ {entry f}
  | .detached => 0

def Task.holds : Task → Multiset Holding
  | .swapNew caller o _ => caller.holds o
  | .swapping caller o _ => swap o ::ₘ caller.holds o
  | .ensuring _ _ dev => {slot dev}
  | .waiting f _ _ => {waiter f}
  | .inferring o _ _ => {reservation o}
  | .spawnNew _ | .polling _ _ _ | .retrySleep _ | .stopping _ _ | .health _ | .adapterInfo _ => 0

/-- The worker that the coroutine works on. -/
def Task.worker : Task → Option WorkerRef
  | .swapNew _ o _ | .swapping _ o _ | .polling _ o _ | .stopping _ o | .inferring o _ _
  | .health o | .adapterInfo o => some o
  | .spawnNew _ | .ensuring _ _ _ | .retrySleep _ | .waiting _ _ _ => none

/-- The future that the coroutine is to resolve or waits for. -/
def Task.future : Task → Option FutureId
  | .swapNew (.resolve f) _ _ | .swapping (.resolve f) _ _ | .waiting f _ _ => some f
  | _ => none

/-- The id that the coroutine means to launch a process under. -/
def Task.worker_id : Task → Option WorkerId
  | .ensuring _ worker_id _ => some worker_id
  | _ => none

/-- When a poll for the readiness of a process begins, the process has the adapter that it is
to be registered with. -/
def Task.Begun (procs : WorkerRef → Process) : Task → Prop
  | .polling _ o a => (procs o).adapter_id = a
  | _ => True

/-- What the coroutine speaks of has been made, and its id is one of the pool's. Workers and futures
are never unmade, so this stays so. -/
structure Task.Scoped (cfg : Config) (s : State) (task : Task) : Prop where
  worker : ∀ o ∈ task.worker, o < s.nextRef
  future : ∀ f ∈ task.future, f < s.nextFuture
  worker_id : ∀ wid ∈ task.worker_id, wid < cfg.max_workers

/-- A future that has been resolved keeps the reservation until its request is resumed. -/
def FutureState.holds : FutureState → Multiset Holding
  | .resolved o => {reservation o}
  | _ => 0

namespace State

/-- Everything that is held while no code of the controller runs. -/
def ledger (s : State) : Multiset Holding :=
  (s.tasks.map Task.holds).sum + ↑(s.pending_requests.map fun pr => entry pr.future) +
    ∑ f ∈ Finset.range s.nextFuture, (s.futures f).state.holds

/-- The `i`-th coroutine, when the step resumes it. -/
def resumed (s : State) : Label → Option (Task × Outcome)
  | .run i _ outcome => (s.tasks[i]?).map fun task => (task, outcome)
  | _ => none

/-- The worker that a retried request is resumed with. -/
def retried (s : State) (l : Label) : Option WorkerRef :=
  match s.resumed l with
  | some (.waiting f _ true, .resumed) =>
      match (s.futures f).state with
      | .resolved o => some o
      | _ => none
  | _ => none

/-- The new worker that a spawn hands over to a request. -/
def handsOver (s : State) (l : Label) : Option WorkerRef :=
  match s.resumed l with
  | some (.polling (some (.request _ _)) o _, .ready _)
  | some (.polling (some (.dispatch _ _)) o _, .ready _) => some o
  | _ => none

/-- The worker for which the step removes an id from the pool or from the registry. -/
def removesFor (s : State) (l : Label) : Option WorkerRef :=
  match s.resumed l with
  | some (.stopping _ o, .resumed) => some o
  | some (.inferring o _ false, .connectFailed) => some o
  | some (.health o, .failed) => if (s.procs o).exited then some o else none
  | _ => none

/-- The worker whose status the step writes whatever it has been. -/
def overwrites (s : State) (l : Label) : Option WorkerRef :=
  match s.resumed l, l with
  | some (.swapNew _ o _, .resumed), _ => some o
  | some (.swapping _ o _, _), _ => some o
  | some (.polling _ o _, .ready _), _ => some o
  | some (.health o, .healthUnready), _ => if (s.infos o).status ≠ .starting then some o else none
  | some (.health o, .healthOther), _ => some o
  | some (.health o, .failed), _ => if (s.procs o).exited then none else some o
  | some (.adapterInfo o, .adapterInfo _ true), _ => some o
  | _, .swapEndpoint worker_id _ => s.workers.lookup worker_id
  | _, _ => none

/-- The worker that is found to be swapping by what it says of itself. -/
def reportsSwapping (s : State) (l : Label) : Option WorkerRef :=
  match s.resumed l with
  | some (.adapterInfo o, .adapterInfo _ true) => some o
  | _ => none

/-- The id of a process that a call of `spawn_worker` launches without waiting, and whether
the launch succeeds. -/
def spawns (cfg : Config) (s : State) (env : Env) : Option (WorkerId × Bool) :=
  match s.get_next_worker_id cfg, s.pick_device cfg with
  | some worker_id, some device =>
      if s.aggregator_ready device then some (worker_id, env.launched) else none
  | _, _ => none

/-- The id of a process that is launched once the aggregator is ready. -/
def ensured (cfg : Config) (s : State) (env : Env) (worker_id : WorkerId) :
    Option (WorkerId × Bool) :=
  if worker_id ∈ s.workers then
    (s.get_next_worker_id cfg).map fun worker_id => (worker_id, env.launched)
  else some (worker_id, env.launched)

/-- The id under which the step launches a process, and whether the launch succeeds. -/
def launches (cfg : Config) (s : State) : Label → Option (WorkerId × Bool)
  | .request env a best_wid =>
      match cfg.scheduler.route_request s.build_worker_snapshots
        (s.registry.adapter_to_workers a) s.num_workers cfg.max_workers best_wid with
      | some .spawn => s.spawns cfg env
      | _ => none
  | .run i env outcome =>
      match s.tasks[i]?, outcome with
      | some (.swapping (.request _) _ _), .failed | some (.spawnNew _), .resumed
      | some (.retrySleep _), .resumed => s.spawns cfg env
      | some (.ensuring _ worker_id _), .succeeded => s.ensured cfg env worker_id
      | _, _ => none
  | .spawnEndpoint env _ _ => s.spawns cfg env
  | .prewarm device _ =>
      if (device <|> s.pick_device cfg).isSome then
        (s.get_next_worker_id cfg).map fun worker_id => (worker_id, true)
      else none
  | _ => none

/-- A call of `spawn_worker` ends by an exception while it holds a reserved place. -/
def raises (cfg : Config) (s : State) (l : Label) : Bool :=
  match s.resumed l, s.launches cfg l with
  | some (.ensuring _ _ _, .raised), _ | some (.ensuring _ _ _, .cancelled), _ => true
  | _, some (_, false) => true
  | _, _ => false

/-- The device that a prewarm request names itself. -/
def namesDevice : Label → Option Device
  | .prewarm device _ => device
  | _ => none

/-- The step removes the id for the worker that had it. -/
def removes (s : State) (l : Label) (worker_id : WorkerId) : Prop :=
  ∃ o, s.removesFor l = some o ∧ worker_id = (s.infos o).worker_id

/-- The step writes the status of the worker, and neither a worker has entered or left the
pool nor has one been asked to stop since it began. -/
def overwritesFrom (s₀ : State) (l : Label) (s : State) (o : WorkerRef) : Prop :=
  s₀.overwrites l = some o ∧ s.workers = s₀.workers ∧ s.procs = s₀.procs

end State

abbrev Held := State × Multiset Holding

/-- The effects that the step from `s₀` with label `l` may be made of, on a state and what the
running code has in hand. The guards of the runs are conditions on these effects. -/
inductive Effect (cfg : Config) (s₀ : State) (l : Label) : Held → Held → Prop where
  | take {s : State} {h h' : Multiset Holding} {i : Nat} {task : Task}
      (hTask : s.tasks[i]? = some task) (hHolds : h' = task.holds + h) :
      Effect cfg s₀ l (s, h) ({ s with tasks := s.tasks.eraseIdx i }, h')
  | put {s : State} {h h' : Multiset Holding} {task : Task} (hHolds : h' = task.holds + h)
      (hScoped : task.Scoped cfg s) (hBegun : task.Begun s.procs) :
      Effect cfg s₀ l (s, h') (s.create_task task, h)
  | reserve {s : State} {h : Multiset Holding} {o : WorkerRef} (hWorker : o < s.nextRef)
      (hIdle : (s.infos o).active_requests = 0 ∨ s₀.handsOver l = some o ∧
        (s.infos o).active_requests = (s₀.infos o).active_requests) :
      Effect cfg s₀ l (s, h) (s.addActive o 1, reservation o ::ₘ h)
  | reserveTwice {s : State} {h : Multiset Holding} {o : WorkerRef}
      (hRetried : s₀.retried l = some o) :
      Effect cfg s₀ l (s, h) (s.addActive o 1, h)
  | release {s : State} {h : Multiset Holding} {o : WorkerRef} :
      Effect cfg s₀ l (s, reservation o ::ₘ h) (s.addActive o (-1), h)
  | queue {s : State} {h : Multiset Holding} {adapter_id : AdapterId} {retry : Bool} :
      Effect cfg s₀ l (s, h) (s.wait_for_available_worker adapter_id retry, h)
  | requeue {s : State} {h : Multiset Holding} {adapter_id : AdapterId} {f : FutureId}
      (hFuture : f < s.nextFuture) :
      Effect cfg s₀ l (s, entry f ::ₘ h)
        ({ s with pending_requests := s.pending_requests ++ [⟨adapter_id, f⟩] }, h)
  | dequeue {s : State} {h : Multiset Holding} {pr : PendingRequest} {rest : List PendingRequest}
      (hHead : s.pending_requests = pr :: rest) :
      Effect cfg s₀ l (s, h) ({ s with pending_requests := rest }, entry pr.future ::ₘ h)
  | drop {s : State} {h : Multiset Holding} {f : FutureId} (hDone : s.isPending f = false) :
      Effect cfg s₀ l (s, entry f ::ₘ h) (s, h)
  | resolve {s : State} {h : Multiset Holding} {f : FutureId} {o : WorkerRef}
      (hWorker : o < s.nextRef) (hFuture : f < s.nextFuture) (hPending : s.isPending f = true) :
      Effect cfg s₀ l (s, reservation o ::ₘ h) (s.set_result f o, h)
  | deliver {s : State} {h : Multiset Holding} {f : FutureId} {o : WorkerRef}
      (hFuture : f < s.nextFuture) (hResolved : (s.futures f).state = .resolved o) :
      Effect cfg s₀ l (s, waiter f ::ₘ h) (s.setFuture f (.delivered o), reservation o ::ₘ h)
  | cancel {s : State} {h : Multiset Holding} {f : FutureId} (hFuture : f < s.nextFuture)
      (hPending : s.isPending f = true) :
      Effect cfg s₀ l (s, h) (s.setFuture f .cancelled, h)
  | notice {s : State} {h : Multiset Holding} {f : FutureId}
      (hCancelled : (s.futures f).state = .cancelled) :
      Effect cfg s₀ l (s, waiter f ::ₘ h) (s, h)
  | reserveSlot {s : State} {h : Multiset Holding} {dev : Device}
      (hRoom : (∀ cap ∈ cfg.cap dev, s.gpu_worker_count dev < cap) ∨
        namesDevice l = some dev ∧ s.gpu_worker_count = s₀.gpu_worker_count) :
      Effect cfg s₀ l (s, h) (s.addCount dev 1, slot dev ::ₘ h)
  | releaseSlot {s : State} {h : Multiset Holding} {dev : Device} :
      Effect cfg s₀ l (s, slot dev ::ₘ h) (s.addCount dev (-1), h)
  | leakSlot {s : State} {h : Multiset Holding} {dev : Device} (hRaises : s₀.raises cfg l = true) :
      Effect cfg s₀ l (s, slot dev ::ₘ h) (s, h)
  | launch {s : State} {h : Multiset Holding} {dev : Device} {worker_id : WorkerId}
      {adapter_id : AdapterId} (hFree : worker_id ∉ s.workers) (hId : worker_id < cfg.max_workers)
      (hLaunches : s₀.launches cfg l = some (worker_id, true)) (hProcs : s.procs = s₀.procs)
      (hRef : s.nextRef = s₀.nextRef) :
      Effect cfg s₀ l (s, slot dev ::ₘ h) (s.add_worker cfg worker_id dev adapter_id, h)
  | pop {s : State} {h : Multiset Holding} {worker_id : WorkerId} {o : WorkerRef}
      (hLookup : s.workers.lookup worker_id = some o)
      (hRemoves : s₀.removes l worker_id ∧ s.workers = s₀.workers ∧ s.procs = s₀.procs ∨
        ∃ worker_ids, l = .reap worker_ids ∧ worker_id ∈ worker_ids ∧
          (s.procs o).asked_to_stop = true) :
      Effect cfg s₀ l (s, h) (s.pop_worker worker_id o, h)
  | unregister {s : State} {h : Multiset Holding} {worker_id : WorkerId}
      (hRemoves : s₀.removes l worker_id ∨
        ∃ worker_ids, l = .reap worker_ids ∧ worker_id ∈ worker_ids ∧ worker_id ∉ s.workers) :
      Effect cfg s₀ l (s, h) (s.unregister worker_id, h)
  | register {s : State} {h : Multiset Holding} {worker_id : WorkerId} {adapter_id : AdapterId} :
      Effect cfg s₀ l (s, h) (s.register worker_id adapter_id, h)
  | write {s : State} {h : Multiset Holding} {o : WorkerRef} {status : WorkerStatus}
      (hWorker : o < s.nextRef) (hStatus : status ≠ .swapping ∧ status ≠ .stopping)
      (hWrite : s₀.overwritesFrom l s o ∨ (s.infos o).status ≠ .stopping) :
      Effect cfg s₀ l (s, h) (s.setStatus o status, h)
  | markStopping {s : State} {h : Multiset Holding} {o : WorkerRef} (hWorker : o < s.nextRef) :
      Effect cfg s₀ l (s, h) (s.mark_stopping o, h)
  | beginSwap {s : State} {h : Multiset Holding} {o : WorkerRef} (hWorker : o < s.nextRef)
      (hWrite : s₀.overwritesFrom l s o ∨ (s.infos o).status ≠ .stopping) :
      Effect cfg s₀ l (s, h) (s.setStatus o .swapping, swap o ::ₘ h)
  | endSwap {s : State} {h : Multiset Holding} {o : WorkerRef} (hWorker : o < s.nextRef)
      (hWrite : s₀.overwritesFrom l s o) :
      Effect cfg s₀ l (s, swap o ::ₘ h) (s.setStatus o .ready, h)
  | reportSwapping {s : State} {h : Multiset Holding} {o : WorkerRef} (hWorker : o < s.nextRef)
      (hWrite : s₀.overwritesFrom l s o) (hReports : s₀.reportsSwapping l = some o)
      (hLedger : s.ledger + h = s₀.ledger) :
      Effect cfg s₀ l (s, h) (s.setStatus o .swapping, h)
  | setAdapter {s : State} {h : Multiset Holding} {o : WorkerRef} {adapter_id : AdapterId}
      (hWorker : o < s.nextRef) :
      Effect cfg s₀ l (s, h) (s.setInfo o { s.infos o with adapter_id }, h)
  | spawning {s : State} {h : Multiset Holding} {adapters : List AdapterId} :
      Effect cfg s₀ l (s, h) ({ s with spawns_in_progress := adapters }, h)
  | aggregator {s : State} {h : Multiset Holding} {dev : Device} :
      Effect cfg s₀ l (s, h)
        ({ s with aggregator_ready := Function.update s.aggregator_ready dev true }, h)
  | process {s : State} {h : Multiset Holding} {o : WorkerRef} {proc : Process}
      (hWorker : o < s.nextRef) (hPort : proc.port = (s.procs o).port)
      (hExited : (s.procs o).exited = true → proc.exited = true)
      (hAsked : proc.asked_to_stop = (s.procs o).asked_to_stop)
      (hAdapter : proc.adapter_id = (s.procs o).adapter_id ∨
        (∃ i, l = .loads i o) ∧ s.tasks = s₀.tasks) :
      Effect cfg s₀ l (s, h) ({ s with procs := Function.update s.procs o proc }, h)

end Controller
