import Mathlib.Data.List.AList
import Mathlib.Data.List.Sort
import Mathlib.Logic.Function.Basic
import SwarmLoRA.Controller.Scheduler

/-! The load balancer of a node: the worker pool, the queue of requests that wait for a worker,
and the coroutines that work on both. A coroutine runs undisturbed from one suspension to the
next, and no lock of the controller is held across a suspension, so a stretch of code between
two suspensions is one function from states to states. -/
namespace Controller

/-- The identity of a `WorkerInfo` object and of the process that was launched with it. -/
abbrev WorkerRef := Nat

abbrev FutureId := Nat

structure WorkerInfo where
  worker_id : WorkerId := 0
  http_port : Nat := 0
  adapter_id : AdapterId := none
  status : WorkerStatus := .starting
  device : Device := "cuda:0"
  active_requests : Int := 0

/-- A worker process. `asked_to_stop` is a history variable: the controller has begun to
stop the worker. -/
structure Process where
  port : Nat := 0
  adapter_id : AdapterId := none
  listening : Bool := false
  initialized : Bool := false
  exited : Bool := false
  asked_to_stop : Bool := false

/-- Maps adapters to workers and back. The first map is the index that routing looks at; nothing but
the calls keeps it in step with the second. -/
structure AdapterRegistry where
  adapter_to_workers : AdapterId → Finset WorkerId := fun _ => ∅
  worker_to_adapter : WorkerId → Option AdapterId := fun _ => none

namespace AdapterRegistry

/-- Take the worker out of the set of the adapter, unless the name of the adapter is false
in Python. -/
def discard (r : AdapterRegistry) (worker_id : WorkerId) : Option AdapterId → AdapterRegistry
  | some (some name) =>
      if name = "" then r
      else { r with
        adapter_to_workers := Function.update r.adapter_to_workers (some name)
          ((r.adapter_to_workers (some name)).erase worker_id) }
  | _ => r

def register (r : AdapterRegistry) (worker_id : WorkerId) (adapter_id : AdapterId) :
    AdapterRegistry :=
  let r := r.discard worker_id (r.worker_to_adapter worker_id)
  { worker_to_adapter := Function.update r.worker_to_adapter worker_id (some adapter_id)
    adapter_to_workers := Function.update r.adapter_to_workers adapter_id
      (insert worker_id (r.adapter_to_workers adapter_id)) }

def unregister (r : AdapterRegistry) (worker_id : WorkerId) : AdapterRegistry :=
  let r' := r.discard worker_id (r.worker_to_adapter worker_id)
  { r' with worker_to_adapter := Function.update r.worker_to_adapter worker_id none }

end AdapterRegistry

/-- `delivered` is a resolved future whose waiting request has been resumed with it. -/
inductive FutureState where
  | pending
  | resolved (worker : WorkerRef)
  | delivered (worker : WorkerRef)
  | cancelled
  deriving DecidableEq

/-- `results` is a history variable: what `set_result` has been called with. -/
structure Future where
  state : FutureState := .pending
  results : List WorkerRef := []

/-- A queued request waiting for a worker to become available. -/
structure PendingRequest where
  adapter_id : AdapterId
  future : FutureId

/-- Who awaits a `spawn_worker` call: `route_request` and `_spawn_for_dispatch` try twice,
`_background_grow`, the endpoint and the initial spawns once. -/
inductive SpawnCaller where
  | request (adapter_id : AdapterId) (second : Bool)
  | dispatch (adapter_id : AdapterId) (second : Bool)
  | grow (adapter_id : AdapterId)
  | endpoint (adapter_id : AdapterId)
  | initial (adapter_id : AdapterId)
  deriving DecidableEq

def SpawnCaller.adapter_id : SpawnCaller → AdapterId
  | .request a _ | .dispatch a _ | .grow a | .endpoint a | .initial a => a

/-- Who awaits a `_swap_worker_adapter` call: `route_request`, `_swap_and_resolve` for the
future of a queued request, or nobody who would go on with the worker. -/
inductive SwapCaller where
  | request (needs_spawn : Bool)
  | resolve (future : FutureId)
  | detached
  deriving DecidableEq

/-- Who awaits a stop: a `spawn_worker` whose worker did not become ready, the endpoint, or
nobody for `_stop_worker_process`. -/
inductive StopCaller where
  | spawn (caller : SpawnCaller)
  | endpoint
  | process
  deriving DecidableEq

/-- The suspended coroutines. The first and the third are tasks that have been created and
not yet begun. A `stopping` one asks the process to shut down and waits for its exit;
`polling` without a caller is `wait_and_register`. -/
inductive Task where
  | swapNew (caller : SwapCaller) (worker : WorkerRef) (adapter_id : AdapterId)
  | swapping (caller : SwapCaller) (worker : WorkerRef) (adapter_id : AdapterId)
  | spawnNew (caller : SpawnCaller)
  | ensuring (caller : SpawnCaller) (worker_id : WorkerId) (device : Device)
  | polling (caller : Option SpawnCaller) (worker : WorkerRef) (adapter_id : AdapterId)
  | retrySleep (caller : SpawnCaller)
  | stopping (caller : StopCaller) (worker : WorkerRef)
  | waiting (future : FutureId) (adapter_id : AdapterId) (retry : Bool)
  | inferring (worker : WorkerRef) (adapter_id : AdapterId) (retry : Bool)
  | health (worker : WorkerRef)
  | adapterInfo (worker : WorkerRef)
  deriving DecidableEq

structure Config where
  max_workers : Nat
  base_port : Nat
  min_workers : Nat
  worker_devices : List Device
  gpu_worker_caps : Option (Device → Option Nat)
  scheduler : LocalScheduler

/-- `gpu_worker_caps.get(dev, max_workers)`; `none` is a controller without caps. -/
def Config.cap (cfg : Config) (dev : Device) : Option Nat :=
  cfg.gpu_worker_caps.map fun caps => (caps dev).getD cfg.max_workers

/-- What the world outside decides in a stretch of code: whether `_launch_worker_process`
succeeds, and how many requests have arrived within the burst window. -/
structure Env where
  launched : Bool := true
  arrivals : Nat := 0

structure State where
  workers : AList fun _ : WorkerId => WorkerRef
  infos : WorkerRef → WorkerInfo
  procs : WorkerRef → Process
  nextRef : WorkerRef
  gpu_worker_count : Device → Int
  aggregator_ready : Device → Bool
  registry : AdapterRegistry
  futures : FutureId → Future
  nextFuture : FutureId
  pending_requests : List PendingRequest
  spawns_in_progress : List AdapterId
  tasks : List Task

namespace State

def setInfo (s : State) (o : WorkerRef) (info : WorkerInfo) : State :=
  { s with infos := Function.update s.infos o info }

def setStatus (s : State) (o : WorkerRef) (status : WorkerStatus) : State :=
  s.setInfo o { s.infos o with status }

def addActive (s : State) (o : WorkerRef) (n : Int) : State :=
  s.setInfo o { s.infos o with active_requests := (s.infos o).active_requests + n }

def setFuture (s : State) (f : FutureId) (state : FutureState) : State :=
  { s with futures := Function.update s.futures f { s.futures f with state } }

def addCount (s : State) (dev : Device) (n : Int) : State :=
  { s with
    gpu_worker_count := Function.update s.gpu_worker_count dev (s.gpu_worker_count dev + n) }

def register (s : State) (worker_id : WorkerId) (adapter_id : AdapterId) : State :=
  { s with registry := s.registry.register worker_id adapter_id }

def unregister (s : State) (worker_id : WorkerId) : State :=
  { s with registry := s.registry.unregister worker_id }

def create_task (s : State) (task : Task) : State :=
  { s with tasks := s.tasks ++ [task] }

/-- The length of the dictionary of workers. -/
def num_workers (s : State) : Nat := s.workers.entries.length

def build_worker_snapshots (s : State) : List WorkerSnapshot :=
  s.workers.entries.map fun entry =>
    let w := s.infos entry.2
    { worker_id := w.worker_id, adapter_id := w.adapter_id, status := w.status
      active_requests := w.active_requests }

def num_starting (s : State) : Nat :=
  s.workers.entries.countP fun entry => (s.infos entry.2).status = .starting

def get_next_worker_id (cfg : Config) (s : State) : Option WorkerId :=
  (List.range cfg.max_workers).find? fun i => i ∉ s.workers

def pick_device (cfg : Config) (s : State) : Option Device :=
  cfg.worker_devices.find? fun dev =>
    match cfg.cap dev with
    | none => true
    | some cap => s.gpu_worker_count dev < cap

/-- A future that nobody has resolved or cancelled. -/
def isPending (s : State) (f : FutureId) : Bool := (s.futures f).state = .pending

def set_result (s : State) (f : FutureId) (o : WorkerRef) : State :=
  { s with
    futures := Function.update s.futures f
      { state := .resolved o, results := (s.futures f).results ++ [o] } }

/-- `if not future.done(): future.cancel()`. -/
def cancel (s : State) (f : FutureId) : State :=
  if s.isPending f then s.setFuture f .cancelled else s

/-- `_wait_for_available_worker` up to the await of the future. -/
def wait_for_available_worker (s : State) (adapter_id : AdapterId) (retry : Bool) : State :=
  { s with
    futures := Function.update s.futures s.nextFuture {}
    nextFuture := s.nextFuture + 1
    pending_requests := s.pending_requests ++ [⟨adapter_id, s.nextFuture⟩]
    tasks := s.tasks ++ [.waiting s.nextFuture adapter_id retry] }

/-- `_send_inference` up to the post to the worker. The error of the guard is not a
connection failure, so the request ends with it. -/
def send_inference (s : State) (o : WorkerRef) (adapter_id : AdapterId) (retry : Bool) : State :=
  if (s.infos o).status = .stopping then s.addActive o (-1)
  else s.create_task (.inferring o adapter_id retry)

/-- `Counter(..).most_common()`: most frequent first, and among equals the one that came
first. -/
def most_common (adapters : List AdapterId) : List (AdapterId × Nat) :=
  let seen := adapters.reverse.dedup.reverse
  (seen.map fun a => (a, adapters.count a)).mergeSort fun x y => y.2 ≤ x.2

/-- The adapters that `_detect_burst_and_spawn` spawns for, from ten queued requests and
ten arrivals within the window on and at most twenty at a time. -/
def burst_spawns (cfg : Config) (s : State) (arrivals : Nat) : List AdapterId :=
  let total_committed := s.num_workers + (s.num_starting + s.spawns_in_progress.length)
  if arrivals < 10 ∨ s.pending_requests.length < 10 ∨ cfg.max_workers ≤ total_committed then []
  else
    (most_common (s.pending_requests.map (·.adapter_id))).foldl (fun spawned demand =>
      let in_flight := s.spawns_in_progress.count demand.1
      let to_spawn := min (demand.2 - in_flight) (20 - spawned.length)
      spawned ++ List.replicate (min to_spawn (cfg.max_workers - (total_committed + spawned.length)))
        demand.1) []

/-- Start `_spawn_for_dispatch` for each of the adapters. -/
def spawn_for_dispatch (s : State) (adapters : List AdapterId) : State :=
  { s with
    spawns_in_progress := s.spawns_in_progress ++ adapters
    tasks := s.tasks ++ adapters.map fun a => .spawnNew (.dispatch a false) }

/-- The queue action of `route_request`. -/
def queue_request (cfg : Config) (s : State) (adapter_id : AdapterId) (env : Env) : State :=
  (s.spawn_for_dispatch (s.burst_spawns cfg env.arrivals)).wait_for_available_worker adapter_id
    false

/-- `_spawn_for_dispatch` hands the new worker to the first queued request that it suits. -/
def resolve_pending (s : State) (adapter_id : AdapterId) (o : WorkerRef) : State :=
  match s.pending_requests.find? fun pr => s.isPending pr.future ∧
    (pr.adapter_id = adapter_id ∨ (s.infos o).adapter_id = pr.adapter_id) with
  | some pr => (s.addActive o 1).set_result pr.future o
  | none => s

/-- The `finally` of `_spawn_for_dispatch`. -/
def end_spawn_for_dispatch (s : State) (adapter_id : AdapterId) : State :=
  { s with spawns_in_progress := s.spawns_in_progress.erase adapter_id }

/-- The caller of `spawn_worker` goes on with what it returns. -/
def spawn_returned (cfg : Config) (s : State) (env : Env) :
    SpawnCaller → Option WorkerRef → State
  | .request a _, some o => (s.addActive o 1).send_inference o a false
  | .request a false, none => s.create_task (.retrySleep (.request a true))
  | .request a true, none => s.queue_request cfg a env
  | .dispatch a _, some o => (s.resolve_pending a o).end_spawn_for_dispatch a
  | .dispatch a false, none => s.create_task (.retrySleep (.dispatch a true))
  | .dispatch a true, none => s.end_spawn_for_dispatch a
  | .grow _, _ | .endpoint _, _ | .initial _, _ => s

/-- The caller of `spawn_worker` when it raises. -/
def spawn_raised (s : State) : SpawnCaller → State
  | .dispatch a _ => s.end_spawn_for_dispatch a
  | _ => s

/-- The new process and its entry in the pool. -/
def add_worker (cfg : Config) (s : State) (worker_id : WorkerId) (device : Device)
    (adapter_id : AdapterId) : State :=
  let http_port := cfg.base_port + worker_id * 10
  { s with
    infos := Function.update s.infos s.nextRef { worker_id, http_port, adapter_id, device }
    procs := Function.update s.procs s.nextRef { port := http_port, adapter_id }
    workers := s.workers.insert worker_id s.nextRef
    nextRef := s.nextRef + 1 }

/-- `spawn_worker` from `_launch_worker_process` to `_wait_for_worker_ready`. -/
def launch_worker (cfg : Config) (s : State) (env : Env) (caller : SpawnCaller)
    (worker_id : WorkerId) (device : Device) : State :=
  if env.launched then
    (s.add_worker cfg worker_id device caller.adapter_id).create_task
      (.polling (some caller) s.nextRef caller.adapter_id)
  else s.spawn_raised caller

/-- `spawn_worker` up to the wait for the aggregator of the device, and beyond it when the
aggregator is known to be ready. -/
def spawn_worker (cfg : Config) (s : State) (env : Env) (caller : SpawnCaller) : State :=
  match s.get_next_worker_id cfg with
  | none => s.spawn_returned cfg env caller none
  | some worker_id =>
      match s.pick_device cfg with
      | none => s.spawn_returned cfg env caller none
      | some device =>
          let s := s.addCount device 1
          if s.aggregator_ready device then s.launch_worker cfg env caller worker_id device
          else s.create_task (.ensuring caller worker_id device)

/-- `spawn_worker` from the aggregator on: another spawn may have taken the id. -/
def aggregator_ensured (cfg : Config) (s : State) (env : Env) (caller : SpawnCaller)
    (worker_id : WorkerId) (device : Device) : State :=
  if worker_id ∈ s.workers then
    match s.get_next_worker_id cfg with
    | none => (s.addCount device (-1)).spawn_returned cfg env caller none
    | some worker_id => s.launch_worker cfg env caller worker_id device
  else s.launch_worker cfg env caller worker_id device

/-- The worker leaves the pool, and its place on the device is free again. -/
def pop_worker (s : State) (worker_id : WorkerId) (o : WorkerRef) : State :=
  let dev := (s.infos o).device
  { s with
    workers := s.workers.erase worker_id
    gpu_worker_count := Function.update s.gpu_worker_count dev
      (max 0 (s.gpu_worker_count dev - 1)) }

def remove_worker (s : State) (worker_id : WorkerId) : State :=
  match s.workers.lookup worker_id with
  | some o => (s.pop_worker worker_id o).unregister worker_id
  | none => s.unregister worker_id

/-- The worker is to be stopped; its process will be asked to. -/
def mark_stopping (s : State) (o : WorkerRef) : State :=
  { s.setStatus o .stopping with
    procs := Function.update s.procs o { s.procs o with asked_to_stop := true } }

/-- `_stop_worker` up to its first wait. -/
def stop_worker (s : State) (caller : StopCaller) (o : WorkerRef) : State :=
  (s.mark_stopping o).create_task (.stopping caller o)

/-- What follows once the process has exited: `_stop_worker` removes the worker from
tracking, `_stop_worker_process` takes it out of the registry. -/
def stopped (cfg : Config) (s : State) (env : Env) (o : WorkerRef) : StopCaller → State
  | .spawn caller =>
      (s.remove_worker (s.infos o).worker_id).spawn_returned cfg env caller none
  | .endpoint => s.remove_worker (s.infos o).worker_id
  | .process => s.unregister (s.infos o).worker_id

/-- `_wait_for_worker_ready` succeeds, and the new worker is registered. -/
def worker_ready (cfg : Config) (s : State) (env : Env) (caller : Option SpawnCaller)
    (o : WorkerRef) (adapter_id : AdapterId) : State :=
  let s := (s.setStatus o .ready).register (s.infos o).worker_id adapter_id
  match caller with
  | some caller => s.spawn_returned cfg env caller (some o)
  | none => s

/-- `_swap_worker_adapter` up to the post to the worker. -/
def swap_worker_adapter (s : State) (caller : SwapCaller) (o : WorkerRef)
    (adapter_id : AdapterId) : State :=
  (s.setStatus o .swapping).create_task (.swapping caller o adapter_id)

/-- `_swap_worker_adapter` after the worker has reported success. -/
def adapter_swapped (s : State) (o : WorkerRef) (adapter_id : AdapterId) : State :=
  let s := s.setInfo o { s.infos o with adapter_id }
  (s.register (s.infos o).worker_id adapter_id).setStatus o .ready

/-- What the caller of a successful swap does next. -/
def swap_succeeded (s : State) (o : WorkerRef) (adapter_id : AdapterId) : SwapCaller → State
  | .request needs_spawn =>
      let s := s.adapter_swapped o adapter_id
      let s := if needs_spawn then s.create_task (.spawnNew (.grow adapter_id)) else s
      s.send_inference o adapter_id false
  | .resolve f =>
      let s := s.adapter_swapped o adapter_id
      if s.isPending f then s.set_result f o else s.addActive o (-1)
  | .detached => s.adapter_swapped o adapter_id

/-- The end of a failed swap, and what its caller does next. -/
def swap_failed (cfg : Config) (s : State) (env : Env) (o : WorkerRef) (adapter_id : AdapterId) :
    SwapCaller → State
  | .request _ =>
      ((s.setStatus o .ready).addActive o (-1)).spawn_worker cfg env (.request adapter_id false)
  | .resolve f =>
      let s := (s.setStatus o .ready).addActive o (-1)
      if s.isPending f then
        { s with pending_requests := s.pending_requests ++ [⟨adapter_id, f⟩] }
      else s
  | .detached => s.setStatus o .ready

/-- The `finally` of `_send_inference`. -/
def end_inference (s : State) (o : WorkerRef) : State :=
  let s := s.addActive o (-1)
  if (s.infos o).status = .unhealthy then s.setStatus o .ready else s

/-- `route_request` after an inference: one retry when the worker could not be reached. -/
def inference_returned (s : State) (o : WorkerRef) (adapter_id : AdapterId)
    (retry connectFailed : Bool) : State :=
  let s := s.end_inference o
  if connectFailed && !retry then
    (s.remove_worker (s.infos o).worker_id).wait_for_available_worker adapter_id true
  else s

/-- A queued request is resumed with its worker, the first time or for its retry. -/
def worker_available (s : State) (f : FutureId) (o : WorkerRef) (adapter_id : AdapterId)
    (retry : Bool) : State :=
  let s := s.setFuture f (.delivered o)
  let s := if retry then s.addActive o 1 else s
  s.send_inference o adapter_id retry

/-- The decision of the scheduler, and the reservation that goes with a route. -/
def decide_route (cfg : Config) (s : State) (adapter_id : AdapterId) (best_wid : WorkerId) :
    Option (State × RoutingDecision × Option WorkerRef) := do
  let decision ← cfg.scheduler.route_request s.build_worker_snapshots
    (s.registry.adapter_to_workers adapter_id) s.num_workers cfg.max_workers best_wid
  match decision with
  | .route worker_id _ _ =>
      match s.workers.lookup worker_id with
      | some o => some (s.addActive o 1, decision, some o)
      | none => some (s, decision, none)
  | _ => some (s, decision, none)

/-- `route_request` up to its first suspension. -/
def route_request (cfg : Config) (s : State) (env : Env) (adapter_id : AdapterId)
    (best_wid : WorkerId) : Option State := do
  let (s, decision, worker) ← s.decide_route cfg adapter_id best_wid
  match decision, worker with
  | .route _ true needs_spawn, some o =>
      some (s.swap_worker_adapter (.request needs_spawn) o adapter_id)
  | .route _ false needs_spawn, some o =>
      let s := if needs_spawn then s.create_task (.spawnNew (.grow adapter_id)) else s
      some (s.send_inference o adapter_id false)
  | .route _ _ _, none => some s
  | .spawn, _ => some (s.spawn_worker cfg env (.request adapter_id false))
  | .queue, _ => some (s.queue_request cfg adapter_id env)
  | .reject, _ => some s

/-- The expired and the finished entries at the head of the queue. -/
def prune (expired : FutureId → Bool) : State → List PendingRequest → State × List PendingRequest
  | s, [] => (s, [])
  | s, pr :: rest =>
      if !s.isPending pr.future || expired pr.future then prune expired (s.cancel pr.future) rest
      else (s, pr :: rest)

/-- The dispatcher's treatment of one entry, and whether the entry stays in the queue. -/
def dispatch_one (cfg : Config) (s : State) (pr : PendingRequest) (expired : Bool)
    (best_wid : WorkerId) : Option (State × Bool) :=
  if !s.isPending pr.future || expired then some (s.cancel pr.future, false)
  else do
    let (s, decision, worker) ← s.decide_route cfg pr.adapter_id best_wid
    match decision, worker with
    | .route _ true _, some o =>
        some (s.create_task (.swapNew (.resolve pr.future) o pr.adapter_id), false)
    | .route _ false _, some o =>
        if s.isPending pr.future then some (s.set_result pr.future o, false)
        else some (s.addActive o (-1), false)
    | .route _ _ _, none => some (s, true)
    | .spawn, _ => some (s.spawn_for_dispatch [pr.adapter_id], true)
    | .queue, _ | .reject, _ => some (s, true)

/-- One pass over the queue. No entry can be added or removed by others meanwhile. -/
def dispatch_all (cfg : Config) (expired : FutureId → Bool) (best_wid : FutureId → WorkerId) :
    State → List PendingRequest → Option (State × List PendingRequest)
  | s, [] => some (s, [])
  | s, pr :: rest => do
      let (s, keep) ← s.dispatch_one cfg pr (expired pr.future) (best_wid pr.future)
      let (s, still_pending) ← dispatch_all cfg expired best_wid s rest
      some (s, if keep then pr :: still_pending else still_pending)

/-- One round of `_dispatch_loop`. -/
def dispatch (cfg : Config) (s : State) (pruned expired : FutureId → Bool)
    (best_wid : FutureId → WorkerId) : Option State := do
  let (s, pending_requests) := prune pruned s s.pending_requests
  let (s, still_pending) ← dispatch_all cfg expired best_wid s pending_requests
  some { s with pending_requests := still_pending }

/-- The loop of `_reap_idle_workers` under its locks, with the workers that it takes out of
the pool. -/
def reap_loop (cfg : Config) : State → Nat → List WorkerId → State × List WorkerRef
  | s, _, [] => (s, [])
  | s, current_count, wid :: rest =>
      if current_count ≤ cfg.min_workers then (s, [])
      else match s.workers.lookup wid with
        | none => reap_loop cfg s current_count rest
        | some o =>
            if (s.infos o).active_requests > 0 ∨ (s.infos o).status ≠ .ready then
              reap_loop cfg s current_count rest
            else
              let next := reap_loop cfg ((s.mark_stopping o).pop_worker wid o) (current_count - 1) rest
              (next.1, o :: next.2)

/-- `_reap_idle_workers` for the ids that the scheduler selects. -/
def reap_idle_workers (cfg : Config) (s : State) (worker_ids : List WorkerId) : State :=
  if s.pending_requests ≠ [] then s
  else
    let (s, to_stop) := reap_loop cfg s s.num_workers worker_ids
    to_stop.foldl (fun s o =>
      (s.unregister (s.infos o).worker_id).create_task (.stopping .process o)) s

/-- The swaps of the proactive loop, of workers that have nothing to do. -/
def rebalance (s : State) (rebalances : List (WorkerId × AdapterId)) : State :=
  rebalances.foldl (fun s r =>
    match s.workers.lookup r.1 with
    | some o =>
        if (s.infos o).active_requests = 0 then s.create_task (.swapNew .detached o r.2) else s
    | none => s) s

/-- One worker of a `prewarm_workers` request, on an explicit device or on a picked one. -/
def prewarm (cfg : Config) (s : State) (device : Option Device) (adapter_id : AdapterId) :
    Option State := do
  let worker_id ← s.get_next_worker_id cfg
  let device ← device <|> s.pick_device cfg
  some (((s.add_worker cfg worker_id device adapter_id).addCount device 1).create_task
    (.polling none s.nextRef adapter_id))

/-- The adapter that a worker says it has, when it names one. -/
def report_adapter (s : State) (o : WorkerRef) : AdapterId → State
  | some name =>
      if name = "" then s
      else (s.setInfo o { s.infos o with adapter_id := some name }).register (s.infos o).worker_id
        (some name)
  | none => s

def update_worker_adapter_info (s : State) (o : WorkerRef) (adapter_id : AdapterId)
    (is_swapping : Bool) : State :=
  let s := s.report_adapter o adapter_id
  if is_swapping then s.setStatus o .swapping else s

/-- `_check_worker_health` once the worker is found to have failed. -/
def handle_worker_failure (s : State) (o : WorkerRef) : State :=
  if (s.procs o).exited then s.remove_worker (s.infos o).worker_id
  else s.setStatus o .unhealthy

end State

end Controller
