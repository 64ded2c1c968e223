import SwarmLoRA.Controller.Balancer
import SwarmLoRA.Machine.System

/-! The load balancer as a machine: requests and calls of the endpoints arrive, background loops
take their rounds, suspended coroutines are resumed, and the worker processes answer on their
ports and exit, in any order. -/
namespace Controller

open Machine

/-- What a suspended coroutine is resumed with. `succeeded` is a swap that the worker has
made, an aggregator that is ready or an inference that came back; `ready` is the answer of
a process to the readiness poll. -/
inductive Outcome where
  | resumed
  | succeeded
  | ready (process : WorkerRef)
  | failed
  | connectFailed
  | raised
  | cancelled
  | healthReady
  | healthUnready
  | healthOther
  | adapterInfo (adapter_id : AdapterId) (is_swapping : Bool)
  deriving DecidableEq

inductive Label where
  /-- A request is routed. -/
  | request (env : Env) (adapter_id : AdapterId) (best_wid : WorkerId)
  /-- The `i`-th suspended coroutine is resumed. -/
  | run (i : Nat) (env : Env) (outcome : Outcome)
  /-- The wait of the `i`-th suspended coroutine, for a worker, times out. -/
  | timeout (i : Nat)
  | dispatch (pruned expired : FutureId → Bool) (best_wid : FutureId → WorkerId)
  | checkAll
  | reap (worker_ids : List WorkerId)
  | proactive (rebalances : List (WorkerId × AdapterId)) (spawns : List AdapterId)
  | swapEndpoint (worker_id : WorkerId) (adapter_id : AdapterId)
  | spawnEndpoint (env : Env) (adapter_id : AdapterId) (initial : Bool)
  | stopEndpoint (worker_id : WorkerId)
  | prewarm (device : Option Device) (adapter_id : AdapterId)
  /-- The load balancer stops and cancels the requests in the queue. -/
  | cancelPending
  | aggregatorReady (device : Device)
  /-- Process `o` binds its port, is initialized, loads the adapter of a swap call on the
  worker that listens on the same port, or exits. -/
  | listens (o : WorkerRef)
  | initialized (o : WorkerRef)
  | loads (i : Nat) (o : WorkerRef)
  | exits (o : WorkerRef)

namespace State

/-- Process `p` answers a call to the port of worker `o`. -/
def answers (s : State) (o p : WorkerRef) : Prop :=
  p < s.nextRef ∧ (s.procs p).listening = true ∧ (s.procs p).exited = false ∧
    (s.procs p).port = (s.infos o).http_port

instance (s : State) (o p : WorkerRef) : Decidable (s.answers o p) :=
  inferInstanceAs (Decidable (_ ∧ _))

/-- A suspended coroutine runs up to its next suspension. -/
def resume (cfg : Config) (s : State) (env : Env) : Task → Outcome → Option State
  | .swapNew caller o a, .resumed => some (s.swap_worker_adapter caller o a)
  | .swapping caller o a, .succeeded => some (s.swap_succeeded o a caller)
  | .swapping caller o a, .failed => some (s.swap_failed cfg env o a caller)
  | .spawnNew caller, .resumed => some (s.spawn_worker cfg env caller)
  | .retrySleep caller, .resumed => some (s.spawn_worker cfg env caller)
  | .ensuring caller worker_id device, .succeeded =>
      some ({ s with aggregator_ready := Function.update s.aggregator_ready device true
        }.aggregator_ensured cfg env caller worker_id device)
  | .ensuring caller _ device, .failed =>
      some ((s.addCount device (-1)).spawn_returned cfg env caller none)
  | .ensuring caller _ _, .raised => some (s.spawn_raised caller)
  | .ensuring (.initial _) _ _, .cancelled => some s
  | .polling caller o a, .ready p =>
      if s.answers o p ∧ (s.procs p).initialized then some (s.worker_ready cfg env caller o a)
      else none
  | .polling (some caller) o _, .failed => some (s.stop_worker (.spawn caller) o)
  | .polling none _ _, .failed => some s
  | .polling (some (.initial _)) _ _, .cancelled => some s
  | .stopping caller o, .resumed =>
      if (s.procs o).exited then some (s.stopped cfg env o caller) else none
  | .stopping (.spawn (.initial _)) _, .cancelled => some s
  | .waiting f a retry, .resumed =>
      match (s.futures f).state with
      | .resolved o => some (s.worker_available f o a retry)
      | .cancelled => some s
      | _ => none
  | .inferring o a retry, .succeeded => some (s.inference_returned o a retry false)
  | .inferring o a retry, .failed => some (s.inference_returned o a retry false)
  | .inferring o a retry, .connectFailed => some (s.inference_returned o a retry true)
  | .health o, .healthReady =>
      let s := if (s.infos o).status = .unhealthy ∨ (s.infos o).status = .starting then
          s.setStatus o .ready
        else s
      some (s.create_task (.adapterInfo o))
  | .health o, .healthUnready =>
      some (if (s.infos o).status ≠ .starting then s.setStatus o .unhealthy else s)
  | .health o, .healthOther => some (s.setStatus o .unhealthy)
  | .health o, .failed => some (s.handle_worker_failure o)
  | .adapterInfo o, .adapterInfo adapter_id is_swapping =>
      some (s.update_worker_adapter_info o adapter_id is_swapping)
  | .adapterInfo _, .failed => some s
  | _, _ => none

/-- What becomes of a coroutine that is resumed, by its place and by what it was waiting for. What
is proved of resumptions goes by cases on this. -/
inductive Resumes (cfg : Config) (s : State) (env : Env) : Task → Outcome → State → Prop where
  | swap {caller o a} : Resumes cfg s env (.swapNew caller o a) .resumed
      (s.swap_worker_adapter caller o a)
  | swapped {caller o a} : Resumes cfg s env (.swapping caller o a) .succeeded
      (s.swap_succeeded o a caller)
  | swapFailed {caller o a} : Resumes cfg s env (.swapping caller o a) .failed
      (s.swap_failed cfg env o a caller)
  | spawn {caller} : Resumes cfg s env (.spawnNew caller) .resumed (s.spawn_worker cfg env caller)
  | retry {caller} : Resumes cfg s env (.retrySleep caller) .resumed (s.spawn_worker cfg env caller)
  | ensured {caller worker_id device} :
      Resumes cfg s env (.ensuring caller worker_id device) .succeeded
        ({ s with aggregator_ready := Function.update s.aggregator_ready device true
          }.aggregator_ensured cfg env caller worker_id device)
  | notEnsured {caller worker_id device} :
      Resumes cfg s env (.ensuring caller worker_id device) .failed
        ((s.addCount device (-1)).spawn_returned cfg env caller none)
  | raised {caller worker_id device} :
      Resumes cfg s env (.ensuring caller worker_id device) .raised (s.spawn_raised caller)
  | ready {caller o a p} (hAnswers : s.answers o p) (hInitialized : (s.procs p).initialized = true) :
      Resumes cfg s env (.polling caller o a) (.ready p) (s.worker_ready cfg env caller o a)
  | notReady {caller o a} : Resumes cfg s env (.polling (some caller) o a) .failed
      (s.stop_worker (.spawn caller) o)
  | stopped {caller o} (hExited : (s.procs o).exited = true) :
      Resumes cfg s env (.stopping caller o) .resumed (s.stopped cfg env o caller)
  | available {f a retry o} (hState : (s.futures f).state = .resolved o) :
      Resumes cfg s env (.waiting f a retry) .resumed (s.worker_available f o a retry)
  | answered {o a retry outcome} (hOutcome : outcome = .succeeded ∨ outcome = .failed) :
      Resumes cfg s env (.inferring o a retry) outcome (s.inference_returned o a retry false)
  | unreached {o a retry} : Resumes cfg s env (.inferring o a retry) .connectFailed
      (s.inference_returned o a retry true)
  | healthReady {o} : Resumes cfg s env (.health o) .healthReady
      ((if (s.infos o).status = .unhealthy ∨ (s.infos o).status = .starting then
        s.setStatus o .ready else s).create_task (.adapterInfo o))
  | healthUnready {o} : Resumes cfg s env (.health o) .healthUnready
      (if (s.infos o).status ≠ .starting then s.setStatus o .unhealthy else s)
  | healthOther {o} : Resumes cfg s env (.health o) .healthOther (s.setStatus o .unhealthy)
  | failure {o} : Resumes cfg s env (.health o) .failed (s.handle_worker_failure o)
  | info {o a is_swapping} : Resumes cfg s env (.adapterInfo o) (.adapterInfo a is_swapping)
      (s.update_worker_adapter_info o a is_swapping)
  | cancelledEnsuring {a worker_id device} :
      Resumes cfg s env (.ensuring (.initial a) worker_id device) .cancelled s
  | cancelledPolling {a o a'} : Resumes cfg s env (.polling (some (.initial a)) o a') .cancelled s
  | cancelledStopping {a o} : Resumes cfg s env (.stopping (.spawn (.initial a)) o) .cancelled s
  | prewarmFailed {o a} : Resumes cfg s env (.polling none o a) .failed s
  | expired {f a retry} (hState : (s.futures f).state = .cancelled) :
      Resumes cfg s env (.waiting f a retry) .resumed s
  | noInfo {o} : Resumes cfg s env (.adapterInfo o) .failed s

/-- The coroutine does one of these. -/
theorem resumes_of_resume {cfg : Config} {s s' : State} {env : Env} {task : Task} {outcome : Outcome}
    (hStep : s.resume cfg env task outcome = some s') : Resumes cfg s env task outcome s' := by
  unfold resume at hStep
  split at hStep
  next => exact Option.some.inj hStep ▸ .swap
  next => exact Option.some.inj hStep ▸ .swapped
  next => exact Option.some.inj hStep ▸ .swapFailed
  next => exact Option.some.inj hStep ▸ .spawn
  next => exact Option.some.inj hStep ▸ .retry
  next => exact Option.some.inj hStep ▸ .ensured
  next => exact Option.some.inj hStep ▸ .notEnsured
  next => exact Option.some.inj hStep ▸ .raised
  next => exact Option.some.inj hStep ▸ .cancelledEnsuring
  next =>
    simp only [Option.ite_none_right_eq_some, Option.some.injEq] at hStep
    obtain ⟨⟨hAnswers, hInitialized⟩, rfl⟩ := hStep
    exact .ready hAnswers hInitialized
  next => exact Option.some.inj hStep ▸ .notReady
  next => exact Option.some.inj hStep ▸ .prewarmFailed
  next => exact Option.some.inj hStep ▸ .cancelledPolling
  next =>
    simp only [Option.ite_none_right_eq_some, Option.some.injEq] at hStep
    obtain ⟨hExited, rfl⟩ := hStep
    exact .stopped hExited
  next => exact Option.some.inj hStep ▸ .cancelledStopping
  next =>
    split at hStep
    next hState => exact Option.some.inj hStep ▸ .available hState
    next hState => exact Option.some.inj hStep ▸ .expired hState
    next => cases hStep
  next => exact Option.some.inj hStep ▸ .answered (.inl rfl)
  next => exact Option.some.inj hStep ▸ .answered (.inr rfl)
  next => exact Option.some.inj hStep ▸ .unreached
  next => exact Option.some.inj hStep ▸ .healthReady
  next => exact Option.some.inj hStep ▸ .healthUnready
  next => exact Option.some.inj hStep ▸ .healthOther
  next => exact Option.some.inj hStep ▸ .failure
  next => exact Option.some.inj hStep ▸ .info
  next => exact Option.some.inj hStep ▸ .noInfo
  next => cases hStep

def isHealthCheck : Task → Bool
  | .health _ | .adapterInfo _ => true
  | _ => false

end State

open State

/-- A round of health checks begins only after the last one has ended. -/
def step (cfg : Config) (s : State) : Label → Option State
  | .request env a best_wid => s.route_request cfg env a best_wid
  | .run i env outcome =>
      match s.tasks[i]? with
      | some task => { s with tasks := s.tasks.eraseIdx i }.resume cfg env task outcome
      | none => none
  | .timeout i =>
      match s.tasks[i]? with
      | some (.waiting f _ _) => if s.isPending f then some (s.setFuture f .cancelled) else none
      | _ => none
  | .dispatch pruned expired best_wid => s.dispatch cfg pruned expired best_wid
  | .checkAll =>
      if s.tasks.any isHealthCheck then none
      else some { s with tasks := s.tasks ++ s.workers.entries.map fun entry => .health entry.2 }
  | .reap worker_ids => some (s.reap_idle_workers cfg worker_ids)
  | .proactive rebalances spawns =>
      if cfg.scheduler.proactive ∧
          cfg.scheduler.may_rebalance s.build_worker_snapshots rebalances ∧
          cfg.scheduler.may_spawn s.num_workers cfg.max_workers s.num_starting spawns then
        some ((s.rebalance rebalances).spawn_for_dispatch spawns)
      else none
  | .swapEndpoint worker_id a =>
      (s.workers.lookup worker_id).map fun o => s.swap_worker_adapter .detached o a
  | .spawnEndpoint env a initial =>
      some (s.spawn_worker cfg env (if initial then .initial a else .endpoint a))
  | .stopEndpoint worker_id =>
      (s.workers.lookup worker_id).map fun o => s.stop_worker .endpoint o
  | .prewarm device a => s.prewarm cfg device a
  | .cancelPending =>
      some { s.pending_requests.foldl (fun s pr => s.cancel pr.future) s with
        pending_requests := [] }
  | .aggregatorReady device =>
      some { s with aggregator_ready := Function.update s.aggregator_ready device true }
  | .listens o =>
      if o < s.nextRef ∧ (s.procs o).exited = false ∧
          ∀ p < s.nextRef, (s.procs p).listening = true → (s.procs p).exited = false →
            (s.procs p).port ≠ (s.procs o).port then
        some { s with procs := Function.update s.procs o { s.procs o with listening := true } }
      else none
  | .initialized o =>
      if o < s.nextRef then
        some { s with procs := Function.update s.procs o { s.procs o with initialized := true } }
      else none
  | .loads i o =>
      match s.tasks[i]? with
      | some (.swapping _ w a) =>
          if s.answers w o then
            some { s with procs := Function.update s.procs o { s.procs o with adapter_id := a } }
          else none
      | _ => none
  | .exits o =>
      if o < s.nextRef then
        some { s with procs := Function.update s.procs o { s.procs o with exited := true } }
      else none

/-- A load balancer that has just been built. -/
structure Initial (s : State) : Prop where
  workers : s.workers = ∅
  infos : ∀ o, s.infos o = {}
  procs : ∀ o, s.procs o = {}
  nextRef : s.nextRef = 0
  gpu_worker_count : ∀ dev, s.gpu_worker_count dev = 0
  aggregator_ready : ∀ dev, s.aggregator_ready dev = false
  registry : s.registry = {}
  futures : ∀ f, s.futures f = {}
  nextFuture : s.nextFuture = 0
  pending_requests : s.pending_requests = []
  spawns_in_progress : s.spawns_in_progress = []
  tasks : s.tasks = []

def machine (cfg : Config) : System State Label := ⟨Initial, step cfg⟩

/-- A load balancer for at most two workers on one device. -/
def twoWorkers : Config where
  max_workers := 2
  base_port := 9000
  min_workers := 0
  worker_devices := ["cuda:0"]
  gpu_worker_caps := none
  scheduler := lorant

def built : State where
  workers := ∅
  infos := fun _ => {}
  procs := fun _ => {}
  nextRef := 0
  gpu_worker_count := fun _ => 0
  aggregator_ready := fun _ => false
  registry := {}
  futures := fun _ => {}
  nextFuture := 0
  pending_requests := []
  spawns_in_progress := []
  tasks := []

theorem built_initial : Initial built :=
  ⟨rfl, fun _ => rfl, fun _ => rfl, rfl, fun _ => rfl, fun _ => rfl, rfl, fun _ => rfl, rfl, rfl, rfl,
    rfl⟩

/-- One of the initial workers is launched and becomes ready. -/
def launched (o : WorkerRef) (adapter_id : AdapterId) : List Label :=
  [.aggregatorReady "cuda:0", .spawnEndpoint {} adapter_id true, .listens o, .initialized o,
    .run 0 {} (.ready o)]

end Controller
