import SwarmLoRA.Data.OrderedDict
import SwarmLoRA.Machine.System
import SwarmLoRA.Serverless.Registry

/-! The threads of the controller that claim containers for batches, and the swaps that they and
the scheduler make. A step is one look at the registry, one request to a container or one change
of what the threads share. Only the selection lock is held over several steps. -/
namespace Serverless.Claiming

abbrev ContainerId := String

abbrev ThreadId := Nat

structure Batch where
  function_id : FunctionId
  size : Nat
  size_pos : 0 < size

/-- Who wants a container swapped: a batch, or the scheduler for the sake of balance. -/
inductive Requester where
  | batch (batch : Batch)
  | rebalance (function_id : FunctionId)

def Requester.function_id : Requester → FunctionId
  | batch b => b.function_id
  | rebalance f => f

structure Swap where
  requester : Requester
  adapter_id : AdapterId
  container_id : ContainerId

/-- Where a thread is in `_dispatch_batch` or in `_execute_rebalance_swaps`, between two of the
locks that it takes. What it has read under one lock may not hold under the next one. -/
inductive Pc where
  | idle
  | waiting (batch : Batch)
  | selecting (batch : Batch) (dedicated : List ContainerId)
  | selected (batch : Batch) (container_id : ContainerId)
  | searching (batch : Batch)
  | counted (batch : Batch) (adapter_id : AdapterId) (all_containers : List ContainerId)
      (fn_counts : Option FunctionId → Nat)
  | filtering (batch : Batch) (adapter_id : AdapterId) (all_containers : List ContainerId)
      (fn_counts : Option FunctionId → Nat) (swapping : List ContainerId)
  | candidate (swap : Swap)
  | marked (swap : Swap)
  | swapping (swap : Swap)
  | swapped (swap : Swap)
  | unmarking (swap : Swap) (success : Bool)
  | returned (batch : Batch) (container_id : ContainerId)
  | executing (batch : Batch) (container_id : ContainerId)
  | finishing (batch : Batch) (container_id : ContainerId)

structure State where
  containers : Data.OrderedDict ContainerId Container
  swapping_containers : List ContainerId := []
  selection_lock : Option ThreadId := none
  pc : ThreadId → Pc := fun _ => .idle

/-- The steps of a thread. Where several containers would do, the label says which one it takes. -/
inductive Label where
  | dispatch (t : ThreadId) (batch : Batch)
  | give_up (t : ThreadId)
  | select (t : ThreadId)
  | pick_best (t : ThreadId) (container_id : Option ContainerId)
  | claim (t : ThreadId)
  | count (t : ThreadId)
  | copy (t : ThreadId)
  | pick (t : ThreadId) (container_id : Option ContainerId)
  | rebalance (t : ThreadId) (function_id : FunctionId) (container_id : ContainerId)
  | mark (t : ThreadId)
  | swap_adapter (t : ThreadId)
  | answer (t : ThreadId) (success : Bool)
  | rebind (t : ThreadId)
  | unmark (t : ThreadId)
  | claim_swapped (t : ThreadId)
  | respond (t : ThreadId)
  | release (t : ThreadId)
  | register (container_id : ContainerId) (container : Container)

namespace State

variable (s : State)

/-- The containers of which something holds. -/
def which (p : Container → Bool) : List ContainerId :=
  s.containers.keys.filter fun id => (s.containers.find id).any p

def get_containers_for_function (function_id : FunctionId) : List ContainerId :=
  s.which (·.function_id = some function_id)

/-- The idle containers of `_select_idle_dedicated`. -/
def idle_dedicated (dedicated : List ContainerId) : List ContainerId :=
  dedicated.filter fun id => (s.containers.find id).any fun c =>
    (c.status = .ready || 0 < c.pending_requests) && c.pending_requests = 0

def get_all_ready_containers : List ContainerId :=
  s.which (·.status = .ready)

def fn_counts (all_containers : List ContainerId) (function_id : Option FunctionId) : Nat :=
  all_containers.countP fun id => (s.containers.find id).any (·.function_id = function_id)

/-- The idle containers of `_try_inline_swap`. -/
def idle (all_containers : List ContainerId) (fn_counts : Option FunctionId → Nat)
    (swapping : List ContainerId) (function_id : FunctionId) : List ContainerId :=
  all_containers.filter fun id => (s.containers.find id).any fun c =>
    id ∉ swapping && c.pending_requests = 0 && c.function_id ≠ some function_id &&
      c.status = .ready && 1 < fn_counts c.function_id

/-- What `_execute_rebalance_swaps` checks of a container at execution time. -/
def donates (adapter_id : AdapterId) (container_id : ContainerId) : Bool :=
  (s.containers.find container_id).any fun c =>
    c.status = .ready && c.lora_id ≠ some adapter_id && c.pending_requests = 0

def goto (t : ThreadId) (pc : Pc) : State :=
  { s with pc := Function.update s.pc t pc }

def modify (container_id : ContainerId) (f : Container → Container) : State :=
  { s with containers := s.containers.modify container_id f }

/-- The batch counts as pending from here on. -/
def claim (t : ThreadId) (batch : Batch) (container_id : ContainerId) : State :=
  (s.modify container_id fun c =>
    { c with pending_requests := c.pending_requests + batch.size }).goto t
      (.executing batch container_id)

end State

/-- The adapter of a function, if it has one. -/
def adapter_of (functions : List FunctionProfile) (function_id : FunctionId) : Option AdapterId :=
  (functions.find? (·.function_id = function_id)).bind (·.adapter_id)

/-- After a swap that was not made. -/
def Requester.retry : Requester → Pc
  | batch b => .waiting b
  | rebalance _ => .idle

/-- After a swap that was made. -/
def Requester.proceed : Requester → ContainerId → Pc
  | batch b, container_id => .returned b container_id
  | rebalance _, _ => .idle

def step (functions : List FunctionProfile) (s : State) : Label → Option State
  | .dispatch t batch =>
      match s.pc t with
      | .idle => some (s.goto t (.waiting batch))
      | _ => none
  | .give_up t =>
      match s.pc t with
      | .waiting _ => some (s.goto t .idle)
      | _ => none
  | .select t =>
      match s.pc t with
      | .waiting batch =>
          if s.selection_lock = none then
            some { s.goto t
                (.selecting batch (s.get_containers_for_function batch.function_id)) with
              selection_lock := some t }
          else none
      | _ => none
  | .pick_best t container_id =>
      match s.pc t with
      | .selecting batch dedicated =>
          match container_id with
          | some id =>
              if id ∈ s.idle_dedicated dedicated then some (s.goto t (.selected batch id)) else none
          | none =>
              if s.idle_dedicated dedicated = [] then
                some { s.goto t (.searching batch) with selection_lock := none }
              else none
      | _ => none
  | .claim t =>
      match s.pc t with
      | .selected batch id => some { s.claim t batch id with selection_lock := none }
      | _ => none
  | .count t =>
      match s.pc t with
      | .searching batch =>
          match adapter_of functions batch.function_id with
          | none => some (s.goto t (.waiting batch))
          | some adapter_id =>
              let all_containers := s.get_all_ready_containers
              some (s.goto t
                (.counted batch adapter_id all_containers (s.fn_counts all_containers)))
      | _ => none
  | .copy t =>
      match s.pc t with
      | .counted batch adapter_id all_containers fn_counts =>
          some (s.goto t
            (.filtering batch adapter_id all_containers fn_counts s.swapping_containers))
      | _ => none
  | .pick t container_id =>
      match s.pc t with
      | .filtering batch adapter_id all_containers fn_counts swapping =>
          let idle := s.idle all_containers fn_counts swapping batch.function_id
          match container_id with
          | some id =>
              if id ∈ idle then some (s.goto t (.candidate ⟨.batch batch, adapter_id, id⟩))
              else none
          | none => if idle = [] then some (s.goto t (.waiting batch)) else none
      | _ => none
  | .rebalance t function_id container_id =>
      match s.pc t, adapter_of functions function_id with
      | .idle, some adapter_id =>
          if s.donates adapter_id container_id then
            some (s.goto t (.candidate ⟨.rebalance function_id, adapter_id, container_id⟩))
          else none
      | _, _ => none
  | .mark t =>
      match s.pc t with
      | .candidate swap =>
          if swap.container_id ∈ s.swapping_containers then
            some (s.goto t swap.requester.retry)
          else
            some { s.goto t (.marked swap) with
              swapping_containers := swap.container_id :: s.swapping_containers }
      | _ => none
  | .swap_adapter t =>
      match s.pc t with
      | .marked swap => some (s.goto t (.swapping swap))
      | _ => none
  | .answer t success =>
      match s.pc t with
      | .swapping swap =>
          some (s.goto t (if success then .swapped swap else .unmarking swap false))
      | _ => none
  | .rebind t =>
      match s.pc t with
      | .swapped swap =>
          some ((s.modify swap.container_id fun c =>
            c.swapped swap.requester.function_id swap.adapter_id).goto t (.unmarking swap true))
      | _ => none
  | .unmark t =>
      match s.pc t with
      | .unmarking swap success =>
          some { s.goto t (if success then swap.requester.proceed swap.container_id
                else swap.requester.retry) with
            swapping_containers := s.swapping_containers.filter (· ≠ swap.container_id) }
      | _ => none
  | .claim_swapped t =>
      match s.pc t with
      | .returned batch id => some (s.claim t batch id)
      | _ => none
  | .respond t =>
      match s.pc t with
      | .executing batch id => some (s.goto t (.finishing batch id))
      | _ => none
  | .release t =>
      match s.pc t with
      | .finishing batch id =>
          some ((s.modify id fun c =>
            { c with pending_requests := c.pending_requests - batch.size }).goto t .idle)
      | _ => none
  | .register id container =>
      if s.containers.find id = none ∧ container.pending_requests = 0 then
        some { s with containers := s.containers.set id container }
      else none

/-- Before the first batch nothing is pending. -/
def Initial (s : State) : Prop :=
  s.swapping_containers = [] ∧ s.selection_lock = none ∧ (∀ t, s.pc t = .idle) ∧
    ∀ id c, s.containers.find id = some c → c.pending_requests = 0

def claiming (functions : List FunctionProfile) : Machine.System State Label where
  initial := Initial
  step := step functions

end Serverless.Claiming
