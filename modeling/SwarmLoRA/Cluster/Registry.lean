import Mathlib.Algebra.Order.Field.Rat
import Mathlib.Data.Finset.Basic
import Mathlib.Data.List.MinMax
import SwarmLoRA.Data.OrderedDict

/-! The registry of a cluster: its nodes, its adapters and where the adapters are loaded. No
lock of the registry is held across a suspension, so no call ever waits for one and every call
runs to its end before another begins. -/
namespace Cluster

open Data

abbrev NodeId := String

abbrev AdapterName := String

abbrev BaseModel := String

/-- The clock, in seconds. -/
abbrev Time := ℚ

/-- What the registry believes of a node. -/
inductive NodeStatus where
  | idle
  | starting
  | active
  | draining
  | failed
  deriving DecidableEq, Repr

/-- The load metrics that node agents report; a missing key counts as zero. -/
abbrev Metrics := List (String × ℚ)

/-- What a heartbeat reports of the requests of a node. -/
structure ReportedMetrics where
  reported_active_requests : ℚ := 0
  reported_total_capacity : ℚ := 0
  reported_num_swapping : ℚ := 0
  reported_max_seq_len : ℚ := 0
  reported_total_seq_len : ℚ := 0
  reported_num_prefill : ℚ := 0
  reported_num_decode : ℚ := 0
  reported_utilization : ℚ := 0
  reported_gpu_memory_free_mb : ℚ := 0
  reported_gpu_memory_total_mb : ℚ := 0
  reported_swap_count : ℚ := 0
  reported_total_swap_ms : ℚ := 0

def Metrics.get (node_metrics : Metrics) (key : String) : ℚ :=
  (node_metrics.lookup key).getD 0

def ReportedMetrics.of_metrics (node_metrics : Metrics) : ReportedMetrics where
  reported_active_requests := node_metrics.get "total_active_requests"
  reported_total_capacity := node_metrics.get "total_capacity"
  reported_num_swapping := node_metrics.get "num_swapping"
  reported_max_seq_len := node_metrics.get "max_seq_len"
  reported_total_seq_len := node_metrics.get "total_seq_len"
  reported_num_prefill := node_metrics.get "num_prefill"
  reported_num_decode := node_metrics.get "num_decode"
  reported_utilization := node_metrics.get "utilization"
  reported_gpu_memory_free_mb := node_metrics.get "gpu_memory_free_mb"
  reported_gpu_memory_total_mb := node_metrics.get "gpu_memory_total_mb"
  reported_swap_count := node_metrics.get "swap_count"
  reported_total_swap_ms := node_metrics.get "total_swap_ms"

/-- A node as the registry has it. -/
structure NodeInfo where
  node_id : NodeId
  host : String
  port : Int
  gpu_type : String := "unknown"
  gpu_memory_gb : ℚ := 0
  num_gpus : Int := 0
  status : NodeStatus := .idle
  base_model : Option BaseModel := none
  base_model_id : Option String := none
  aggregator_pid : Option Int := none
  aggregator_ready_at : Option Time := none
  loaded_adapters : Finset AdapterName := ∅
  active_workers : Int := 0
  total_workers : Int := 0
  free_workers : Int := 0
  queue_depth : Int := 0
  max_workers : Int := 32
  reported : ReportedMetrics := {}
  circuit_state : String := "closed"
  last_heartbeat : Time
  last_request_at : Time := 0
  total_requests : Nat := 0

namespace NodeInfo

def is_available (n : NodeInfo) : Bool := n.status = .active

def has_capacity (n : NodeInfo) : Bool := n.active_workers < n.max_workers

def idle_time (n : NodeInfo) (now : Time) : Time :=
  if n.last_request_at = 0 then
    match n.aggregator_ready_at with
    | some ready_at => if ready_at = 0 then 0 else now - ready_at
    | none => 0
  else now - n.last_request_at

end NodeInfo

/-- An adapter with the nodes that have it loaded. -/
structure AdapterInfo where
  adapter_name : AdapterName
  adapter_path : Option String := none
  loaded_on_nodes : Finset NodeId := ∅
  total_requests : Nat := 0
  last_request_at : Time := 0

/-- The nodes and the adapters, each under its key, and the adapters of each node once more. -/
structure ClusterRegistry where
  nodes : OrderedDict NodeId NodeInfo := ∅
  adapters : OrderedDict AdapterName AdapterInfo := ∅
  /-- The reverse index. -/
  adapter_to_nodes : AdapterName → Finset NodeId := fun _ => ∅

/-- What a node reports of its workers, as `update_node_heartbeat` takes it. -/
structure WorkerReport where
  active_workers : Int := 0
  loaded_adapters : List AdapterName := []
  aggregator_pid : Option Int := none
  max_workers : Option Int := none
  num_gpus : Option Int := none
  gpu_type : Option String := none
  node_metrics : Option Metrics := none
  total_workers : Int := 0
  free_workers : Int := 0
  queue_depth : Int := 0

/-- The fields of a node that a registration sets. -/
structure Registration where
  host : String
  port : Int
  gpu_type : String := "unknown"
  gpu_memory_gb : ℚ := 0
  num_gpus : Int := 0
  max_workers : Int := 32

/-- The first phase of `update_node_heartbeat`, which sets the fields of the node. -/
def NodeInfo.report (now : Time) (report : WorkerReport) (node : NodeInfo) : NodeInfo :=
  { node with
    last_heartbeat := now
    active_workers := report.active_workers
    total_workers := report.total_workers
    free_workers := report.free_workers
    queue_depth := report.queue_depth
    aggregator_pid := report.aggregator_pid
    max_workers := report.max_workers.getD node.max_workers
    num_gpus :=
      match report.num_gpus with
      | some num_gpus => if 0 < num_gpus then num_gpus else node.num_gpus
      | none => node.num_gpus
    gpu_type :=
      match report.gpu_type with
      | some gpu_type => if gpu_type ≠ "unknown" then gpu_type else node.gpu_type
      | none => node.gpu_type
    reported :=
      match report.node_metrics with
      | some node_metrics =>
          if node_metrics ≠ [] then .of_metrics node_metrics else node.reported
      | none => node.reported
    loaded_adapters := report.loaded_adapters.toFinset }

namespace ClusterRegistry

variable (r : ClusterRegistry)

/-- A node that is known already keeps its status and its counters. -/
def register_node (now : Time) (node_id : NodeId) (reg : Registration) : ClusterRegistry :=
  match r.nodes.find node_id with
  | some _ =>
      { r with nodes := r.nodes.modify node_id fun node =>
          { node with
            host := reg.host
            port := reg.port
            gpu_type := reg.gpu_type
            gpu_memory_gb := reg.gpu_memory_gb
            num_gpus := reg.num_gpus
            max_workers := reg.max_workers
            last_heartbeat := now } }
  | none =>
      { r with
        nodes := r.nodes.set node_id
          { node_id := node_id
            host := reg.host
            port := reg.port
            gpu_type := reg.gpu_type
            gpu_memory_gb := reg.gpu_memory_gb
            num_gpus := reg.num_gpus
            max_workers := reg.max_workers
            last_heartbeat := now } }

/-- The body of the loops over removed adapters. -/
def discard (node_id : NodeId) (r : ClusterRegistry) (adapter_name : AdapterName) :
    ClusterRegistry :=
  { r with
    adapter_to_nodes := Function.update r.adapter_to_nodes adapter_name
      ((r.adapter_to_nodes adapter_name).erase node_id)
    adapters := r.adapters.modify adapter_name fun info =>
      { info with loaded_on_nodes := info.loaded_on_nodes.erase node_id } }

/-- The body of the loop over added adapters. -/
def add (node_id : NodeId) (r : ClusterRegistry) (adapter_name : AdapterName) :
    ClusterRegistry :=
  let info := (r.adapters.find adapter_name).getD { adapter_name := adapter_name }
  { r with
    adapter_to_nodes := Function.update r.adapter_to_nodes adapter_name
      (insert node_id (r.adapter_to_nodes adapter_name))
    adapters := r.adapters.set adapter_name
      { info with loaded_on_nodes := insert node_id info.loaded_on_nodes } }

/-- The node goes, and with it its place in the index. -/
def unregister_node (order : SetOrder AdapterName) (node_id : NodeId) : ClusterRegistry :=
  match r.nodes.find node_id with
  | some node =>
      (order.toList node.loaded_adapters).foldl (discard node_id)
        { r with nodes := r.nodes.erase node_id }
  | none => r

/-- A status is written whatever the old one is, and counts as a sign of life. -/
def update_node_status (now : Time) (node_id : NodeId) (status : NodeStatus) :
    ClusterRegistry :=
  { r with nodes := r.nodes.modify node_id fun node =>
      { node with
        status := status
        last_heartbeat := now
        aggregator_ready_at :=
          if status = .active ∧ node.status = .starting then some now
          else node.aggregator_ready_at } }

/-- A heartbeat of an unknown node changes nothing. The second phase carries the adapters
that the first found removed and added over to the mappings of the adapters. -/
def update_node_heartbeat (order : SetOrder AdapterName) (now : Time) (node_id : NodeId)
    (report : WorkerReport) : ClusterRegistry :=
  match r.nodes.find node_id with
  | none => r
  | some node =>
      let new_adapters := report.loaded_adapters.toFinset
      let removed := node.loaded_adapters \ new_adapters
      let added := new_adapters \ node.loaded_adapters
      let r := { r with nodes := r.nodes.modify node_id (.report now report) }
      let r := (order.toList removed).foldl (discard node_id) r
      (order.toList added).foldl (add node_id) r

/-- The state of the circuit breaker, as the registry shows it. -/
def update_node_error_state (node_id : NodeId) (circuit_state : String) : ClusterRegistry :=
  { r with nodes := r.nodes.modify node_id fun node =>
      { node with circuit_state := circuit_state } }

/-- A request for the adapter has been sent to the node. -/
def record_request (now : Time) (node_id : NodeId) (adapter_name : AdapterName) :
    ClusterRegistry :=
  { r with
    nodes := r.nodes.modify node_id fun node =>
      { node with last_request_at := now, total_requests := node.total_requests + 1 }
    adapters := r.adapters.modify adapter_name fun info =>
      { info with last_request_at := now, total_requests := info.total_requests + 1 } }

/-- The base model that the node is to run. -/
def set_node_base_model (node_id : NodeId) (base_model : BaseModel)
    (base_model_id : Option String) : ClusterRegistry :=
  { r with nodes := r.nodes.modify node_id fun node =>
      { node with base_model := some base_model, base_model_id := base_model_id } }

/-- A path that is missing or empty is no path. -/
def register_adapter (adapter_name : AdapterName) (adapter_path : Option String) :
    ClusterRegistry :=
  match r.adapters.find adapter_name with
  | none =>
      { r with
        adapters := r.adapters.set adapter_name
          { adapter_name := adapter_name, adapter_path := adapter_path } }
  | some _ =>
      { r with adapters := r.adapters.modify adapter_name fun info =>
          { info with
            adapter_path :=
              match adapter_path with
              | some path => if path = "" then info.adapter_path else some path
              | none => info.adapter_path } }

section Queries

def get_node (node_id : NodeId) : Option NodeInfo := r.nodes.find node_id

/-- The nodes that have the adapter, in the order in which the set gives them. -/
def get_nodes_for_adapter (order : SetOrder NodeId) (adapter_name : AdapterName) :
    List NodeInfo :=
  (order.toList (r.adapter_to_nodes adapter_name)).filterMap fun nid =>
    (r.nodes.find nid).filter NodeInfo.is_available

def get_active_nodes : List NodeInfo := r.nodes.values.filter (·.status = .active)

def get_idle_nodes : List NodeInfo := r.nodes.values.filter (·.status = .idle)

def get_nodes_with_capacity : List NodeInfo :=
  r.nodes.values.filter fun n => n.is_available && n.has_capacity

/-- The first of the active nodes with the fewest active workers. -/
def get_least_loaded_node : Option NodeInfo :=
  (r.nodes.values.filter (·.is_available)).argmin fun n => (n.active_workers : ℚ)

/-- The active and the draining nodes that have not been heard of for too long. -/
def get_stale_nodes (now timeout : Time) : List NodeInfo :=
  r.nodes.values.filter fun n =>
    (n.status = .active ∨ n.status = .draining) ∧ timeout < now - n.last_heartbeat

/-- The active nodes without active workers that have been idle for long enough. -/
def get_drainable_nodes (now idle_threshold : Time) : List NodeInfo :=
  r.nodes.values.filter fun n =>
    n.status = .active ∧ n.active_workers = 0 ∧ idle_threshold < n.idle_time now

def get_nodes_for_base_model_with_capacity (base_model : BaseModel) : List NodeInfo :=
  r.nodes.values.filter fun n =>
    n.base_model = some base_model ∧ n.status = .active ∧ n.has_capacity

def get_idle_nodes_for_base_model (base_model : BaseModel) : List NodeInfo :=
  r.nodes.values.filter fun n => n.base_model = some base_model ∧ n.status = .idle

def get_any_idle_node : Option NodeInfo :=
  (r.nodes.values.filter fun n => n.status = .idle).head?

end Queries

end ClusterRegistry

end Cluster
