import SwarmLoRA.Cluster.Registry

/-! The five placement policies: which node a request goes to, and which node is started when
there is none. Loads are exact rational numbers. -/
namespace Cluster

open Data

/-- Tracks request locality for an adapter. -/
structure LocalityStats where
  request_count : Nat := 0
  last_node_id : Option NodeId := none
  node_request_counts : NodeId → Nat := fun _ => 0

/-- The policies with their own parameters. An adapter without preferences has the empty
list. -/
inductive PolicyKind where
  | affinity
  | least_loaded
  | locality
  | gpu_aware (adapter_gpu_preferences : AdapterName → List String)
  | binpack (target_utilization : ℚ)

/-- A policy with the model configuration and what the locality policy remembers. -/
structure PlacementPolicy where
  kind : PolicyKind := .affinity
  base_model_for_adapter : AdapterName → Option BaseModel := fun _ => none
  adapter_stats : AdapterName → LocalityStats := fun _ => {}

/-- The requests in flight to the nodes. -/
abbrev Inflight := NodeId → Int

/-- The requests that a node has been sent for each worker it may have. -/
def NodeInfo.requests_per_capacity (n : NodeInfo) : ℚ :=
  n.total_requests / max n.max_workers 1

def NodeInfo.effective_load (inflight : Inflight) (n : NodeInfo) : ℚ :=
  (n.active_workers + inflight n.node_id : Int) / max n.max_workers 1

namespace PlacementPolicy

/-- The base model of an adapter. An empty name counts as none wherever it is read. -/
def get_base_model (p : PlacementPolicy) (adapter_name : AdapterName) : Option BaseModel :=
  (p.base_model_for_adapter adapter_name).filter (· ≠ "")

/-- The node runs the base model, if there is one to run. -/
def fits (base_model : Option BaseModel) (n : NodeInfo) : Bool :=
  match base_model with
  | some model => n.base_model = some model
  | none => true

def filter_by_base_model (p : PlacementPolicy) (nodes : List NodeInfo)
    (adapter_name : AdapterName) : List NodeInfo :=
  match p.get_base_model adapter_name with
  | some model => nodes.filter fun n => n.base_model = some model
  | none => nodes

section Request

variable (p : PlacementPolicy) (r : ClusterRegistry) (inflight : Inflight)
  (adapter_name : AdapterName)

def affinity_select : Option NodeInfo :=
  (p.filter_by_base_model r.get_active_nodes adapter_name).argmin NodeInfo.requests_per_capacity

def least_loaded_select : Option NodeInfo :=
  match p.get_base_model adapter_name with
  | some model =>
      (r.get_nodes_for_base_model_with_capacity model).argmin (·.effective_load inflight)
  | none => r.get_least_loaded_node

/-- The node of the last request, if it can take another one. -/
def last_node_used (stats : LocalityStats) : Option NodeInfo :=
  match stats.last_node_id with
  | some last_node_id =>
      if last_node_id = "" then none
      else (r.get_node last_node_id).filter fun node =>
        node.is_available && node.has_capacity && fits (p.get_base_model adapter_name) node
  | none => none

/-- The three priorities of the locality policy. -/
def locality_select (order : SetOrder NodeId) : Option NodeInfo :=
  let stats := p.adapter_stats adapter_name
  ((p.filter_by_base_model (r.get_nodes_for_adapter order adapter_name) adapter_name).argmax
      fun n => stats.node_request_counts n.node_id).or <|
    (p.last_node_used r adapter_name stats).or <|
      (p.filter_by_base_model r.get_nodes_with_capacity adapter_name).argmin
        (·.effective_load inflight)

def record_request (node_id : NodeId) : PlacementPolicy :=
  let stats := p.adapter_stats adapter_name
  { p with
    adapter_stats := Function.update p.adapter_stats adapter_name
      { request_count := stats.request_count + 1
        last_node_id := some node_id
        node_request_counts := Function.update stats.node_request_counts node_id
          (stats.node_request_counts node_id + 1) } }

/-- The choice among the nodes with one of the preferred types of GPU. -/
def gpu_select (gpu_type : String) : Option NodeInfo :=
  let matching_nodes := (p.filter_by_base_model r.get_active_nodes adapter_name).filter
    fun n => n.gpu_type = gpu_type && n.has_capacity
  let with_adapter := matching_nodes.filter (adapter_name ∈ ·.loaded_adapters)
  if with_adapter ≠ [] then with_adapter.argmin (·.effective_load inflight)
  else matching_nodes.argmin (·.effective_load inflight)

def gpu_aware_select (preferred_gpus : List String) : Option NodeInfo :=
  (preferred_gpus.findSome? (p.gpu_select r inflight adapter_name)).or
    (p.affinity_select r adapter_name)

/-- The three passes over the nodes, the fullest first. -/
def binpack_select (target_utilization : ℚ) : Option NodeInfo :=
  let active_nodes := p.filter_by_base_model r.get_active_nodes adapter_name
  let sorted_nodes := active_nodes.insertionSort fun n m =>
    m.effective_load inflight ≤ n.effective_load inflight
  (sorted_nodes.find? fun n => adapter_name ∈ n.loaded_adapters && n.has_capacity).or <|
    (sorted_nodes.find? fun n =>
      n.effective_load inflight < target_utilization && n.has_capacity).or <|
      sorted_nodes.find? (·.has_capacity)

/-- The selection and the policy after it, which has recorded it if it is the one that does. -/
def select_node_for_request (order : SetOrder NodeId) : Option NodeInfo × PlacementPolicy :=
  match p.kind with
  | .affinity => (p.affinity_select r adapter_name, p)
  | .least_loaded => (p.least_loaded_select r inflight adapter_name, p)
  | .locality =>
      match p.locality_select r inflight adapter_name order with
      | some node => (some node, p.record_request adapter_name node.node_id)
      | none => (none, p)
  | .gpu_aware adapter_gpu_preferences =>
      (p.gpu_aware_select r inflight adapter_name (adapter_gpu_preferences adapter_name), p)
  | .binpack target_utilization =>
      (p.binpack_select r inflight adapter_name target_utilization, p)

end Request

/-- An idle node that has been given the base model before, else any idle node. -/
def idle_node (r : ClusterRegistry) (base_model : Option BaseModel) : Option NodeInfo :=
  match base_model with
  | some model => (r.get_idle_nodes_for_base_model model).head?.or r.get_any_idle_node
  | none => r.get_any_idle_node

/-- The bin packing policy divides by the number of workers, and fails where that is zero. -/
def select_node_for_scale_up (p : PlacementPolicy) (r : ClusterRegistry)
    (base_model : Option BaseModel) : Except String (Option NodeInfo) :=
  match p.kind with
  | .binpack target_utilization =>
      let active_nodes := r.get_active_nodes
      if active_nodes.any (·.max_workers = 0) then .error "division by zero"
      else if active_nodes.any fun n =>
          (n.active_workers / n.max_workers : ℚ) < target_utilization then .ok none
      else .ok (idle_node r base_model)
  | _ => .ok (idle_node r base_model)

end PlacementPolicy

end Cluster
