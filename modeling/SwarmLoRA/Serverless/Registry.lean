import Mathlib.Algebra.Order.Field.Rat
import Mathlib.Algebra.Order.Monoid.Unbundled.WithTop
import Mathlib.Tactic.NormNum
import SwarmLoRA.Data.Replace

namespace Serverless

abbrev ArtifactId := String

abbrev FunctionId := String

abbrev NodeId := String

abbrev AdapterId := String

inductive ArtifactType where
  | library
  | backbone
  | adapter
  | kernel
  deriving DecidableEq

/-- Where an artifact can be preloaded to. -/
inductive PreloadTarget where
  | container
  | gpu
  deriving DecidableEq

structure Artifact where
  artifact_id : ArtifactId
  artifact_type : ArtifactType
  size_mb : ℚ
  loading_delay_ms : ℚ
  depends_on : List ArtifactId := []
  backbone_id : Option ArtifactId := none
  size_nonneg : 0 ≤ size_mb

namespace Artifact

variable (artifact : Artifact)

def compute_value (request_rate : ℚ) : ℚ := artifact.loading_delay_ms * request_rate

/-- On a GPU there is some overhead for alignment. -/
def get_effective_size : PreloadTarget → ℚ
  | .gpu => artifact.size_mb * (21 / 20)
  | .container => artifact.size_mb

/-- Infinite for an artifact of some value that takes no memory. -/
def compute_density (request_rate : ℚ) (location : PreloadTarget) : WithTop ℚ :=
  let value := artifact.compute_value request_rate
  let weight := artifact.get_effective_size location
  if weight ≤ 0 then (if 0 < value then ⊤ else 0) else ((value / weight : ℚ) : WithTop ℚ)

theorem get_effective_size_nonneg (target : PreloadTarget) :
    0 ≤ artifact.get_effective_size target := by
  cases target with
  | container => exact artifact.size_nonneg
  | gpu => exact mul_nonneg artifact.size_nonneg (by norm_num)

end Artifact

/-- A node with the limits and the use of its memory. -/
structure WorkerNode where
  node_id : NodeId
  memory_mb : PreloadTarget → ℚ
  memory_used_mb : PreloadTarget → ℚ

/-- `get_container_memory_available` and `get_gpu_memory_available`. -/
def WorkerNode.available (node : WorkerNode) (target : PreloadTarget) : ℚ :=
  max 0 (node.memory_mb target - node.memory_used_mb target)

/-- `can_allocate_container` and `can_allocate_gpu`. -/
def WorkerNode.can_allocate (node : WorkerNode) (target : PreloadTarget) (required_mb : ℚ) : Bool :=
  required_mb ≤ node.available target

/-- What is registered once and for all. The ids are the keys of dictionaries. -/
structure Registry where
  artifacts : List Artifact
  nodes : List WorkerNode
  artifact_ids : (artifacts.map (·.artifact_id)).Nodup
  node_ids : (nodes.map (·.node_id)).Nodup

namespace Registry

variable (registry : Registry)

def get_artifact (artifact_id : ArtifactId) : Option Artifact :=
  registry.artifacts.find? (·.artifact_id = artifact_id)

def get_node (node_id : NodeId) : Option WorkerNode :=
  registry.nodes.find? (·.node_id = node_id)

theorem find?_of_mem {α : Type} {key : α → String} {l : List α} (hNodup : (l.map key).Nodup)
    {x : α} (hMem : x ∈ l) : l.find? (fun y => key y = key x) = some x := by
  induction l with
  | nil => exact absurd hMem List.not_mem_nil
  | cons y l ih =>
      rw [List.map_cons, List.nodup_cons] at hNodup
      rcases List.mem_cons.mp hMem with rfl | hMem
      · simp
      · have hNe : key y ≠ key x := fun hSame => hNodup.1 (hSame ▸ List.mem_map_of_mem hMem)
        rw [List.find?_cons_of_neg (by simpa using hNe)]
        exact ih hNodup.2 hMem

variable {registry}

theorem get_artifact_of_mem {artifact : Artifact} (hMem : artifact ∈ registry.artifacts) :
    registry.get_artifact artifact.artifact_id = some artifact :=
  find?_of_mem registry.artifact_ids hMem

theorem get_node_of_mem {node : WorkerNode} (hMem : node ∈ registry.nodes) :
    registry.get_node node.node_id = some node :=
  find?_of_mem registry.node_ids hMem

end Registry

structure FunctionProfile where
  function_id : FunctionId
  required_artifacts : List ArtifactId := []
  adapter_id : Option AdapterId := none

inductive ContainerStatus where
  | starting
  | ready
  | busy
  | stopping
  deriving DecidableEq

/-- `s.replace(old, new)` -/
def str_replace (s old new : String) : String :=
  String.ofList (Data.Replace.replace old.toList new.toList s.toList)

/-- The artifact of an adapter. -/
def adapter_artifact_id (adapter_id : AdapterId) : ArtifactId :=
  "adapter_" ++ str_replace adapter_id "/" "_"

structure Container where
  function_id : Option FunctionId
  status : ContainerStatus := .ready
  loaded_artifacts : List ArtifactId := []
  gpu_loaded_artifacts : List ArtifactId := []
  pending_requests : Nat := 0
  lora_id : Option AdapterId := none

namespace Container

def rebind_function (container : Container) (function_id : FunctionId) (lora_id : AdapterId) :
    Container :=
  { container with function_id := some function_id, lora_id := some lora_id }

/-- After a swap: the artifact of the new adapter for that of the old one, and the binding. -/
def swapped (container : Container) (function_id : FunctionId) (adapter_id : AdapterId) :
    Container :=
  let discard (artifacts : List ArtifactId) := artifacts.filter fun artifact_id =>
    container.lora_id.map adapter_artifact_id ≠ some artifact_id
  let new_artifact := adapter_artifact_id adapter_id
  { container with
    loaded_artifacts := (discard container.loaded_artifacts).insert new_artifact
    gpu_loaded_artifacts := (discard container.gpu_loaded_artifacts).insert new_artifact
  }.rebind_function function_id adapter_id

end Container

/-- The rest of the registry, as a round of the scheduler finds it. Every round may find another
one. -/
structure View where
  functions : List FunctionProfile
  get_request_rate : FunctionId → ℚ
  is_healthy : NodeId → Bool := fun _ => true
  containers : NodeId → List Container := fun _ => []
  loaded_at_node : ArtifactId → Option NodeId := fun _ => none

namespace View

/-- One function is asked for and nothing is loaded. -/
def asking (required_artifacts : List ArtifactId) : View where
  functions := [{ function_id := "function", required_artifacts := required_artifacts }]
  get_request_rate := fun _ => 1

variable (registry : Registry) (view : View)

def get_function (function_id : FunctionId) : Option FunctionProfile :=
  view.functions.find? (·.function_id = function_id)

def get_healthy_nodes : List WorkerNode :=
  registry.nodes.filter fun node => view.is_healthy node.node_id

def get_containers_for_function (function_id : FunctionId) : List Container :=
  registry.nodes.flatMap fun node =>
    (view.containers node.node_id).filter (·.function_id = some function_id)

/-- A backbone or a library is there for all containers of a node. -/
def shared (artifact : Artifact) (node_id : NodeId) : Bool :=
  (artifact.artifact_type = .backbone || artifact.artifact_type = .library) &&
    !(view.containers node_id).isEmpty

/-- Already loaded on the node or shared through its containers. -/
def provided (artifact : Artifact) (node_id : NodeId) : Bool :=
  view.shared artifact node_id || view.loaded_at_node artifact.artifact_id = some node_id

/-- An entry of `_compute_artifact_rates`. -/
def artifact_rate (artifact_id : ArtifactId) : ℚ :=
  ((view.functions.filter fun f => f.required_artifacts.contains artifact_id).map
    fun f => view.get_request_rate f.function_id).sum

/-- `_artifact_loaded_on_node`. -/
def artifact_loaded_on_node (artifact : Artifact) (node_id : NodeId) : Bool :=
  (view.containers node_id).any (fun container =>
    ((container.function_id.bind view.get_function).any fun f =>
      f.required_artifacts.contains artifact.artifact_id) ||
    container.loaded_artifacts.contains artifact.artifact_id ||
    container.gpu_loaded_artifacts.contains artifact.artifact_id) ||
  (artifact.artifact_type ≠ .adapter && view.provided artifact node_id)

/-- The place that `_estimate_node_memory` counts a loaded artifact for. -/
def counted_at (artifact : Artifact) (node_id : NodeId) : Option PreloadTarget :=
  if !view.artifact_loaded_on_node artifact node_id then none
  else if (view.containers node_id).any fun c =>
      c.gpu_loaded_artifacts.contains artifact.artifact_id then some .gpu
  else if (view.containers node_id).any fun c =>
      c.loaded_artifacts.contains artifact.artifact_id then some .container
  else none

/-- `_estimate_node_memory`. -/
def estimate_node_memory (node_id : NodeId) (target : PreloadTarget) : ℚ :=
  ((registry.artifacts.filter fun a => view.counted_at a node_id = some target).map
    fun a => a.get_effective_size target).sum

/-- An adapter of a function that is asked for and has no container counts more. -/
def unserved_boost (artifact : Artifact) : ℚ :=
  if artifact.artifact_type = .adapter then
    match view.functions.find? fun f => f.required_artifacts.contains artifact.artifact_id with
    | some f =>
        if (view.get_containers_for_function registry f.function_id).isEmpty &&
            decide (0 < view.get_request_rate f.function_id) then 10
        else 1
    | none => 1
  else 1

end View

/-- `_check_capacity`. -/
def check_capacity (artifact : Artifact) (node : WorkerNode) (target : PreloadTarget) : Bool :=
  node.can_allocate target (artifact.get_effective_size target)

end Serverless
