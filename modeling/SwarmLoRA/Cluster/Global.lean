import Mathlib.Data.Finset.Lattice.Basic
import SwarmLoRA.Cluster.Failover
import SwarmLoRA.Machine.System

/-! The global controller and the agents of its nodes. Requests look for a node and start one
where there is none, the auto-scaler starts and stops nodes, the health monitor takes its
passes, and heartbeats and launch requests are on their way for any time. A coroutine of the
controller runs undisturbed from one suspension to the next. -/
namespace Cluster.Global

open Data

abbrev RequestId := Nat

/-- Who awaits a `_scale_up_node` call. -/
inductive Caller where
  | request (r : RequestId)
  | scaler
  | manual
  deriving DecidableEq

/-- Where a launch request is: on its way to the agent, with the agent while the process
loads its model, or answered. -/
inductive LaunchPhase where
  | sent
  | loading
  | replied (success : Bool)
  deriving DecidableEq

/-- A call of `/aggregator/launch`. A caller that has given it up does not await it any more,
and the request may reach the agent all the same. -/
structure Launch where
  node_id : NodeId
  base_model : Option BaseModel
  caller : Caller
  awaited : Bool := true
  phase : LaunchPhase := .sent

/-- A call of `/aggregator/stop`, which the scaler or an operator awaits. -/
structure Stop where
  node_id : NodeId
  by_scaler : Bool
  awaited : Bool := true

/-- The agent of a node. `aggregator` is the base model that the running process was launched
with, and `restarting` a crash that the process monitor has not made up for yet. -/
structure Agent where
  aggregator : Option (Option BaseModel) := none
  controller_running : Bool := false
  current_base_model : Option BaseModel := none
  restarting : Bool := false

/-- What a heartbeat says, which is what held when the agent put it together. By the time it is
delivered something else may hold. -/
structure Heartbeat where
  node_id : NodeId
  status : NodeStatus
  report : WorkerReport
  base_model : Option BaseModel

inductive RequestPc where
  | launching (launch : Nat)
  | polling (left : Nat)
  | forwarding (node_id : NodeId)
  | ended
  deriving DecidableEq

structure Request where
  adapter_name : AdapterName
  tried_nodes : Finset NodeId := ∅
  attempt : Nat := 0
  pc : RequestPc := .ended

/-- A node that a request has been given, with the aggregator that ran there at the time and
whether a stop call for the node was still out. -/
structure Selection where
  adapter_name : AdapterName
  node_id : NodeId
  aggregator : Option (Option BaseModel)
  stopping : Bool

/-- The auto-scaler: between two rounds, with launches still to begin and nodes to stop when
all launches have come back, or with a stop call out and more nodes to stop. -/
inductive ScalerPc where
  | sleeping
  | starting (ups : List (Option BaseModel)) (downs : List NodeId)
  | stopping (downs : List NodeId)

structure ClusterSnapshot where
  num_active_nodes : Nat
  num_idle_nodes : Nat
  min_active_nodes : Int
  max_active_nodes : Int
  pending_requests : Int
  default_base_model : Option BaseModel

inductive ScalingDecision where
  | scale_up (base_model : Option BaseModel)
  | scale_down (node_id : NodeId)

/-- The policy of the auto-scaler where none is configured. -/
def DefaultClusterScaler.make_scaling_decisions (scale_up_threshold : Int)
    (snapshot : ClusterSnapshot) (drainable_node_ids : List NodeId) : List ScalingDecision :=
  let deficit := snapshot.min_active_nodes - snapshot.num_active_nodes
  let ups := List.replicate (min deficit snapshot.num_idle_nodes).toNat
    (.scale_up snapshot.default_base_model)
  let more :=
    if scale_up_threshold < snapshot.pending_requests ∧
        snapshot.num_active_nodes < snapshot.max_active_nodes ∧ 0 < snapshot.num_idle_nodes then
      [.scale_up none]
    else []
  let spare := (snapshot.num_active_nodes - snapshot.min_active_nodes).toNat
  ups ++ more ++ (drainable_node_ids.take spare).map .scale_down

structure GlobalControllerConfig where
  min_active_nodes : Nat := 0
  max_active_nodes : Nat := 10
  node_scale_down_delay : Time := 300
  heartbeat_timeout : Time := 30
  max_queue_size : Nat := 1000
  forward_max_attempts : Nat := 2
  /-- How often a request looks again while a node starts up. -/
  wait_iters : Nat := 300
  base_models : List BaseModel := []
  model_id : BaseModel → Option String := fun _ => none
  make_scaling_decisions : ClusterSnapshot → List NodeId → List ScalingDecision :=
    DefaultClusterScaler.make_scaling_decisions 1

structure State where
  registry : ClusterRegistry := {}
  policy : PlacementPolicy := {}
  inflight_per_node : NodeId → Int := fun _ => 0
  pending_requests : Nat := 0
  requests : List Request := []
  launches : List Launch := []
  stops : List Stop := []
  scaler : ScalerPc := .sleeping
  agents : NodeId → Agent := fun _ => {}
  heartbeats : List Heartbeat := []
  /-- The nodes that requests have been given so far. -/
  selections : List Selection := []

namespace State

variable (cfg : GlobalControllerConfig) (now : Time) (s : State)

def launching (node_id : NodeId) : Bool :=
  s.launches.any fun l => l.awaited && l.node_id = node_id

def stopping (node_id : NodeId) : Bool :=
  s.stops.any fun t => t.awaited && t.node_id = node_id

def set_pc (r : RequestId) (pc : RequestPc) : State :=
  { s with requests := s.requests.modify r fun req => { req with pc := pc } }

/-- The request has found its node, which it is recorded for and forwarded to. -/
def forward (r : RequestId) (adapter_name : AdapterName) (node_id : NodeId) : State :=
  { s with
    requests := s.requests.modify r fun req =>
      { req with tried_nodes := insert node_id req.tried_nodes, pc := .forwarding node_id }
    inflight_per_node := Function.update s.inflight_per_node node_id
      (s.inflight_per_node node_id + 1)
    registry := s.registry.record_request now node_id adapter_name
    selections := s.selections ++
      [{ adapter_name := adapter_name
         node_id := node_id
         aggregator := (s.agents node_id).aggregator
         stopping := s.stopping node_id }] }

/-- What `_handle_inference` does on every way out. -/
def finish (r : RequestId) : State :=
  let tried_nodes :=
    match s.requests[r]? with
    | some req => req.tried_nodes
    | none => ∅
  { s.set_pc r .ended with
    pending_requests := s.pending_requests - 1
    inflight_per_node := fun n =>
      if n ∈ tried_nodes then max 0 (s.inflight_per_node n - 1) else s.inflight_per_node n }

/-- The node is marked before its aggregator is launched. -/
def launch (base_model : Option BaseModel) (caller : Caller) (node_id : NodeId) : State :=
  let registry := s.registry.update_node_status now node_id .starting
  { s with
    registry :=
      match base_model with
      | some model => registry.set_node_base_model node_id model (cfg.model_id model)
      | none => registry
    launches := s.launches ++
      [{ node_id := node_id, base_model := base_model, caller := caller }] }

/-- `_scale_up_node` up to its suspension; nothing where no idle node is found. -/
def scale_up (base_model : Option BaseModel) (caller : Caller) : Except String (Option State) :=
  (s.policy.select_node_for_scale_up s.registry base_model).map fun node =>
    node.map fun n => s.launch cfg now base_model caller n.node_id

/-- The polling loop with so many rounds left. -/
def await_node (r : RequestId) (left : Nat) : State :=
  if left = 0 then s.finish r else s.set_pc r (.polling left)

/-- `_get_node_for_request` up to its suspension, or the forwarding where there is none. -/
def seek (order : SetOrder NodeId) (r : RequestId) (adapter_name : AdapterName)
    (tried_nodes : Finset NodeId) : State :=
  let (found, policy) := get_node_for_request s.policy s.registry s.inflight_per_node
    adapter_name order cfg.max_active_nodes tried_nodes
  let s := { s with policy := policy }
  match found with
  | .node n => s.forward now r adapter_name n.node_id
  | .scale_up base_model =>
      match s.scale_up cfg now base_model (.request r) with
      | .ok (some s') => s'.set_pc r (.launching s.launches.length)
      | .ok none => s.await_node r cfg.wait_iters
      | .error _ => s.finish r
  | .wait => s.await_node r cfg.wait_iters

/-- A request that is not turned away at once. -/
def arrive (order : SetOrder NodeId) (adapter_name : AdapterName) : State :=
  if cfg.max_queue_size ≤ s.pending_requests then s
  else
    let r := s.requests.length
    let s := { s with
      pending_requests := s.pending_requests + 1
      requests := s.requests ++ [({ adapter_name := adapter_name } : Request)] }
    if cfg.forward_max_attempts = 0 then s.finish r else s.seek cfg now order r adapter_name ∅

def poll (order : SetOrder NodeId) (r : RequestId) (req : Request) (left : Nat) : State :=
  let (node, policy) := s.policy.select_node_for_request s.registry s.inflight_per_node
    req.adapter_name order
  let s := { s with policy := policy }
  match node.filter (·.node_id ∉ req.tried_nodes) with
  | some n => s.forward now r req.adapter_name n.node_id
  | none => s.await_node r (left - 1)

/-- A forward has failed. Only the first failure leads to another node. -/
def forward_failed (order : SetOrder NodeId) (r : RequestId) (req : Request) : State :=
  if req.attempt = 0 ∧ 1 < cfg.forward_max_attempts then
    let s := { s with requests := s.requests.modify r fun req => { req with attempt := 1 } }
    s.seek cfg now order r req.adapter_name req.tried_nodes
  else s.finish r

/-- The rest of `_scale_up_node` and of a request that has called it. -/
def launch_returned (i : Nat) (l : Launch) (success : Bool) : State :=
  let s := { s with
    launches := s.launches.set i { l with awaited := false }
    registry := s.registry.update_node_status now l.node_id
      (if success then .active else .failed) }
  match l.caller with
  | .request r =>
      match s.requests[r]? with
      | some req =>
          if success ∧ (s.registry.get_node l.node_id).isSome ∧ l.node_id ∉ req.tried_nodes then
            s.forward now r req.adapter_name l.node_id
          else s.await_node r cfg.wait_iters
      | none => s
  | .scaler | .manual => s

/-- `_scale_down_node` up to its suspension. -/
def scale_down (by_scaler : Bool) (node_id : NodeId) : State :=
  if (s.registry.get_node node_id).isSome then
    { s with
      registry := s.registry.update_node_status now node_id .draining
      stops := s.stops ++ [{ node_id := node_id, by_scaler := by_scaler }] }
  else s

/-- The loop over the nodes to stop, up to its next suspension. -/
def scale_downs : List NodeId → State
  | [] => { s with scaler := .sleeping }
  | node_id :: rest =>
      if (s.registry.get_node node_id).isSome then
        { s.scale_down now true node_id with scaler := .stopping rest }
      else scale_downs rest

/-- The decisions of a round. -/
def scaling_decisions : List ScalingDecision :=
  cfg.make_scaling_decisions
    { num_active_nodes := s.registry.get_active_nodes.length
      num_idle_nodes := s.registry.get_idle_nodes.length
      min_active_nodes := cfg.min_active_nodes
      max_active_nodes := cfg.max_active_nodes
      pending_requests := s.pending_requests
      default_base_model := cfg.base_models.head? }
    ((s.registry.get_drainable_nodes now cfg.node_scale_down_delay).map (·.node_id))

/-- The launches of a round, one without a base model taking the default one. An empty name
counts as none. -/
def scale_ups : List (Option BaseModel) :=
  (s.scaling_decisions cfg now).filterMap fun
    | .scale_up base_model =>
        some (((base_model.filter (· ≠ "")).or cfg.base_models.head?).filter (· ≠ ""))
    | .scale_down _ => none

def scaler_round : State :=
  let downs := (s.scaling_decisions cfg now).filterMap fun
    | .scale_up _ => none
    | .scale_down node_id => some node_id
  match s.scale_ups cfg now with
  | [] => s.scale_downs now downs
  | ups => { s with scaler := .starting ups downs }

/-- A node that has not been heard of for too long has failed, and a failed node that has been
heard of is back. Marking a node counts as hearing of it. -/
def recover_failed_nodes (r : ClusterRegistry) : ClusterRegistry :=
  { r with nodes := r.nodes.map fun node =>
      if node.status = .failed ∧ now - node.last_heartbeat < cfg.heartbeat_timeout then
        { node with status := if node.aggregator_pid.isSome then .active else .idle }
      else node }

def health_pass : State :=
  let stale := (s.registry.get_stale_nodes now cfg.heartbeat_timeout).map (·.node_id)
  let registry := stale.foldl (fun r n => r.update_node_status now n .failed) s.registry
  { s with registry := recover_failed_nodes cfg now registry }

def heartbeat (order : SetOrder AdapterName) (b : Heartbeat) : State :=
  let registry := (s.registry.update_node_status now b.node_id b.status).update_node_heartbeat
    order now b.node_id b.report
  { s with
    registry :=
      match b.base_model with
      | some model =>
          if model = "" then registry else registry.set_node_base_model b.node_id model none
      | none => registry }

def register (node_id : NodeId) (reg : Registration) (base_model : Option BaseModel) : State :=
  let registry := s.registry.register_node now node_id reg
  { s with
    registry :=
      match base_model with
      | some model =>
          if model = "" then registry else registry.set_node_base_model node_id model none
      | none => registry }

end State

inductive Label where
  /-- A client asks for an adapter. -/
  | arrive (order : SetOrder NodeId) (now : Time) (adapter_name : AdapterName)
  | poll (order : SetOrder NodeId) (now : Time) (r : RequestId)
  /-- The forwarding of a request comes back. -/
  | forwarded (order : SetOrder NodeId) (now : Time) (r : RequestId) (success : Bool)
  | cancel (r : RequestId)
  /-- The agent of the node gets the launch request, its new process gets ready or does not
  start up, or it cannot even be created. -/
  | launch_delivered (i : Nat)
  | launch_ready (i : Nat)
  | launch_timeout (i : Nat)
  | launch_error (i : Nat)
  /-- The launch call returns with the answer of the agent, or without any. -/
  | launch_returned (now : Time) (i : Nat) (answered : Bool)
  | scaler_round (now : Time)
  | scaler_start (now : Time)
  | scaler_gathered (now : Time)
  | stop_returned (now : Time) (i : Nat) (success : Bool)
  /-- `/cluster/scale`. -/
  | manual_up (now : Time)
  | manual_down (now : Time) (node_id : NodeId)
  | health (now : Time)
  | register (now : Time) (node_id : NodeId) (reg : Registration)
      (base_model : Option BaseModel)
  | unregister (order : SetOrder AdapterName) (node_id : NodeId)
  | heartbeat_sent (node_id : NodeId) (report : WorkerReport)
  | heartbeat_delivered (order : SetOrder AdapterName) (now : Time) (i : Nat)
  /-- The aggregator of a node crashes, or ends because it is stopped or killed. -/
  | crash (node_id : NodeId)
  | stopped (node_id : NodeId)
  | restart (node_id : NodeId)
  | controller (node_id : NodeId) (running : Bool)

/-- The status that an agent reports. -/
def Agent.status (a : Agent) : NodeStatus :=
  if a.aggregator.isSome ∧ a.controller_running then .active
  else if a.aggregator.isSome then .starting
  else .idle

namespace State

variable (s : State)

def set_agent (node_id : NodeId) (a : Agent) : State :=
  { s with agents := Function.update s.agents node_id a }

def set_launch (i : Nat) (l : Launch) : State :=
  { s with launches := s.launches.set i l }

/-- The agent starts a process only if none is running, whatever model that one has. -/
def launch_delivered (i : Nat) (l : Launch) : State :=
  let a := s.agents l.node_id
  if a.aggregator.isSome then s.set_launch i { l with phase := .replied true }
  else (s.set_launch i { l with phase := .loading }).set_agent l.node_id
    { a with aggregator := some l.base_model, current_base_model := l.base_model }

/-- The process monitor launches what it knows was running. -/
def restart (node_id : NodeId) : State :=
  let a := s.agents node_id
  s.set_agent node_id
    { a with
      restarting := false
      aggregator := a.aggregator.or (some a.current_base_model) }

/-- A cancelled request stops awaiting its launch. -/
def cancel (r : RequestId) (req : Request) : State :=
  let launches :=
    match req.pc with
    | .launching i => s.launches.modify i fun l => { l with awaited := false }
    | _ => s.launches
  { s with launches := launches }.finish r

end State

open State

def step (cfg : GlobalControllerConfig) (s : State) : Label → Option State
  | .arrive order now adapter_name => some (s.arrive cfg now order adapter_name)
  | .poll order now r =>
      match s.requests[r]? with
      | some req =>
          match req.pc with
          | .polling left => some (s.poll now order r req left)
          | _ => none
      | none => none
  | .forwarded order now r success =>
      match s.requests[r]? with
      | some req =>
          match req.pc with
          | .forwarding _ =>
              if success then some (s.finish r)
              else some (s.forward_failed cfg now order r req)
          | _ => none
      | none => none
  | .cancel r =>
      match s.requests[r]? with
      | some req => if req.pc = .ended then none else some (s.cancel r req)
      | none => none
  | .launch_delivered i =>
      match s.launches[i]? with
      | some l => if l.phase = .sent then some (s.launch_delivered i l) else none
      | none => none
  | .launch_ready i =>
      match s.launches[i]? with
      | some l =>
          if l.phase = .loading then
            some ((s.set_launch i { l with phase := .replied true }).set_agent l.node_id
              { s.agents l.node_id with controller_running := true })
          else none
      | none => none
  | .launch_timeout i =>
      match s.launches[i]? with
      | some l =>
          if l.phase = .loading then
            some ((s.set_launch i { l with phase := .replied false }).set_agent l.node_id
              { s.agents l.node_id with aggregator := none, current_base_model := none })
          else none
      | none => none
  | .launch_error i =>
      match s.launches[i]? with
      | some l =>
          if l.phase = .sent ∧ (s.agents l.node_id).aggregator = none then
            some ((s.set_launch i { l with phase := .replied false }).set_agent l.node_id
              { s.agents l.node_id with current_base_model := l.base_model })
          else none
      | none => none
  | .launch_returned now i answered =>
      match s.launches[i]? with
      | some l =>
          if l.awaited then
            if answered then
              match l.phase with
              | .replied success => some (s.launch_returned cfg now i l success)
              | _ => none
            else some (s.launch_returned cfg now i l false)
          else none
      | none => none
  | .scaler_round now =>
      match s.scaler with
      | .sleeping => some (s.scaler_round cfg now)
      | _ => none
  | .scaler_start now =>
      match s.scaler with
      | .starting (base_model :: ups) downs =>
          let s := { s with scaler := .starting ups downs }
          match s.scale_up cfg now base_model .scaler with
          | .ok (some s') => some s'
          | _ => some s
      | _ => none
  | .scaler_gathered now =>
      match s.scaler with
      | .starting [] downs =>
          if s.launches.any fun l => l.awaited && l.caller = .scaler then none
          else some (s.scale_downs now downs)
      | _ => none
  | .stop_returned now i success =>
      match s.stops[i]? with
      | some t =>
          if t.awaited then
            let s := { s with
              stops := s.stops.set i { t with awaited := false }
              registry := s.registry.update_node_status now t.node_id
                (if success then .idle else .failed) }
            match s.scaler with
            | .stopping rest => if t.by_scaler then some (s.scale_downs now rest) else some s
            | _ => some s
          else none
      | none => none
  | .manual_up now =>
      match s.scale_up cfg now none .manual with
      | .ok (some s') => some s'
      | _ => some s
  | .manual_down now node_id => some (s.scale_down now false node_id)
  | .health now => some (s.health_pass cfg now)
  | .register now node_id reg base_model => some (s.register now node_id reg base_model)
  | .unregister order node_id =>
      some { s with registry := s.registry.unregister_node order node_id }
  | .heartbeat_sent node_id report =>
      let a := s.agents node_id
      some { s with
        heartbeats := s.heartbeats ++
          [{ node_id := node_id
             status := a.status
             report := report
             base_model := a.current_base_model }] }
  | .heartbeat_delivered order now i =>
      match s.heartbeats[i]? with
      | some b => some ({ s with heartbeats := s.heartbeats.eraseIdx i }.heartbeat now order b)
      | none => none
  | .crash node_id =>
      let a := s.agents node_id
      if a.aggregator.isSome then
        some (s.set_agent node_id { a with aggregator := none, restarting := true })
      else none
  | .stopped node_id =>
      some (s.set_agent node_id { s.agents node_id with aggregator := none })
  | .restart node_id =>
      if (s.agents node_id).restarting then some (s.restart node_id) else none
  | .controller node_id running =>
      some (s.set_agent node_id { s.agents node_id with controller_running := running })

/-- A controller and agents that have just been started, with any placement policy. -/
def initial (s : State) : Prop := ∃ policy, s = { policy := policy }

def machine (cfg : GlobalControllerConfig) : Machine.System State Label where
  initial := initial
  step := step cfg

end Cluster.Global
