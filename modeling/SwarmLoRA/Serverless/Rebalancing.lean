import Mathlib.Data.List.Sort
import SwarmLoRA.Data.Quota
import SwarmLoRA.Data.Rounding
import SwarmLoRA.Data.Tally
import SwarmLoRA.Serverless.Registry

namespace Serverless.Rebalancing

open Data

abbrev ContainerId := String

def REBALANCE_RATE_RATIO_THRESHOLD : ℚ := 2

def REBALANCE_MIN_CONTAINERS_PER_FUNCTION : Nat := 1

def REBALANCE_COOLDOWN_S : ℚ := 30

def REBALANCE_MAX_SWAPS_PER_NODE : Nat := 2

def REBALANCE_MIN_TOTAL_REQUESTS : ℚ := 10

def REBALANCE_MIN_RATE_DIFF : ℚ := 1 / 20

structure Node where
  node_id : NodeId
  containers : OrderedDict ContainerId Container

/-- When a container was swapped last. One that is not there was swapped at time zero. -/
abbrev SwapTimes := OrderedDict ContainerId ℚ

/-- What a round of the scheduler finds. The ids of the nodes are the keys of a dictionary. -/
structure Round where
  registry : Registry
  view : View
  nodes : List Node
  now : ℚ
  node_ids : (nodes.map (·.node_id)).Nodup

/-- `starving_fid` is the function whose turn it was. The code only keeps the adapter. -/
structure Proposal where
  adapter_artifact : Artifact
  node_id : NodeId
  target : PreloadTarget
  density : ℚ
  donor_container_id : ContainerId
  starving_fid : FunctionId

section Shares

namespace Node

variable (node : Node) (view : View)

/-- An empty id counts as none. -/
def func_containers : OrderedDict FunctionId (List (ContainerId × Container)) :=
  OrderedDict.group (fun x => x.2.function_id.filter (· ≠ "")) node.containers.items

def containers_of (fid : FunctionId) : List (ContainerId × Container) :=
  node.func_containers.get fid []

def actual (fid : FunctionId) : Nat := (node.containers_of fid).length

def total_rate : ℚ := (node.func_containers.keys.map view.get_request_rate).sum

def total_containers : Nat := (node.func_containers.keys.map node.actual).sum

/-- The proportional fair share. -/
def desired (fid : FunctionId) : Nat :=
  max REBALANCE_MIN_CONTAINERS_PER_FUNCTION
    (round_half_even (node.total_containers * view.get_request_rate fid /
      node.total_rate view)).toNat

def total_pending (fid : FunctionId) : Nat :=
  ((node.containers_of fid).map (·.2.pending_requests)).sum

/-- The functions with their deficits, highest demand first. A function only starves if requests are
queuing. -/
def starving : List (FunctionId × Nat) :=
  (node.func_containers.keys.filterMap fun fid =>
    if node.actual fid < node.desired view fid ∧ node.actual fid < node.total_pending fid then
      some (fid, node.desired view fid - node.actual fid)
    else none).insertionSort fun x y => view.get_request_rate y.1 ≤ view.get_request_rate x.1

/-- The functions with their surpluses, lowest demand first. -/
def overstocked : List (FunctionId × Nat) :=
  (node.func_containers.keys.filterMap fun fid =>
    if node.desired view fid < node.actual fid ∧
        REBALANCE_MIN_CONTAINERS_PER_FUNCTION < node.actual fid then
      some (fid, node.actual fid - node.desired view fid)
    else none).insertionSort fun x y => view.get_request_rate x.1 ≤ view.get_request_rate y.1

/-- The node is passed over. -/
def quiet : Bool :=
  node.containers.keys.isEmpty || node.func_containers.keys.isEmpty ||
    decide (node.total_rate view < 1 / 1000) ||
    decide (node.total_rate view < REBALANCE_MIN_TOTAL_REQUESTS / 60) ||
    decide (node.total_containers < 2) ||
    (node.starving view).isEmpty || (node.overstocked view).isEmpty

end Node

/-- The starving rate must be significantly higher. -/
def significant (view : View) (starving_fid donor_fid : FunctionId) : Bool :=
  let starving_rate := view.get_request_rate starving_fid
  let donor_rate := view.get_request_rate donor_fid
  !decide (starving_rate < donor_rate * REBALANCE_RATE_RATIO_THRESHOLD) &&
    !decide (starving_rate - donor_rate < REBALANCE_MIN_RATE_DIFF)

end Shares

section Swaps

/-- The progress on a node, with the swap times that all nodes share. -/
structure Progress where
  selected_donors : List ContainerId := []
  last_swap_time : SwapTimes
  node_swap_count : Nat := 0
  candidates : List Proposal := []

def Progress.select (progress : Progress) (now : ℚ) (proposal : Proposal) : Progress where
  selected_donors := progress.selected_donors ++ [proposal.donor_container_id]
  last_swap_time := progress.last_swap_time.set proposal.donor_container_id now
  node_swap_count := progress.node_swap_count + 1
  candidates := progress.candidates ++ [proposal]

/-- A donor's turn, with what the starving function still lacks and the donor can spare. -/
structure Turn where
  progress : Progress
  deficit : Nat
  surplus : Nat

def Turn.give (turn : Turn) (now : ℚ) (proposal : Proposal) : Turn where
  progress := turn.progress.select now proposal
  deficit := turn.deficit - 1
  surplus := turn.surplus - 1

/-- The donor's containers in their order. -/
def donate (now : ℚ) (propose : ContainerId → Proposal)
    (donor_containers : List (ContainerId × Container)) :
    List (ContainerId × Container) → Turn → Turn
  | [], turn => turn
  | (container_id, container) :: rest, turn =>
      if turn.deficit = 0 ∨ turn.surplus = 0 then turn
      else if container_id ∈ turn.progress.selected_donors then
        donate now propose donor_containers rest turn
      else if donor_containers.length -
          donor_containers.countP (fun x => x.1 ∈ turn.progress.selected_donors) ≤
            REBALANCE_MIN_CONTAINERS_PER_FUNCTION then turn
      else if 0 < container.pending_requests then donate now propose donor_containers rest turn
      else if now - turn.progress.last_swap_time.get container_id 0 < REBALANCE_COOLDOWN_S then
        donate now propose donor_containers rest turn
      else
        let next := turn.give now (propose container_id)
        if REBALANCE_MAX_SWAPS_PER_NODE ≤ next.progress.node_swap_count then next
        else donate now propose donor_containers rest next

/-- What a starving function leaves, with the surpluses written back. -/
structure Pass where
  progress : Progress
  deficit : Nat
  overstocked : List (FunctionId × Nat)

namespace Round

variable (round : Round) (node : Node)

/-- The first artifact of a function that is an adapter. -/
def adapter_of (fid : FunctionId) : Option Artifact :=
  (round.view.get_function fid).bind fun starving_func =>
    starving_func.required_artifacts.findSome? fun aid =>
      (round.registry.get_artifact aid).filter (·.artifact_type = .adapter)

def propose (starving_fid : FunctionId) (adapter_artifact : Artifact) (donor_fid : FunctionId)
    (container_id : ContainerId) : Proposal where
  adapter_artifact := adapter_artifact
  node_id := node.node_id
  target := .gpu
  density := (round.view.get_request_rate starving_fid - round.view.get_request_rate donor_fid) *
    adapter_artifact.loading_delay_ms / max adapter_artifact.size_mb 1
  donor_container_id := container_id
  starving_fid := starving_fid

/-- The donors' turns for a starving function. -/
def pair (starving_fid : FunctionId) (adapter_artifact : Artifact) :
    List (FunctionId × Nat) → Progress → Nat → Pass
  | [], progress, deficit => ⟨progress, deficit, []⟩
  | (donor_fid, surplus) :: rest, progress, deficit =>
      if deficit = 0 then ⟨progress, deficit, (donor_fid, surplus) :: rest⟩
      else if surplus = 0 ∨ !significant round.view starving_fid donor_fid then
        let after := pair starving_fid adapter_artifact rest progress deficit
        { after with overstocked := (donor_fid, surplus) :: after.overstocked }
      else
        let turn := donate round.now (round.propose node starving_fid adapter_artifact donor_fid)
          (node.containers_of donor_fid) (node.containers_of donor_fid)
          ⟨progress, deficit, surplus⟩
        let after := pair starving_fid adapter_artifact rest turn.progress turn.deficit
        { after with overstocked := (donor_fid, turn.surplus) :: after.overstocked }

/-- The starving functions one after the other. One without an adapter is passed over. -/
def serve : List (FunctionId × Nat) → List (FunctionId × Nat) → Progress → Progress
  | [], _, progress => progress
  | (starving_fid, deficit) :: rest, overstocked, progress =>
      if REBALANCE_MAX_SWAPS_PER_NODE ≤ progress.node_swap_count then progress
      else
        match round.adapter_of starving_fid with
        | none => serve rest overstocked progress
        | some adapter_artifact =>
            let after := round.pair node starving_fid adapter_artifact overstocked progress deficit
            serve rest after.overstocked after.progress

def rebalance (times : SwapTimes) : Progress :=
  if node.quiet round.view then { last_swap_time := times }
  else
    round.serve node (node.starving round.view) (node.overstocked round.view)
      { last_swap_time := times }

/-- The nodes with the swap times as the round comes to them. -/
def steps : SwapTimes → List Node → List (SwapTimes × Node)
  | _, [] => []
  | times, node :: rest => (times, node) :: steps (round.rebalance node times).last_swap_time rest

def compute_rebalance_candidates (times : SwapTimes) : List Proposal :=
  ((round.steps times round.nodes).flatMap fun step =>
    (round.rebalance step.2 step.1).candidates).insertionSort fun p q => q.density ≤ p.density

end Round

end Swaps

section Limits

namespace Round

variable (round : Round) (times : SwapTimes) (node : Node)

def proposals_on : List Proposal :=
  (round.compute_rebalance_candidates times).filter (·.node_id = node.node_id)

/-- The containers that the proposals take from a function. -/
def taken (fid : FunctionId) : Nat :=
  (node.containers_of fid).countP fun x =>
    x.1 ∈ (round.proposals_on times node).map (·.donor_container_id)

/-- The containers that the proposals bring to a function. -/
def received (fid : FunctionId) : Nat :=
  (round.proposals_on times node).countP (·.starving_fid = fid)

/-- A container that no request waits for and that is out of its cooldown. -/
def ready (times : SwapTimes) (x : ContainerId × Container) : Bool :=
  x.2.pending_requests = 0 &&
    decide (REBALANCE_COOLDOWN_S ≤ round.now - times.get x.1 0)

/-- The limits that a round is meant to keep: few swaps for a node, no container given twice, only
ready ones, enough left with each donor, and nobody given more than it lacks. -/
structure WithinLimits : Prop where
  few : ∀ node ∈ round.nodes,
    (round.proposals_on times node).length ≤ REBALANCE_MAX_SWAPS_PER_NODE
  once : ((round.compute_rebalance_candidates times).map (·.donor_container_id)).Nodup
  idle : ∀ node ∈ round.nodes, ∀ p ∈ round.proposals_on times node,
    ∃ container, node.containers.find p.donor_container_id = some container ∧
      round.ready times (p.donor_container_id, container)
  donors : ∀ node ∈ round.nodes, ∀ fid, 0 < round.taken times node fid →
    round.taken times node fid + REBALANCE_MIN_CONTAINERS_PER_FUNCTION ≤ node.actual fid
  starving : ∀ node ∈ round.nodes, ∀ p ∈ round.proposals_on times node,
    ∃ deficit, (p.starving_fid, deficit) ∈ node.starving round.view ∧
      round.received times node p.starving_fid ≤ deficit

/-- The starving functions that can be served. -/
def demands (starving : List (FunctionId × Nat)) : List (FunctionId × Nat) :=
  starving.filter fun x => (round.adapter_of x.1).isSome

/-- The donors with what they can hand over: of their surplus, as many containers as are ready. -/
def supplies : List (FunctionId × Nat) :=
  (node.overstocked round.view).map fun x =>
    (x.1, min x.2 ((node.containers_of x.1).countP (round.ready times)))

/-- For some starving function, the deficits before it are below the limit and with its own above,
and some donor has something for it after other donors who can hand over as many as the limit. -/
def Overflows : Prop :=
  node.quiet round.view = false ∧
    Quota.Overflows REBALANCE_MAX_SWAPS_PER_NODE (fun starving_fid =>
      Quota.Reaches REBALANCE_MAX_SWAPS_PER_NODE (significant round.view starving_fid) 0
        (round.supplies times node)) 0 (round.demands (node.starving round.view))

end Round

end Limits

end Serverless.Rebalancing
