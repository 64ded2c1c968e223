import Mathlib.Algebra.Order.Field.Rat
import Mathlib.Logic.Function.Basic
import SwarmLoRA.Cluster.Failover
import SwarmLoRA.Machine.System

namespace Data.Share

variable {ι : Type}

/-- What a member has for each unit of its weight. -/
def share (weight : ι → ℚ) (count : ι → Nat) (i : ι) : ℚ := count i / weight i

/-- No member is more than one unit ahead of another. -/
def Fair (weight : ι → ℚ) (members : ι → Prop) (count : ι → Nat) : Prop :=
  ∀ i j, members i → members j → 1 ≤ count i →
    ((count i : ℚ) - 1) / weight i ≤ share weight count j

variable {weight : ι → ℚ} {members : ι → Prop} {count : ι → Nat}

theorem fair_of_zero (hZero : ∀ i, members i → count i = 0) : Fair weight members count := by
  intro i j hi _ hSome
  rw [hZero i hi] at hSome
  cases hSome

variable [DecidableEq ι] {k : ι}

/-- One more unit lowers no share. -/
theorem share_le_update (hWeight : ∀ i, members i → 0 < weight i) {j : ι} (hj : members j) :
    share weight count j ≤ share weight (Function.update count k (count k + 1)) j := by
  unfold share
  by_cases hSame : j = k
  · subst hSame
    rw [Function.update_self, Nat.cast_succ]
    exact (div_le_div_iff_of_pos_right (hWeight j hj)).mpr (le_add_of_nonneg_right zero_le_one)
  · rw [Function.update_of_ne hSame]

/-- The next unit goes to a member with the least share. -/
theorem fair_update (hWeight : ∀ i, members i → 0 < weight i)
    (hLeast : ∀ j, members j → share weight count k ≤ share weight count j)
    (hFair : Fair weight members count) :
    Fair weight members (Function.update count k (count k + 1)) := by
  intro i j hi hj hSome
  have hGrown : share weight count j ≤
      share weight (Function.update count k (count k + 1)) j := share_le_update hWeight hj
  by_cases hSame : i = k
  · subst hSame
    calc ((Function.update count i (count i + 1) i : Nat) - 1 : ℚ) / weight i
        = share weight count i := by
          rw [Function.update_self, Nat.cast_succ, add_sub_cancel_right]
          rfl
      _ ≤ share weight count j := hLeast j hj
      _ ≤ share weight (Function.update count i (count i + 1)) j := hGrown
  · rw [Function.update_of_ne hSame] at hSome ⊢
    exact (hFair i j hi hj hSome).trans hGrown

end Data.Share

/-!
How the default policy spreads requests over active nodes that serve the same base model. It
does not look at the load that nodes report but at what it has sent them so far.
-/

namespace Cluster

open Data PlacementPolicy

/-- A request, with what the policy is told of the requests in flight. -/
structure Arrival where
  adapter_name : AdapterName
  inflight : Inflight
  order : SetOrder NodeId
  now : Time

/-- Active nodes for one base model, or for none, that can all have workers. Among such nodes the
policy has the choice for every request. -/
structure Fleet (r : ClusterRegistry) : Prop where
  named : r.Named
  base_model : ∃ base_model, ∀ n ∈ r.get_active_nodes, n.base_model = base_model
  positive : ∀ n ∈ r.get_active_nodes, 0 < n.max_workers

namespace ClusterRegistry

/-- A call of `select_node_for_request` and one of `record_request` for the node it returns. -/
def serve (p : PlacementPolicy) (r : ClusterRegistry) (a : Arrival) : ClusterRegistry :=
  match (p.select_node_for_request r a.inflight a.adapter_name a.order).1 with
  | some n => r.record_request a.now n.node_id a.adapter_name
  | none => r

variable (r : ClusterRegistry) (n : NodeId)

def runs (n : NodeId) : Prop := ∃ node, r.get_node n = some node ∧ node.status = .active

def capacity (n : NodeId) : ℚ :=
  match r.get_node n with
  | some node => node.max_workers
  | none => 1

def served (n : NodeId) : Nat :=
  match r.get_node n with
  | some node => node.total_requests
  | none => 0

end ClusterRegistry

/-- The default policy serves one request after the other. -/
def requests (base_model_for_adapter : AdapterName → Option BaseModel) :
    Machine.System ClusterRegistry Arrival where
  initial r := Fleet r ∧ ∀ n ∈ r.get_active_nodes, n.total_requests = 0
  step r a := some (r.serve { base_model_for_adapter := base_model_for_adapter } a)

section Record

variable {r : ClusterRegistry} {now : Time} {k : NodeId} {adapter_name : AdapterName}

theorem mem_active_iff (hNamed : r.Named) {node : NodeInfo} :
    node ∈ r.get_active_nodes ↔ r.get_node node.node_id = some node ∧ node.status = .active := by
  unfold ClusterRegistry.get_active_nodes
  rw [List.mem_filter, decide_eq_true_eq, OrderedDict.mem_values]
  constructor
  · rintro ⟨⟨n, hFind⟩, hActive⟩
    have hId := hNamed n node hFind
    rw [hId]
    exact ⟨hFind, hActive⟩
  · rintro ⟨hFind, hActive⟩
    exact ⟨⟨node.node_id, hFind⟩, hActive⟩

theorem get_node_record (n : NodeId) :
    (r.record_request now k adapter_name).get_node n =
      if n = k then (r.get_node n).map fun node =>
        { node with last_request_at := now, total_requests := node.total_requests + 1 }
      else r.get_node n := by
  unfold ClusterRegistry.get_node ClusterRegistry.record_request
  rw [OrderedDict.find_modify]

theorem runs_record : (r.record_request now k adapter_name).runs = r.runs := by
  funext n
  unfold ClusterRegistry.runs
  rw [get_node_record]
  by_cases hSame : n = k
  · rw [if_pos hSame]
    simp
  · rw [if_neg hSame]

theorem capacity_record : (r.record_request now k adapter_name).capacity = r.capacity := by
  funext n
  unfold ClusterRegistry.capacity
  rw [get_node_record]
  by_cases hSame : n = k
  · rw [if_pos hSame]
    cases r.get_node n with
    | none => rfl
    | some node => rfl
  · rw [if_neg hSame]

theorem served_record {node : NodeInfo} (hNode : r.get_node k = some node) :
    (r.record_request now k adapter_name).served =
      Function.update r.served k (r.served k + 1) := by
  funext n
  unfold ClusterRegistry.served
  rw [get_node_record]
  by_cases hSame : n = k
  · subst hSame
    rw [if_pos rfl, Function.update_self, hNode]
    rfl
  · rw [if_neg hSame, Function.update_of_ne hSame]

theorem named_record (hNamed : r.Named) : (r.record_request now k adapter_name).Named := by
  intro n node hFind
  have hRecord : (r.record_request now k adapter_name).get_node n = some node := hFind
  rw [get_node_record] at hRecord
  split at hRecord
  · obtain ⟨old, hOld, hNew⟩ := Option.map_eq_some_iff.mp hRecord
    rw [← hNew]
    exact hNamed n old hOld
  · exact hNamed n node hRecord

theorem Fleet.record (h : Fleet r) : Fleet (r.record_request now k adapter_name) := by
  have hOld : ∀ node ∈ (r.record_request now k adapter_name).get_active_nodes,
      ∃ old ∈ r.get_active_nodes, node.base_model = old.base_model ∧
        node.max_workers = old.max_workers := by
    intro node hMem
    obtain ⟨hFind, hActive⟩ := (mem_active_iff (named_record h.named)).mp hMem
    rw [get_node_record] at hFind
    split at hFind
    · obtain ⟨old, hBefore, rfl⟩ := Option.map_eq_some_iff.mp hFind
      exact ⟨old, (mem_active_iff h.named).mpr ⟨hBefore, hActive⟩, rfl, rfl⟩
    · exact ⟨node, (mem_active_iff h.named).mpr ⟨hFind, hActive⟩, rfl, rfl⟩
  obtain ⟨base_model, hSame⟩ := h.base_model
  refine ⟨named_record h.named, ⟨base_model, ?_⟩, ?_⟩
  · intro node hMem
    obtain ⟨old, hBefore, hModel, _⟩ := hOld node hMem
    rw [hModel]
    exact hSame old hBefore
  · intro node hMem
    obtain ⟨old, hBefore, _, hWorkers⟩ := hOld node hMem
    rw [hWorkers]
    exact h.positive old hBefore

end Record

section Selection

variable {p : PlacementPolicy} {r : ClusterRegistry} {adapter_name : AdapterName}

/-- In a fleet a request passes over all nodes or over none. -/
theorem filter_of_fleet (h : Fleet r) {node : NodeInfo}
    (hMem : node ∈ p.filter_by_base_model r.get_active_nodes adapter_name) :
    p.filter_by_base_model r.get_active_nodes adapter_name = r.get_active_nodes := by
  obtain ⟨base_model, hSame⟩ := h.base_model
  unfold filter_by_base_model at hMem ⊢
  cases hModel : p.get_base_model adapter_name with
  | none => rfl
  | some model =>
      rw [hModel] at hMem
      obtain ⟨hActive, hFits⟩ := List.mem_filter.mp hMem
      apply List.filter_eq_self.mpr
      intro other hOther
      rw [hSame other hOther, ← hSame node hActive]
      exact hFits

theorem requests_per_capacity_eq (h : Fleet r) {node : NodeInfo}
    (hMem : node ∈ r.get_active_nodes) :
    node.requests_per_capacity = Share.share r.capacity r.served node.node_id := by
  have hNode := ((mem_active_iff h.named).mp hMem).1
  have hWorkers : max node.max_workers 1 = node.max_workers :=
    max_eq_left (Int.add_one_le_iff.mpr (h.positive node hMem))
  unfold NodeInfo.requests_per_capacity Share.share ClusterRegistry.capacity
    ClusterRegistry.served
  rw [hNode, hWorkers]

theorem least_of_affinity (h : Fleet r) {node : NodeInfo}
    (hSelect : p.affinity_select r adapter_name = some node) :
    r.get_node node.node_id = some node ∧ ∀ n, r.runs n →
      Share.share r.capacity r.served node.node_id ≤ Share.share r.capacity r.served n := by
  unfold affinity_select at hSelect
  have hMem := List.argmin_mem hSelect
  have hAll := filter_of_fleet h hMem
  rw [hAll] at hMem hSelect
  refine ⟨((mem_active_iff h.named).mp hMem).1, ?_⟩
  rintro n ⟨other, hOther, hActive⟩
  have hId : other.node_id = n := h.named n other hOther
  subst hId
  have hOtherMem := (mem_active_iff h.named).mpr ⟨hOther, hActive⟩
  rw [← requests_per_capacity_eq h hMem, ← requests_per_capacity_eq h hOtherMem]
  exact List.le_of_mem_argmin hOtherMem hSelect

end Selection

section Requests

variable {base_model_for_adapter : AdapterName → Option BaseModel} {r r' : ClusterRegistry}

/-- What a run of requests keeps: the fleet as it was, and shares of which none is more than one
request ahead. -/
structure Balanced (r : ClusterRegistry) : Prop where
  fleet : Fleet r
  fair : Share.Fair r.capacity r.runs r.served

theorem capacity_pos (h : Fleet r) {n : NodeId} (hRuns : r.runs n) : 0 < r.capacity n := by
  obtain ⟨node, hNode, hActive⟩ := hRuns
  have hId : node.node_id = n := h.named n node hNode
  subst hId
  unfold ClusterRegistry.capacity
  rw [hNode]
  exact Int.cast_pos.mpr (h.positive node ((mem_active_iff h.named).mpr ⟨hNode, hActive⟩))

/-- The node that a request goes to is one of those with the least share. -/
theorem Balanced.serve (h : Balanced r) (a : Arrival) :
    Balanced (r.serve { base_model_for_adapter := base_model_for_adapter } a) := by
  unfold ClusterRegistry.serve
  split
  · rename_i node hSelect
    obtain ⟨hNode, hLeast⟩ := least_of_affinity h.fleet hSelect
    refine ⟨h.fleet.record, ?_⟩
    rw [capacity_record, runs_record, served_record hNode]
    exact Share.fair_update (fun n => capacity_pos h.fleet) hLeast h.fair
  · exact h

theorem balanced_of_reach (run : (requests base_model_for_adapter).Reachable r) :
    Balanced r := by
  apply run.invariant
  · rintro r ⟨hFleet, hZero⟩
    refine ⟨hFleet, Share.fair_of_zero ?_⟩
    rintro n ⟨node, hNode, hActive⟩
    have hId : node.node_id = n := hFleet.named n node hNode
    subst hId
    unfold ClusterRegistry.served
    rw [hNode]
    exact hZero node ((mem_active_iff hFleet.named).mpr ⟨hNode, hActive⟩)
  · intro r a r' h _ hStep
    obtain rfl := Option.some.inj hStep
    exact h.serve a

/-- No node is more than one request ahead of its share: by its capacity, what one active node has
been given before its last request is no more than what any other one has been given. -/
theorem at_most_one_ahead (run : (requests base_model_for_adapter).Reachable r)
    {first second : NodeInfo} (hFirst : first ∈ r.get_active_nodes)
    (hSecond : second ∈ r.get_active_nodes) (hServed : 1 ≤ first.total_requests) :
    ((first.total_requests : ℚ) - 1) / first.max_workers ≤
      second.total_requests / second.max_workers := by
  have h := balanced_of_reach run
  obtain ⟨hFirstNode, hFirstActive⟩ := (mem_active_iff h.fleet.named).mp hFirst
  obtain ⟨hSecondNode, hSecondActive⟩ := (mem_active_iff h.fleet.named).mp hSecond
  have hFair := h.fair first.node_id second.node_id ⟨first, hFirstNode, hFirstActive⟩
    ⟨second, hSecondNode, hSecondActive⟩
  unfold Share.share ClusterRegistry.capacity ClusterRegistry.served at hFair
  rw [hFirstNode, hSecondNode] at hFair
  exact hFair hServed

end Requests

def loraRequest : Arrival where
  adapter_name := "lora-a"
  inflight := fun _ => 0
  order := .sorted
  now := 1

theorem fleet_twoNodes : Fleet (twoNodes 0 0) := by
  have hNodes : (twoNodes 0 0).get_active_nodes = [llamaNode "n1" 64 0, llamaNode "n2" 32 0] := rfl
  refine ⟨twoNodes_named 0 0, ⟨some "llama", ?_⟩, ?_⟩
  · rw [hNodes]
    decide
  · rw [hNodes]
    decide

/-- The first request has gone to the bigger one of two nodes. -/
theorem at_most_one_ahead_two_nodes : ∃ first second,
    ((twoNodes 0 0).serve llamaPolicy loraRequest).get_active_nodes = [first, second] ∧
      first.total_requests = 1 ∧
        ((first.total_requests : ℚ) - 1) / first.max_workers ≤
          second.total_requests / second.max_workers := by
  have hSelect : (llamaPolicy.select_node_for_request (twoNodes 0 0) loraRequest.inflight
      loraRequest.adapter_name loraRequest.order).1 = some (llamaNode "n1" 64 0) :=
    (twoNodes_select 0 0).trans (if_neg (by norm_num))
  have hServe : (twoNodes 0 0).serve llamaPolicy loraRequest =
      (twoNodes 0 0).record_request 1 "n1" "lora-a" := by
    unfold ClusterRegistry.serve
    rw [hSelect]
    rfl
  have hNodes : ((twoNodes 0 0).serve llamaPolicy loraRequest).get_active_nodes =
      [{ llamaNode "n1" 64 0 with last_request_at := 1, total_requests := 1 },
        llamaNode "n2" 32 0] := by
    rw [hServe]
    rfl
  have run : (requests fun _ => some "llama").Reachable
      ((twoNodes 0 0).serve llamaPolicy loraRequest) :=
    .next (.start ⟨fleet_twoNodes, by decide⟩) trivial rfl
  refine ⟨_, _, hNodes, rfl, at_most_one_ahead run ?_ ?_ (Nat.le_refl 1)⟩
  · rw [hNodes]
    exact List.mem_cons_self
  · rw [hNodes]
    exact List.mem_cons_of_mem _ (List.mem_singleton_self _)

end Cluster
