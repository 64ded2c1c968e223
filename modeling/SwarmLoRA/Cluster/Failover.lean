import Mathlib.Tactic.NormNum
import SwarmLoRA.Cluster.Index
import SwarmLoRA.Cluster.Placement

namespace Cluster

open Data PlacementPolicy

/-- How `_get_node_for_request` comes to its first suspension: it returns a node, it starts
one, or it waits for one. -/
inductive Found where
  | node (n : NodeInfo)
  | scale_up (base_model : Option BaseModel)
  | wait

section Selection

variable (p : PlacementPolicy) (r : ClusterRegistry) (inflight : Inflight)
  (adapter_name : AdapterName) (order : SetOrder NodeId)

/-- The code up to the first suspension. The lock for starting nodes is never held across
one, so nothing happens between the two selections. -/
def get_node_for_request (max_active_nodes : Nat) (exclude_nodes : Finset NodeId) :
    Found × PlacementPolicy :=
  let first := p.select_node_for_request r inflight adapter_name order
  match first.1.filter (·.node_id ∉ exclude_nodes) with
  | some node => (.node node, first.2)
  | none =>
      let again := first.2.select_node_for_request r inflight adapter_name order
      match again.1.filter (·.node_id ∉ exclude_nodes) with
      | some node => (.node node, again.2)
      | none =>
          if r.get_active_nodes.length < max_active_nodes then
            (.scale_up (p.get_base_model adapter_name), again.2)
          else (.wait, again.2)

/-- Every node is filed under its own id. -/
def ClusterRegistry.Named (r : ClusterRegistry) : Prop :=
  ∀ n node, r.nodes.find n = some node → node.node_id = n

theorem ClusterRegistry.named_of_reach {r : ClusterRegistry} (run : registry.Reachable r) :
    r.Named := by
  obtain ⟨v, h⟩ := represents_of_reach run
  exact h.named

/-- What every policy promises of the node it selects: it is registered and active, and has the base
model that the adapter needs, if that is known. -/
structure Suitable (p : PlacementPolicy) (r : ClusterRegistry) (adapter_name : AdapterName)
    (n : NodeInfo) : Prop where
  registered : n ∈ r.nodes.values
  active : n.status = .active
  fits : fits (p.get_base_model adapter_name) n = true

variable {p r inflight adapter_name order} {n : NodeInfo}

theorem mem_filter_by_base_model {nodes : List NodeInfo} :
    n ∈ p.filter_by_base_model nodes adapter_name ↔
      n ∈ nodes ∧ fits (p.get_base_model adapter_name) n = true := by
  unfold filter_by_base_model fits
  cases p.get_base_model adapter_name with
  | none => simp
  | some model => simp

theorem suitable_of_active (h : n ∈ p.filter_by_base_model r.get_active_nodes adapter_name) :
    Suitable p r adapter_name n := by
  obtain ⟨hActive, hFits⟩ := mem_filter_by_base_model.mp h
  obtain ⟨hMem, hStatus⟩ := List.mem_filter.mp hActive
  exact ⟨hMem, of_decide_eq_true hStatus, hFits⟩

theorem suitable_of_affinity (h : p.affinity_select r adapter_name = some n) :
    Suitable p r adapter_name n :=
  suitable_of_active (List.argmin_mem h)

theorem suitable_of_least_loaded
    (h : p.least_loaded_select r inflight adapter_name = some n) :
    Suitable p r adapter_name n := by
  unfold least_loaded_select at h
  cases hModel : p.get_base_model adapter_name with
  | some model =>
      rw [hModel] at h
      obtain ⟨hMem, hNode⟩ := List.mem_filter.mp (List.argmin_mem h)
      obtain ⟨hBase, hActive, -⟩ := of_decide_eq_true hNode
      exact ⟨hMem, hActive, by rw [hModel]; exact decide_eq_true hBase⟩
  | none =>
      rw [hModel] at h
      obtain ⟨hMem, hActive⟩ := List.mem_filter.mp (List.argmin_mem h)
      exact ⟨hMem, of_decide_eq_true hActive, by rw [hModel]; rfl⟩

theorem suitable_of_available (hMem : n ∈ r.nodes.values) (hAvailable : n.is_available = true)
    (hFits : fits (p.get_base_model adapter_name) n = true) : Suitable p r adapter_name n :=
  ⟨hMem, of_decide_eq_true hAvailable, hFits⟩

theorem last_node_used_eq_some {stats : LocalityStats} :
    p.last_node_used r adapter_name stats = some n ↔
      ∃ id, stats.last_node_id = some id ∧ id ≠ "" ∧ r.nodes.find id = some n ∧
        n.is_available = true ∧ n.has_capacity = true ∧
          fits (p.get_base_model adapter_name) n = true := by
  unfold last_node_used
  cases stats.last_node_id with
  | none => simp
  | some id =>
      by_cases hEmpty : id = ""
      · simp [hEmpty]
      · simp [hEmpty, ClusterRegistry.get_node, Option.filter_eq_some_iff, and_assoc]

theorem suitable_of_locality
    (h : p.locality_select r inflight adapter_name order = some n) :
    Suitable p r adapter_name n := by
  simp only [locality_select, Option.or_eq_some_iff] at h
  rcases h with hLoaded | ⟨-, hLast | ⟨-, hFree⟩⟩
  · obtain ⟨hMem, hFits⟩ := mem_filter_by_base_model.mp (List.argmax_mem hLoaded)
    obtain ⟨m, -, hFind, hActive⟩ := (r.mem_get_nodes_for_adapter order _ n).mp hMem
    exact ⟨(r.nodes.mem_values n).mpr ⟨m, hFind⟩, hActive, hFits⟩
  · obtain ⟨id, -, -, hFind, hAvailable, -, hFits⟩ := last_node_used_eq_some.mp hLast
    exact suitable_of_available ((r.nodes.mem_values n).mpr ⟨id, hFind⟩) hAvailable hFits
  · obtain ⟨hMem, hFits⟩ := mem_filter_by_base_model.mp (List.argmin_mem hFree)
    obtain ⟨hRegistered, hNode⟩ := List.mem_filter.mp hMem
    exact suitable_of_available hRegistered (Bool.and_eq_true_iff.mp hNode).1 hFits

theorem suitable_of_gpu_aware {preferred_gpus : List String}
    (h : p.gpu_aware_select r inflight adapter_name preferred_gpus = some n) :
    Suitable p r adapter_name n := by
  simp only [gpu_aware_select, Option.or_eq_some_iff] at h
  rcases h with hPreferred | ⟨-, hFallback⟩
  · obtain ⟨gpu_type, -, hSelect⟩ := List.exists_of_findSome?_eq_some hPreferred
    unfold gpu_select at hSelect
    dsimp only at hSelect
    split at hSelect
    · have hMem := List.mem_of_mem_filter (List.argmin_mem hSelect)
      exact suitable_of_active (List.mem_of_mem_filter hMem)
    · exact suitable_of_active (List.mem_of_mem_filter (List.argmin_mem hSelect))
  · exact suitable_of_affinity hFallback

theorem suitable_of_binpack {target_utilization : ℚ}
    (h : p.binpack_select r inflight adapter_name target_utilization = some n) :
    Suitable p r adapter_name n := by
  simp only [binpack_select, Option.or_eq_some_iff] at h
  apply suitable_of_active
  rcases h with hFirst | ⟨-, hSecond | ⟨-, hThird⟩⟩
  · exact (List.mem_insertionSort _).mp (List.mem_of_find?_eq_some hFirst)
  · exact (List.mem_insertionSort _).mp (List.mem_of_find?_eq_some hSecond)
  · exact (List.mem_insertionSort _).mp (List.mem_of_find?_eq_some hThird)

/-- Every policy selects a registered, active node with the right base model. -/
theorem suitable_of_select
    (h : (p.select_node_for_request r inflight adapter_name order).1 = some n) :
    Suitable p r adapter_name n := by
  unfold select_node_for_request at h
  split at h
  · exact suitable_of_affinity h
  · exact suitable_of_least_loaded h
  · split at h
    · rename_i hSelect
      obtain rfl := Option.some.inj h
      exact suitable_of_locality hSelect
    · cases h
  · exact suitable_of_gpu_aware h
  · exact suitable_of_binpack h

/-- Counting one more request for the node with the most requests leaves it in front. -/
theorem argmax_record {nodes : List NodeInfo} {counts : NodeId → Nat}
    (h : (nodes.argmax fun m => counts m.node_id) = some n) :
    (nodes.argmax fun m =>
      Function.update counts n.node_id (counts n.node_id + 1) m.node_id) = some n := by
  classical
  obtain ⟨hMem, hMax, hFirst⟩ := List.argmax_eq_some_iff.mp h
  apply List.argmax_eq_some_iff.mpr
  refine ⟨hMem, ?_, ?_⟩
  · intro m hm
    rw [Function.update_self]
    by_cases hSame : m.node_id = n.node_id
    · rw [hSame, Function.update_self]
    · rw [Function.update_of_ne hSame]
      exact Nat.le_succ_of_le (hMax m hm)
  · intro m hm hLe
    rw [Function.update_self] at hLe
    by_cases hSame : m.node_id = n.node_id
    · exact hFirst m hm (by rw [hSame])
    · rw [Function.update_of_ne hSame] at hLe
      exact absurd ((hMax m hm).trans_lt (Nat.lt_succ_self _)) (not_lt.mpr hLe)

theorem filter_by_base_model_record (node_id : NodeId) (nodes : List NodeInfo) :
    (p.record_request adapter_name node_id).filter_by_base_model nodes adapter_name =
      p.filter_by_base_model nodes adapter_name := rfl

theorem adapter_stats_record (node_id : NodeId) :
    (p.record_request adapter_name node_id).adapter_stats adapter_name =
      { request_count := (p.adapter_stats adapter_name).request_count + 1
        last_node_id := some node_id
        node_request_counts := Function.update (p.adapter_stats adapter_name).node_request_counts
          node_id ((p.adapter_stats adapter_name).node_request_counts node_id + 1) } := by
  unfold record_request
  exact Function.update_self ..

/-- The node of the last selection is the node of the last request, and if it has been left
out of account for its empty id, the third priority finds it again. -/
theorem locality_select_again (hNamed : r.Named)
    (h : p.locality_select r inflight adapter_name order = some n) :
    (p.record_request adapter_name n.node_id).locality_select r inflight adapter_name order =
      some n := by
  simp only [locality_select, Option.or_eq_some_iff] at h ⊢
  rw [adapter_stats_record, filter_by_base_model_record, filter_by_base_model_record]
  rcases h with hLoaded | ⟨hNone, hRest⟩
  · exact Or.inl (argmax_record hLoaded)
  · refine Or.inr ⟨List.argmax_eq_none.mpr (List.argmax_eq_none.mp hNone), ?_⟩
    rcases hRest with hLast | ⟨hNoLast, hFree⟩
    · obtain ⟨id, -, hId, hFind, hNode⟩ := last_node_used_eq_some.mp hLast
      obtain rfl := hNamed id n hFind
      exact Or.inl (last_node_used_eq_some.mpr ⟨_, rfl, hId, hFind, hNode⟩)
    · obtain ⟨hMem, hFits⟩ := mem_filter_by_base_model.mp (List.argmin_mem hFree)
      obtain ⟨hRegistered, hNode⟩ := List.mem_filter.mp hMem
      obtain ⟨hAvailable, hCapacity⟩ := Bool.and_eq_true_iff.mp hNode
      obtain ⟨id, hFind⟩ := (r.nodes.mem_values n).mp hRegistered
      obtain rfl := hNamed id n hFind
      by_cases hEmpty : n.node_id = ""
      · refine Or.inr ⟨?_, hFree⟩
        simp [last_node_used, hEmpty]
      · exact Or.inl (last_node_used_eq_some.mpr
          ⟨_, rfl, hEmpty, hFind, hAvailable, hCapacity, hFits⟩)

/-- Asking the policy once more gives the same node. -/
theorem select_again (hNamed : r.Named) :
    ((p.select_node_for_request r inflight adapter_name order).2.select_node_for_request r
      inflight adapter_name order).1 =
        (p.select_node_for_request r inflight adapter_name order).1 := by
  cases hKind : p.kind with
  | locality =>
      cases hSelect : p.locality_select r inflight adapter_name order with
      | none => simp [select_node_for_request, hKind, hSelect]
      | some node =>
          have hAgain := locality_select_again hNamed hSelect
          have hSameKind : (p.record_request adapter_name node.node_id).kind = .locality := hKind
          simp [select_node_for_request, hKind, hSelect, hSameKind, hAgain]
  | _ => simp [select_node_for_request, hKind]

/-- The node is one that the request could go to at once. -/
def Usable (p : PlacementPolicy) (r : ClusterRegistry) (adapter_name : AdapterName)
    (exclude_nodes : Finset NodeId) (n : NodeInfo) : Prop :=
  Suitable p r adapter_name n ∧ n.has_capacity = true ∧ n.node_id ∉ exclude_nodes

/-- The node that the policy ranks first has spare capacity and is not left out. -/
def FirstChoiceServes (p : PlacementPolicy) (r : ClusterRegistry) (inflight : Inflight)
    (adapter_name : AdapterName) (order : SetOrder NodeId) (exclude_nodes : Finset NodeId) :
    Prop :=
  ∃ n, (p.select_node_for_request r inflight adapter_name order).1 = some n ∧
    n.has_capacity = true ∧ n.node_id ∉ exclude_nodes

theorem found_node_iff (hNamed : r.Named) (max_active_nodes : Nat)
    (exclude_nodes : Finset NodeId) :
    (get_node_for_request p r inflight adapter_name order max_active_nodes exclude_nodes).1 =
        .node n ↔
      (p.select_node_for_request r inflight adapter_name order).1 = some n ∧
        n.node_id ∉ exclude_nodes := by
  unfold get_node_for_request
  dsimp only
  rw [select_again hNamed]
  cases hFirst : (p.select_node_for_request r inflight adapter_name order).1.filter
      (·.node_id ∉ exclude_nodes) with
  | some node =>
      obtain ⟨hSelect, hKept⟩ := Option.filter_eq_some_iff.mp hFirst
      have hOut : node.node_id ∉ exclude_nodes := of_decide_eq_true hKept
      constructor
      · rintro ⟨⟩
        exact ⟨hSelect, hOut⟩
      · rintro ⟨hSame, -⟩
        rw [Option.some.inj (hSelect.symm.trans hSame)]
  | none =>
      have hNot : ¬((p.select_node_for_request r inflight adapter_name order).1 = some n ∧
          n.node_id ∉ exclude_nodes) := by
        rintro ⟨hSelect, hOut⟩
        have hSome : (p.select_node_for_request r inflight adapter_name order).1.filter
            (·.node_id ∉ exclude_nodes) = some n :=
          Option.filter_eq_some_iff.mpr ⟨hSelect, decide_eq_true hOut⟩
        cases hFirst.symm.trans hSome
      refine iff_of_false ?_ hNot
      dsimp only
      split <;> rintro ⟨⟩

/-- A first choice that is left out leads to another node being started. -/
theorem found_scale_up (hNamed : r.Named) {max_active_nodes : Nat}
    {exclude_nodes : Finset NodeId}
    (hSelect : (p.select_node_for_request r inflight adapter_name order).1 = some n)
    (hIn : n.node_id ∈ exclude_nodes) (hFew : r.get_active_nodes.length < max_active_nodes) :
    (get_node_for_request p r inflight adapter_name order max_active_nodes exclude_nodes).1 =
      .scale_up (p.get_base_model adapter_name) := by
  have hNone : (some n).filter (·.node_id ∉ exclude_nodes) = none := by
    simp [hIn]
  unfold get_node_for_request
  dsimp only
  rw [select_again hNamed, hSelect, hNone]
  dsimp only
  rw [if_pos hFew]

/-- When some node could serve the request at once, such a node is returned without starting
or awaiting one if and only if the first choice of the policy is one. -/
theorem failover_iff (hNamed : r.Named) (max_active_nodes : Nat)
    (exclude_nodes : Finset NodeId) :
    ((∃ n, Usable p r adapter_name exclude_nodes n) → ∃ n,
        (get_node_for_request p r inflight adapter_name order max_active_nodes
          exclude_nodes).1 = .node n ∧ Usable p r adapter_name exclude_nodes n) ↔
      ((∃ n, Usable p r adapter_name exclude_nodes n) →
        FirstChoiceServes p r inflight adapter_name order exclude_nodes) := by
  constructor
  · intro h hUsable
    obtain ⟨n, hFound, -, hCapacity, hOut⟩ := h hUsable
    exact ⟨n, ((found_node_iff hNamed max_active_nodes exclude_nodes).mp hFound).1, hCapacity,
      hOut⟩
  · intro h hUsable
    obtain ⟨n, hSelect, hCapacity, hOut⟩ := h hUsable
    exact ⟨n, (found_node_iff hNamed max_active_nodes exclude_nodes).mpr ⟨hSelect, hOut⟩,
      suitable_of_select hSelect, hCapacity, hOut⟩

end Selection

/-- A node that runs the base model of all adapters. -/
def llamaNode (node_id : NodeId) (max_workers : Int) (total_requests : Nat) : NodeInfo where
  node_id := node_id
  host := "gpu"
  port := 8100
  status := .active
  base_model := some "llama"
  max_workers := max_workers
  total_requests := total_requests
  last_heartbeat := 0

/-- Two nodes, of which the first may have twice as many workers. -/
def twoNodes (first second : Nat) : ClusterRegistry where
  nodes := (OrderedDict.set ∅ "n1" (llamaNode "n1" 64 first)).set "n2" (llamaNode "n2" 32 second)

def llamaPolicy : PlacementPolicy where
  base_model_for_adapter _ := some "llama"

theorem twoNodes_named (first second : Nat) : (twoNodes first second).Named := by
  intro n node hFind
  simp only [twoNodes, OrderedDict.find_set, OrderedDict.find_empty] at hFind
  split at hFind
  · rename_i hn
    obtain rfl := Option.some.inj hFind
    exact hn.symm
  · split at hFind
    · rename_i hn
      obtain rfl := Option.some.inj hFind
      exact hn.symm
    · cases hFind

/-- The second node can serve whatever has failed on the first one. -/
theorem twoNodes_usable (first second : Nat) :
    Usable llamaPolicy (twoNodes first second) "lora-a" {"n1"} (llamaNode "n2" 32 second) := by
  refine ⟨⟨(OrderedDict.mem_values _ _).mpr ⟨"n2", rfl⟩, rfl, rfl⟩, rfl, ?_⟩
  show "n2" ∉ {"n1"}
  decide

theorem twoNodes_select (first second : Nat) :
    (llamaPolicy.select_node_for_request (twoNodes first second) (fun _ => 0) "lora-a"
      .sorted).1 = if (second / 32 : ℚ) < first / 64 then some (llamaNode "n2" 32 second)
        else some (llamaNode "n1" 64 first) := by
  show List.argmin NodeInfo.requests_per_capacity
    [llamaNode "n1" 64 first, llamaNode "n2" 32 second] = _
  simp [List.argmin, List.argAux, NodeInfo.requests_per_capacity, llamaNode]

/-- After one request that has failed on the first of two fresh nodes, that node is the fuller
one, and the second is found. -/
theorem failover_iff_two_nodes : ∃ n,
    (get_node_for_request llamaPolicy (twoNodes 1 0) (fun _ => 0) "lora-a" .sorted 10
      {"n1"}).1 = .node n ∧ Usable llamaPolicy (twoNodes 1 0) "lora-a" {"n1"} n := by
  have hUsable := twoNodes_usable 1 0
  have hSecond : (llamaPolicy.select_node_for_request (twoNodes 1 0) (fun _ => 0) "lora-a"
      .sorted).1 = some (llamaNode "n2" 32 0) := by
    rw [twoNodes_select]
    norm_num
  exact (failover_iff (twoNodes_named 1 0) 10 {"n1"}).mpr
    (fun _ => ⟨_, hSecond, hUsable.2⟩) ⟨_, hUsable⟩

/-- With one request on each node the bigger one comes first even when it has just failed, and
a third node is started while the second one stands by. -/
theorem failed_node_stays_first :
    (∃ n, Usable llamaPolicy (twoNodes 1 1) "lora-a" {"n1"} n) ∧
      (get_node_for_request llamaPolicy (twoNodes 1 1) (fun _ => 0) "lora-a" .sorted 10
        {"n1"}).1 = .scale_up (some "llama") := by
  have hFirst : (llamaPolicy.select_node_for_request (twoNodes 1 1) (fun _ => 0) "lora-a"
      .sorted).1 = some (llamaNode "n1" 64 1) := by
    rw [twoNodes_select]
    norm_num
  exact ⟨⟨_, twoNodes_usable 1 1⟩, found_scale_up (twoNodes_named 1 1) hFirst (by decide)
    (by decide)⟩

end Cluster
