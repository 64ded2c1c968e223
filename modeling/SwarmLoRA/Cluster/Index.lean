import Mathlib.Data.String.Basic
import SwarmLoRA.Cluster.Registry
import SwarmLoRA.Machine.System

/-! The three copies that the registry keeps of the relation between nodes and the adapters that
they have loaded: the adapters of a node, the nodes of an adapter and the reverse index. What
the three are copies of is stated on its own, as what the nodes have reported. -/
namespace Cluster

open Data

/-- What every registered node has reported last; nothing at first. -/
abbrev Reports := NodeId → Option (Finset AdapterName)

/-- The calls that write to the registry. -/
inductive Call where
  | register_node (now : Time) (node_id : NodeId) (reg : Registration)
  | unregister_node (order : SetOrder AdapterName) (node_id : NodeId)
  | update_node_status (now : Time) (node_id : NodeId) (status : NodeStatus)
  | update_node_heartbeat (order : SetOrder AdapterName) (now : Time) (node_id : NodeId)
      (report : WorkerReport)
  | update_node_error_state (node_id : NodeId) (circuit_state : String)
  | record_request (now : Time) (node_id : NodeId) (adapter_name : AdapterName)
  | set_node_base_model (node_id : NodeId) (base_model : BaseModel)
      (base_model_id : Option String)
  | register_adapter (adapter_name : AdapterName) (adapter_path : Option String)

def ClusterRegistry.call (r : ClusterRegistry) : Call → ClusterRegistry
  | .register_node now node_id reg => r.register_node now node_id reg
  | .unregister_node order node_id => r.unregister_node order node_id
  | .update_node_status now node_id status => r.update_node_status now node_id status
  | .update_node_heartbeat order now node_id report =>
      r.update_node_heartbeat order now node_id report
  | .update_node_error_state node_id circuit_state =>
      r.update_node_error_state node_id circuit_state
  | .record_request now node_id adapter_name => r.record_request now node_id adapter_name
  | .set_node_base_model node_id base_model base_model_id =>
      r.set_node_base_model node_id base_model base_model_id
  | .register_adapter adapter_name adapter_path => r.register_adapter adapter_name adapter_path

/-- What a call means for the reports. -/
def Reports.call (v : Reports) : Call → Reports
  | .register_node _ node_id _ => Function.update v node_id (some ((v node_id).getD ∅))
  | .unregister_node _ node_id => Function.update v node_id none
  | .update_node_heartbeat _ _ node_id report =>
      Function.update v node_id ((v node_id).map fun _ => report.loaded_adapters.toFinset)
  | _ => v

/-- A registry that starts empty and answers call after call. -/
def registry : Machine.System ClusterRegistry Call where
  initial r := r = {}
  step r c := some (r.call c)

namespace ClusterRegistry

/-- The node is registered with the adapter among its loaded ones. -/
def Loads (r : ClusterRegistry) (n : NodeId) (a : AdapterName) : Prop :=
  ∃ node, r.nodes.find n = some node ∧ a ∈ node.loaded_adapters

/-- The adapter is known and lists the node among those that it is loaded on. -/
def Lists (r : ClusterRegistry) (n : NodeId) (a : AdapterName) : Prop :=
  ∃ info, r.adapters.find a = some info ∧ n ∈ info.loaded_on_nodes

section Mappings

variable (r : ClusterRegistry) (n m : NodeId) (a b : AdapterName)

theorem nodes_foldl_discard (l : List AdapterName) :
    (l.foldl (discard n) r).nodes = r.nodes := by
  induction l generalizing r with
  | nil => rfl
  | cons b l ih => exact ih (discard n r b)

theorem nodes_foldl_add (l : List AdapterName) : (l.foldl (add n) r).nodes = r.nodes := by
  induction l generalizing r with
  | nil => rfl
  | cons b l ih => exact ih (add n r b)

theorem mem_index_discard :
    m ∈ (discard n r b).adapter_to_nodes a ↔
      m ∈ r.adapter_to_nodes a ∧ ¬(m = n ∧ a = b) := by
  by_cases ha : a = b
  · subst ha
    simp only [discard, Function.update_self, Finset.mem_erase, and_true]
    exact and_comm
  · simp [discard, ha]

theorem lists_discard : (discard n r b).Lists m a ↔ r.Lists m a ∧ ¬(m = n ∧ a = b) := by
  by_cases ha : a = b
  · subst ha
    simp only [Lists, discard, OrderedDict.find_modify, if_true, Option.map_eq_some_iff,
      and_true]
    constructor
    · rintro ⟨_, ⟨info, hFind, rfl⟩, hMem⟩
      exact ⟨⟨info, hFind, (Finset.mem_erase.mp hMem).2⟩, (Finset.mem_erase.mp hMem).1⟩
    · rintro ⟨⟨info, hFind, hMem⟩, hne⟩
      exact ⟨_, ⟨info, hFind, rfl⟩, Finset.mem_erase.mpr ⟨hne, hMem⟩⟩
  · simp [Lists, discard, ha]

theorem mem_index_add :
    m ∈ (add n r b).adapter_to_nodes a ↔ m ∈ r.adapter_to_nodes a ∨ m = n ∧ a = b := by
  by_cases ha : a = b
  · subst ha
    simp only [add, Function.update_self, Finset.mem_insert, and_true]
    exact or_comm
  · simp [add, ha]

theorem lists_add : (add n r b).Lists m a ↔ r.Lists m a ∨ m = n ∧ a = b := by
  by_cases ha : a = b
  · subst ha
    cases hFind : r.adapters.find a with
    | none => simp [Lists, add, hFind]
    | some info => simp [Lists, add, hFind, or_comm]
  · simp [Lists, add, ha]

theorem mem_index_foldl_discard (l : List AdapterName) :
    m ∈ (l.foldl (discard n) r).adapter_to_nodes a ↔
      m ∈ r.adapter_to_nodes a ∧ ¬(m = n ∧ a ∈ l) := by
  induction l generalizing r with
  | nil => simp
  | cons b l ih =>
      rw [List.foldl_cons, ih, mem_index_discard, List.mem_cons]
      tauto

theorem lists_foldl_discard (l : List AdapterName) :
    (l.foldl (discard n) r).Lists m a ↔ r.Lists m a ∧ ¬(m = n ∧ a ∈ l) := by
  induction l generalizing r with
  | nil => simp
  | cons b l ih =>
      rw [List.foldl_cons, ih, lists_discard, List.mem_cons]
      tauto

theorem mem_index_foldl_add (l : List AdapterName) :
    m ∈ (l.foldl (add n) r).adapter_to_nodes a ↔
      m ∈ r.adapter_to_nodes a ∨ m = n ∧ a ∈ l := by
  induction l generalizing r with
  | nil => simp
  | cons b l ih =>
      rw [List.foldl_cons, ih, mem_index_add, List.mem_cons]
      tauto

theorem lists_foldl_add (l : List AdapterName) :
    (l.foldl (add n) r).Lists m a ↔ r.Lists m a ∨ m = n ∧ a ∈ l := by
  induction l generalizing r with
  | nil => simp
  | cons b l ih =>
      rw [List.foldl_cons, ih, lists_add, List.mem_cons]
      tauto

end Mappings

/-- Every copy in the registry is a copy of what the nodes have reported: the nodes' own sets, the
reverse index, and the lists of the adapters. -/
structure Represents (r : ClusterRegistry) (v : Reports) : Prop where
  named : ∀ n node, r.nodes.find n = some node → node.node_id = n
  nodes : ∀ n, (r.nodes.find n).map NodeInfo.loaded_adapters = v n
  index : ∀ n a, n ∈ r.adapter_to_nodes a ↔ ∃ s, v n = some s ∧ a ∈ s
  lists : ∀ n a, r.Lists n a ↔ ∃ s, v n = some s ∧ a ∈ s

namespace Represents

variable {r : ClusterRegistry} {v : Reports}

theorem initial : Represents {} fun _ => none where
  named _ _ hFind := by cases hFind
  nodes _ := rfl
  index _ _ := by simp
  lists _ _ := by simp [Lists]

/-- Whatever a call does to the other fields of a node does not matter. -/
theorem modify_node (h : Represents r v) (node_id : NodeId) {f : NodeInfo → NodeInfo}
    (hId : ∀ node, (f node).node_id = node.node_id)
    (hLoaded : ∀ node, (f node).loaded_adapters = node.loaded_adapters) :
    Represents { r with nodes := r.nodes.modify node_id f } v where
  named n node hFind := by
    simp only [OrderedDict.find_modify] at hFind
    split at hFind
    · obtain ⟨old, hOld, rfl⟩ := Option.map_eq_some_iff.mp hFind
      exact (hId old).trans (h.named n old hOld)
    · exact h.named n node hFind
  nodes n := by
    simp only [OrderedDict.find_modify, ← h.nodes n]
    split
    · rw [Option.map_map]
      congr 1
      funext node
      exact hLoaded node
    · rfl
  index := h.index
  lists := h.lists

theorem modify_adapter (h : Represents r v) (adapter_name : AdapterName)
    {f : AdapterInfo → AdapterInfo}
    (hLoaded : ∀ info, (f info).loaded_on_nodes = info.loaded_on_nodes) :
    Represents { r with adapters := r.adapters.modify adapter_name f } v :=
  { h with
    lists := fun n a => by
      rw [← h.lists n a]
      simp only [Lists, OrderedDict.find_modify]
      split
      · simp only [Option.map_eq_some_iff]
        constructor
        · rintro ⟨_, ⟨info, hFind, rfl⟩, hMem⟩
          exact ⟨info, hFind, hLoaded info ▸ hMem⟩
        · rintro ⟨info, hFind, hMem⟩
          exact ⟨f info, ⟨info, hFind, rfl⟩, (hLoaded info).symm ▸ hMem⟩
      · exact Iff.rfl }

theorem register_node (h : Represents r v) (now : Time) (node_id : NodeId)
    (reg : Registration) :
    Represents (r.register_node now node_id reg)
      (v.call (.register_node now node_id reg)) := by
  have hNode := h.nodes node_id
  unfold ClusterRegistry.register_node
  cases hFind : r.nodes.find node_id with
  | some node =>
      have hSame : v.call (.register_node now node_id reg) = v := by
        rw [hFind] at hNode
        simp only [Reports.call, ← hNode, Option.map_some, Option.getD_some]
        exact Function.update_eq_self_iff.mpr hNode
      rw [hSame]
      exact h.modify_node node_id (fun _ => rfl) (fun _ => rfl)
  | none =>
      rw [hFind] at hNode
      have hReports : v.call (.register_node now node_id reg) =
          Function.update v node_id (some ∅) := by
        simp only [Reports.call, ← hNode, Option.map_none, Option.getD_none]
      have hEmpty : ∀ n a, (∃ s, Function.update v node_id (some ∅) n = some s ∧ a ∈ s) ↔
          ∃ s, v n = some s ∧ a ∈ s := by
        intro n a
        by_cases hn : n = node_id
        · subst hn
          simp [← hNode]
        · rw [Function.update_of_ne hn]
      rw [hReports]
      constructor
      · intro n node hNew
        simp only [OrderedDict.find_set] at hNew
        split at hNew
        · rename_i hn
          cases hNew
          exact hn.symm
        · exact h.named n node hNew
      · intro n
        simp only [OrderedDict.find_set, Function.update_apply]
        split
        · rfl
        · exact h.nodes n
      · exact fun n a => (h.index n a).trans (hEmpty n a).symm
      · exact fun n a => (h.lists n a).trans (hEmpty n a).symm

theorem unregister_node (h : Represents r v) (order : SetOrder AdapterName)
    (node_id : NodeId) :
    Represents (r.unregister_node order node_id) (v.call (.unregister_node order node_id)) := by
  have hNode := h.nodes node_id
  unfold ClusterRegistry.unregister_node
  cases hFind : r.nodes.find node_id with
  | none =>
      rw [hFind] at hNode
      have hSame : v.call (.unregister_node order node_id) = v :=
        Function.update_eq_self_iff.mpr hNode
      rw [hSame]
      exact h
  | some node =>
      rw [hFind] at hNode
      have hLeft : ∀ n a, (∃ s, v.call (.unregister_node order node_id) n = some s ∧ a ∈ s) ↔
          (∃ s, v n = some s ∧ a ∈ s) ∧
            ¬(n = node_id ∧ a ∈ order.toList node.loaded_adapters) := by
        intro n a
        by_cases hn : n = node_id
        · subst hn
          simp [Reports.call, ← hNode, order.mem_toList]
        · simp [Reports.call, hn]
      constructor
      · intro n other hOther
        simp only [nodes_foldl_discard, OrderedDict.find_erase] at hOther
        split at hOther
        · cases hOther
        · exact h.named n other hOther
      · intro n
        simp only [nodes_foldl_discard, OrderedDict.find_erase, Reports.call,
          Function.update_apply]
        split
        · rfl
        · exact h.nodes n
      · intro n a
        rw [mem_index_foldl_discard, hLeft]
        exact and_congr_left' (h.index n a)
      · intro n a
        rw [lists_foldl_discard, hLeft]
        exact and_congr_left' (h.lists n a)

/-- What is left of the old reports after both loops, and what has come in, is what the
heartbeat reports. -/
theorem update_node_heartbeat (h : Represents r v) (order : SetOrder AdapterName) (now : Time)
    (node_id : NodeId) (report : WorkerReport) :
    Represents (r.update_node_heartbeat order now node_id report)
      (v.call (.update_node_heartbeat order now node_id report)) := by
  have hNode := h.nodes node_id
  unfold ClusterRegistry.update_node_heartbeat
  cases hFind : r.nodes.find node_id with
  | none =>
      rw [hFind] at hNode
      have hSame : v.call (.update_node_heartbeat order now node_id report) = v := by
        simp only [Reports.call, ← hNode, Option.map_none]
        exact Function.update_eq_self_iff.mpr hNode
      rw [hSame]
      exact h
  | some node =>
      rw [hFind] at hNode
      have hNow : ∀ n a,
          (∃ s, v.call (.update_node_heartbeat order now node_id report) n = some s ∧ a ∈ s) ↔
            ((∃ s, v n = some s ∧ a ∈ s) ∧ ¬(n = node_id ∧
              a ∈ order.toList (node.loaded_adapters \ report.loaded_adapters.toFinset))) ∨
            n = node_id ∧
              a ∈ order.toList (report.loaded_adapters.toFinset \ node.loaded_adapters) := by
        intro n a
        by_cases hn : n = node_id
        · subst hn
          simp only [Reports.call, ← hNode, Option.map_some, Function.update_self,
            Option.some.injEq, exists_eq_left', order.mem_toList, Finset.mem_sdiff, true_and]
          tauto
        · simp [Reports.call, hn]
      constructor
      · intro n other hOther
        simp only [nodes_foldl_add, nodes_foldl_discard, OrderedDict.find_modify] at hOther
        split at hOther
        · obtain ⟨old, hOld, rfl⟩ := Option.map_eq_some_iff.mp hOther
          exact h.named n old hOld
        · exact h.named n other hOther
      · intro n
        simp only [nodes_foldl_add, nodes_foldl_discard, OrderedDict.find_modify, Reports.call,
          Function.update_apply]
        split
        · rename_i hn
          rw [hn, hFind, ← hNode]
          rfl
        · exact h.nodes n
      · intro n a
        rw [mem_index_foldl_add, mem_index_foldl_discard, hNow]
        exact or_congr_left (and_congr_left' (h.index n a))
      · intro n a
        rw [lists_foldl_add, lists_foldl_discard, hNow]
        exact or_congr_left (and_congr_left' (h.lists n a))

theorem register_adapter (h : Represents r v) (adapter_name : AdapterName)
    (adapter_path : Option String) :
    Represents (r.register_adapter adapter_name adapter_path) v := by
  unfold ClusterRegistry.register_adapter
  cases hFind : r.adapters.find adapter_name with
  | some info => exact h.modify_adapter adapter_name (fun _ => rfl)
  | none =>
      refine { h with lists := fun n a => ?_ }
      rw [← h.lists n a]
      by_cases ha : a = adapter_name
      · subst ha
        simp [Lists, hFind]
      · simp [Lists, ha]

/-- Every call does to the registry what it means for the reports. -/
theorem call (h : Represents r v) (c : Call) : Represents (r.call c) (v.call c) := by
  cases c with
  | register_node now node_id reg => exact h.register_node now node_id reg
  | unregister_node order node_id => exact h.unregister_node order node_id
  | update_node_status now node_id status =>
      exact h.modify_node node_id (fun _ => rfl) (fun _ => rfl)
  | update_node_heartbeat order now node_id report =>
      exact h.update_node_heartbeat order now node_id report
  | update_node_error_state node_id circuit_state =>
      exact h.modify_node node_id (fun _ => rfl) (fun _ => rfl)
  | record_request now node_id adapter_name =>
      have hNode := h.modify_node node_id (f := fun node =>
        { node with last_request_at := now, total_requests := node.total_requests + 1 })
        (fun _ => rfl) (fun _ => rfl)
      exact hNode.modify_adapter adapter_name (fun _ => rfl)
  | set_node_base_model node_id base_model base_model_id =>
      exact h.modify_node node_id (fun _ => rfl) (fun _ => rfl)
  | register_adapter adapter_name adapter_path =>
      exact h.register_adapter adapter_name adapter_path

theorem loads (h : Represents r v) (n : NodeId) (a : AdapterName) :
    r.Loads n a ↔ ∃ s, v n = some s ∧ a ∈ s := by
  rw [← h.nodes n]
  simp [Loads]

end Represents

/-- The reports at the end of a sequence of calls are those that the registry holds. -/
theorem represents_of_calls (calls : List Call) :
    Represents (calls.foldl ClusterRegistry.call {})
      (calls.foldl Reports.call fun _ => none) := by
  induction calls using List.reverseRecOn with
  | nil => exact .initial
  | append_singleton calls c ih =>
      rw [List.foldl_append, List.foldl_append]
      exact ih.call c

theorem represents_of_reach {r : ClusterRegistry} (run : registry.Reachable r) :
    ∃ v, Represents r v := by
  apply run.invariant (fun r => ∃ v, Represents r v)
  · rintro _ rfl
    exact ⟨_, .initial⟩
  · rintro r c _ ⟨v, h⟩ _ hStep
    cases hStep
    exact ⟨v.call c, h.call c⟩

theorem mem_get_nodes_for_adapter (r : ClusterRegistry) (order : SetOrder NodeId)
    (a : AdapterName) (node : NodeInfo) :
    node ∈ r.get_nodes_for_adapter order a ↔
      ∃ n, n ∈ r.adapter_to_nodes a ∧ r.nodes.find n = some node ∧ node.status = .active := by
  simp [get_nodes_for_adapter, order.mem_toList, NodeInfo.is_available]

/-- After any sequence of calls the three copies agree for every node and every adapter, and
the nodes that are returned for an adapter are the active ones that have it loaded. -/
theorem index_agrees {r : ClusterRegistry} (run : registry.Reachable r) (n : NodeId)
    (a : AdapterName) :
    (n ∈ r.adapter_to_nodes a ↔ r.Loads n a) ∧ (n ∈ r.adapter_to_nodes a ↔ r.Lists n a) ∧
      ∀ order node, node ∈ r.get_nodes_for_adapter order a ↔
        r.nodes.find node.node_id = some node ∧ node.status = .active ∧
          a ∈ node.loaded_adapters := by
  obtain ⟨v, h⟩ := represents_of_reach run
  refine ⟨(h.index n a).trans (h.loads n a).symm, (h.index n a).trans (h.lists n a).symm, ?_⟩
  intro order node
  rw [mem_get_nodes_for_adapter]
  constructor
  · rintro ⟨m, hIndex, hFind, hActive⟩
    obtain ⟨found, hFound, hLoaded⟩ := (h.loads m a).mpr ((h.index m a).mp hIndex)
    obtain rfl := Option.some.inj (hFound.symm.trans hFind)
    exact ⟨h.named m found hFind ▸ hFind, hActive, hLoaded⟩
  · rintro ⟨hFind, hActive, hLoaded⟩
    exact ⟨_, (h.index _ a).mpr ((h.loads _ a).mp ⟨node, hFind, hLoaded⟩), hFind, hActive⟩

/-- Two heartbeats of a node, the second without one of the adapters of the first. -/
def twoHeartbeats : List Call :=
  [ .register_node 1 "n1" { host := "gpu-1", port := 8100 },
    .update_node_heartbeat .sorted 2 "n1" { loaded_adapters := ["lora-a", "lora-b"] },
    .update_node_status 3 "n1" .active,
    .update_node_heartbeat .sorted 4 "n1" { loaded_adapters := ["lora-b", "lora-c"] } ]

theorem index_agrees_two_heartbeats : ∃ r, registry.Reachable r ∧ ¬r.Loads "n1" "lora-a" ∧
    r.Loads "n1" "lora-b" ∧ r.Lists "n1" "lora-b" ∧
      ∀ node ∈ r.get_nodes_for_adapter .sorted "lora-b", "lora-b" ∈ node.loaded_adapters := by
  have hReplay : registry.replay {} twoHeartbeats =
      some (twoHeartbeats.foldl ClusterRegistry.call {}) := rfl
  have run := Machine.System.reachable_of_replay (.start rfl) hReplay
  obtain ⟨hLost, -, -⟩ := index_agrees run "n1" "lora-a"
  obtain ⟨hLoads, hLists, hActive⟩ := index_agrees run "n1" "lora-b"
  have hGone : "n1" ∉ (twoHeartbeats.foldl call {}).adapter_to_nodes "lora-a" := by
    decide +kernel
  have hThere : "n1" ∈ (twoHeartbeats.foldl call {}).adapter_to_nodes "lora-b" := by
    decide +kernel
  exact ⟨_, run, fun h => hGone (hLost.mpr h), hLoads.mp hThere, hLists.mp hThere,
    fun node hMem => ((hActive .sorted node).mp hMem).2.2⟩

end ClusterRegistry

end Cluster
