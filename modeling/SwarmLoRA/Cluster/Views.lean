import SwarmLoRA.Cluster.Global

namespace Cluster

open Data

namespace ClusterRegistry

variable (r : ClusterRegistry) (now : Time) (n m : NodeId)

/-- The status that the registry has for a node. -/
def status : Option NodeStatus := (r.nodes.find n).map (·.status)

/-- The base model that the registry has for a node. -/
def base_model : Option BaseModel := (r.nodes.find n).bind (·.base_model)

@[simp] theorem status_update_node_status (st : NodeStatus) :
    (r.update_node_status now m st).status n =
      if n = m then (r.status n).map fun _ => st else r.status n := by
  simp only [status, update_node_status, OrderedDict.find_modify]
  split
  · rw [Option.map_map, Option.map_map]
    rfl
  · rfl

@[simp] theorem base_model_update_node_status (st : NodeStatus) :
    (r.update_node_status now m st).base_model n = r.base_model n := by
  simp only [base_model, update_node_status, OrderedDict.find_modify]
  split
  · cases r.nodes.find n <;> rfl
  · rfl

@[simp] theorem status_set_node_base_model (model : BaseModel) (id : Option String) :
    (r.set_node_base_model m model id).status n = r.status n := by
  simp only [status, set_node_base_model, OrderedDict.find_modify]
  split
  · rw [Option.map_map]
    rfl
  · rfl

@[simp] theorem base_model_set_node_base_model (model : BaseModel) (id : Option String) :
    (r.set_node_base_model m model id).base_model n =
      if n = m ∧ (r.status n).isSome then some model else r.base_model n := by
  simp only [base_model, status, set_node_base_model, OrderedDict.find_modify]
  by_cases hn : n = m
  · subst hn
    rcases Option.eq_none_or_eq_some (r.nodes.find n) with hFind | ⟨node, hFind⟩
    · simp [hFind]
    · simp [hFind]
  · simp [hn]

@[simp] theorem status_record_request (a : AdapterName) :
    (r.record_request now m a).status n = r.status n := by
  simp only [status, record_request, OrderedDict.find_modify]
  split
  · rw [Option.map_map]
    rfl
  · rfl

@[simp] theorem base_model_record_request (a : AdapterName) :
    (r.record_request now m a).base_model n = r.base_model n := by
  simp only [base_model, record_request, OrderedDict.find_modify]
  split
  · cases r.nodes.find n <;> rfl
  · rfl

/-- A node that is found has a status. -/
theorem status_of_find {r : ClusterRegistry} {n : NodeId} {node : NodeInfo}
    (h : r.nodes.find n = some node) : r.status n = some node.status := by
  unfold status
  rw [h]
  rfl

/-- The status after an update is the new one, or it is that of another node and as it was. -/
theorem status_of_update {r : ClusterRegistry} {now : Time} {n m : NodeId} {st st' : NodeStatus}
    (h : (r.update_node_status now m st).status n = some st') :
    (n = m ∧ (r.status n).isSome ∧ st' = st) ∨ (n ≠ m ∧ r.status n = some st') := by
  rw [status_update_node_status] at h
  split at h
  · rename_i hSame
    obtain ⟨old, hOld, rfl⟩ := Option.map_eq_some_iff.mp h
    rw [hOld]
    exact Or.inl ⟨hSame, rfl, rfl⟩
  · rename_i hOther
    exact Or.inr ⟨hOther, h⟩

variable (order : SetOrder AdapterName)

/-- A heartbeat writes what is reported to the node it is from. -/
theorem find_update_node_heartbeat (report : WorkerReport) :
    (r.update_node_heartbeat order now m report).nodes.find n =
      if n = m then (r.nodes.find n).map (NodeInfo.report now report)
      else r.nodes.find n := by
  cases hFind : r.nodes.find m with
  | none =>
      by_cases hn : n = m
      · subst hn
        simp [update_node_heartbeat, hFind]
      · simp [update_node_heartbeat, hFind, hn]
  | some node =>
      simp only [update_node_heartbeat, hFind, nodes_foldl_add, nodes_foldl_discard,
        OrderedDict.find_modify]

@[simp] theorem status_update_node_heartbeat (report : WorkerReport) :
    (r.update_node_heartbeat order now m report).status n = r.status n := by
  simp only [status, find_update_node_heartbeat]
  split
  · rw [Option.map_map]
    rfl
  · rfl

@[simp] theorem base_model_update_node_heartbeat (report : WorkerReport) :
    (r.update_node_heartbeat order now m report).base_model n = r.base_model n := by
  simp only [base_model, find_update_node_heartbeat]
  split
  · cases r.nodes.find n <;> rfl
  · rfl

@[simp] theorem status_register_node (reg : Registration) :
    (r.register_node now m reg).status n =
      if n = m then some ((r.status n).getD .idle) else r.status n := by
  unfold register_node
  cases hFind : r.nodes.find m with
  | none =>
      simp only [status, OrderedDict.find_set]
      split
      · rename_i hn
        rw [hn, hFind]
        rfl
      · rfl
  | some node =>
      simp only [status, OrderedDict.find_modify]
      split
      · rename_i hn
        rw [hn, hFind]
        rfl
      · rfl

/-- A node that registers keeps its status, and a new node is idle. -/
theorem status_of_register {r : ClusterRegistry} {now : Time} {n m : NodeId} {reg : Registration}
    {st : NodeStatus} (h : (r.register_node now m reg).status n = some st) :
    r.status n = some st ∨ (n = m ∧ r.status n = none ∧ st = .idle) := by
  rw [status_register_node] at h
  split at h
  · rename_i hSame
    cases hOld : r.status n with
    | none =>
        rw [hOld] at h
        exact Or.inr ⟨hSame, rfl, (Option.some.inj h).symm⟩
    | some old =>
        rw [hOld] at h
        exact Or.inl h
  · exact Or.inl h

@[simp] theorem base_model_register_node (reg : Registration) :
    (r.register_node now m reg).base_model n = r.base_model n := by
  unfold register_node
  cases hFind : r.nodes.find m with
  | none =>
      simp only [base_model, OrderedDict.find_set]
      split
      · rename_i hn
        rw [hn, hFind]
        rfl
      · rfl
  | some node =>
      simp only [base_model, OrderedDict.find_modify]
      split
      · cases r.nodes.find n <;> rfl
      · rfl

/-- Only the node that leaves is lost. -/
theorem find_unregister_node :
    (r.unregister_node order m).nodes.find n = if n = m then none else r.nodes.find n := by
  cases hFind : r.nodes.find m with
  | none =>
      by_cases hn : n = m
      · subst hn
        simp [unregister_node, hFind]
      · simp [unregister_node, hFind, hn]
  | some node => simp only [unregister_node, hFind, nodes_foldl_discard, OrderedDict.find_erase]

@[simp] theorem status_unregister_node :
    (r.unregister_node order m).status n = if n = m then none else r.status n := by
  simp only [status, find_unregister_node]
  split <;> rfl

@[simp] theorem base_model_unregister_node :
    (r.unregister_node order m).base_model n = if n = m then none else r.base_model n := by
  simp only [base_model, find_unregister_node]
  split <;> rfl

section Named

variable {r : ClusterRegistry} {r' : ClusterRegistry}

/-- Nodes that stay where they were keep being filed under their ids. -/
theorem Named.of_find (h : r.Named)
    (hFind : ∀ n node', r'.nodes.find n = some node' →
      ∃ node, r.nodes.find n = some node ∧ node'.node_id = node.node_id) : r'.Named := by
  intro n node' hNew
  obtain ⟨node, hOld, hId⟩ := hFind n node' hNew
  exact hId.trans (h n node hOld)

/-- An update that leaves the id alone keeps a node under it. -/
theorem Named.modify (h : r.Named) (m : NodeId) {f : NodeInfo → NodeInfo}
    (hId : ∀ node, (f node).node_id = node.node_id) :
    Named { r with nodes := r.nodes.modify m f } := by
  apply h.of_find
  intro n node' hNew
  simp only [OrderedDict.find_modify] at hNew
  split at hNew
  · obtain ⟨node, hOld, rfl⟩ := Option.map_eq_some_iff.mp hNew
    exact ⟨node, hOld, hId node⟩
  · exact ⟨node', hNew, rfl⟩

/-- Writing a status renames nobody. -/
theorem Named.update_node_status (h : r.Named) (now : Time) (m : NodeId) (st : NodeStatus) :
    (r.update_node_status now m st).Named :=
  h.modify m fun _ => rfl

/-- Nor does writing a base model. -/
theorem Named.set_node_base_model (h : r.Named) (m : NodeId) (model : BaseModel)
    (id : Option String) : (r.set_node_base_model m model id).Named :=
  h.modify m fun _ => rfl

/-- Nor does recording a request. -/
theorem Named.record_request (h : r.Named) (now : Time) (m : NodeId) (a : AdapterName) :
    (r.record_request now m a).Named :=
  h.modify m (f := fun node =>
    { node with last_request_at := now, total_requests := node.total_requests + 1 })
    fun _ => rfl

/-- Nor does a heartbeat. -/
theorem Named.update_node_heartbeat (h : r.Named) (order : SetOrder AdapterName) (now : Time)
    (m : NodeId) (report : WorkerReport) : (r.update_node_heartbeat order now m report).Named := by
  apply h.of_find
  intro n node' hNew
  rw [find_update_node_heartbeat] at hNew
  split at hNew
  · obtain ⟨node, hOld, rfl⟩ := Option.map_eq_some_iff.mp hNew
    exact ⟨node, hOld, rfl⟩
  · exact ⟨node', hNew, rfl⟩

/-- A node is registered under its own id. -/
theorem Named.register_node (h : r.Named) (now : Time) (m : NodeId) (reg : Registration) :
    (r.register_node now m reg).Named := by
  unfold ClusterRegistry.register_node
  split
  · exact h.modify m fun _ => rfl
  · intro n node hNew
    simp only [OrderedDict.find_set] at hNew
    split at hNew
    · rename_i hn
      obtain rfl := Option.some.inj hNew
      exact hn.symm
    · exact h n node hNew

/-- Nobody is renamed by a node that leaves. -/
theorem Named.unregister_node (h : r.Named) (order : SetOrder AdapterName) (m : NodeId) :
    (r.unregister_node order m).Named := by
  apply h.of_find
  intro n node' hNew
  rw [find_unregister_node] at hNew
  split at hNew
  · cases hNew
  · exact ⟨node', hNew, rfl⟩

end Named

section Health

variable (cfg : Global.GlobalControllerConfig) (now : Time)

/-- A node that is marked as failed, and so counts as heard of. -/
def fail (node : NodeInfo) : NodeInfo := { node with status := .failed, last_heartbeat := now }

/-- A node that is marked as failed. -/
theorem find_update_node_status_failed (r : ClusterRegistry) (n m : NodeId) :
    (r.update_node_status now m .failed).nodes.find n =
      if n = m then (r.nodes.find n).map (fail now) else r.nodes.find n := by
  simp only [update_node_status, OrderedDict.find_modify, reduceCtorEq, false_and, if_false]
  rfl

/-- Nodes that are marked as failed one after the other. -/
theorem find_foldl_fail (ids : List NodeId) (r : ClusterRegistry) (n : NodeId) :
    (ids.foldl (fun r m => r.update_node_status now m .failed) r).nodes.find n =
      if n ∈ ids then (r.nodes.find n).map (fail now) else r.nodes.find n := by
  induction ids generalizing r with
  | nil => simp
  | cons m ids ih =>
      rw [List.foldl_cons, ih, find_update_node_status_failed]
      by_cases hn : n = m
      · have hTwice : (fail now) ∘ (fail now) = fail now := rfl
        subst hn
        simp [hTwice]
      · simp [hn]

/-- The node is active or draining, and its last heartbeat is too old. -/
def is_stale (node : NodeInfo) : Bool :=
  (node.status = .active ∨ node.status = .draining) ∧
    cfg.heartbeat_timeout < now - node.last_heartbeat

/-- A pass of the health monitor takes the node back. A node that the pass itself marks as
failed counts as heard of. -/
def is_back (node : NodeInfo) : Bool :=
  is_stale cfg now node ∧ 0 < cfg.heartbeat_timeout ∨
    node.status = .failed ∧ now - node.last_heartbeat < cfg.heartbeat_timeout

/-- The status that a pass of the health monitor leaves a node with. -/
def heal (node : NodeInfo) : NodeStatus :=
  if is_back cfg now node then
    if node.aggregator_pid.isSome then .active else .idle
  else if is_stale cfg now node then .failed
  else node.status

/-- A node is active after the pass if it was before, or if it is back with its process. -/
theorem active_of_heal {node : NodeInfo} (h : heal cfg now node = .active) :
    node.status = .active ∨ is_back cfg now node ∧ node.aggregator_pid.isSome := by
  unfold heal at h
  split at h
  · rename_i hBack
    split at h
    · rename_i hPid
      exact Or.inr ⟨hBack, hPid⟩
    · cases h
  · split at h
    · cases h
    · exact Or.inl h

variable {r : ClusterRegistry}

/-- The stale nodes are found by their ids. -/
theorem mem_stale (h : r.Named) (n : NodeId) {node : NodeInfo}
    (hFind : r.nodes.find n = some node) :
    n ∈ (r.get_stale_nodes now cfg.heartbeat_timeout).map (·.node_id) ↔
      is_stale cfg now node = true := by
  simp only [List.mem_map, get_stale_nodes, List.mem_filter, OrderedDict.mem_values]
  constructor
  · rintro ⟨other, ⟨⟨m, hOther⟩, hStale⟩, hId⟩
    obtain rfl := (h m other hOther).symm.trans hId
    obtain rfl := Option.some.inj (hFind.symm.trans hOther)
    exact hStale
  · intro hStale
    exact ⟨node, ⟨⟨n, hFind⟩, hStale⟩, h n node hFind⟩

/-- A pass of the health monitor changes every node on its own. -/
theorem find_health (h : r.Named) (n : NodeId) :
    (Global.State.recover_failed_nodes cfg now
      (((r.get_stale_nodes now cfg.heartbeat_timeout).map (·.node_id)).foldl
        (fun r m => r.update_node_status now m .failed) r)).nodes.find n =
      (r.nodes.find n).map fun node =>
        { (if is_stale cfg now node then fail now node else node) with
          status := heal cfg now node } := by
  simp only [Global.State.recover_failed_nodes, OrderedDict.find_map, find_foldl_fail]
  rcases Option.eq_none_or_eq_some (r.nodes.find n) with hFind | ⟨node, hFind⟩
  · simp [hFind]
  · simp only [mem_stale cfg now h n hFind]
    cases hStale : is_stale cfg now node with
    | true =>
        by_cases hTimeout : 0 < cfg.heartbeat_timeout
        · simp [hFind, fail, heal, is_back, hStale, hTimeout]
        · have hNotFailed : node.status ≠ .failed := by
            intro hFailed
            simp [is_stale, hFailed] at hStale
          simp [hFind, fail, heal, is_back, hStale, hTimeout, hNotFailed]
    | false =>
        by_cases hBack : node.status = .failed ∧ now - node.last_heartbeat < cfg.heartbeat_timeout
        · simp [hFind, heal, is_back, hStale, hBack]
        · simp [hFind, heal, is_back, hStale, hBack]

/-- The status of a node after a pass. -/
theorem status_health (h : r.Named) (n : NodeId) :
    (Global.State.recover_failed_nodes cfg now
      (((r.get_stale_nodes now cfg.heartbeat_timeout).map (·.node_id)).foldl
        (fun r m => r.update_node_status now m .failed) r)).status n =
      (r.nodes.find n).map (heal cfg now) := by
  unfold status
  rw [find_health cfg now h n, Option.map_map]
  rfl

/-- A pass changes no base model. -/
theorem base_model_health (h : r.Named) (n : NodeId) :
    (Global.State.recover_failed_nodes cfg now
      (((r.get_stale_nodes now cfg.heartbeat_timeout).map (·.node_id)).foldl
        (fun r m => r.update_node_status now m .failed) r)).base_model n = r.base_model n := by
  unfold base_model
  rw [find_health cfg now h n]
  cases r.nodes.find n with
  | none => rfl
  | some node =>
      show NodeInfo.base_model (if is_stale cfg now node then fail now node else node) = _
      split <;> rfl

/-- A pass renames nobody. -/
theorem named_health (h : r.Named) :
    (Global.State.recover_failed_nodes cfg now
      (((r.get_stale_nodes now cfg.heartbeat_timeout).map (·.node_id)).foldl
        (fun r m => r.update_node_status now m .failed) r)).Named := by
  apply h.of_find
  intro n node' hNew
  rw [find_health cfg now h n] at hNew
  obtain ⟨node, hOld, rfl⟩ := Option.map_eq_some_iff.mp hNew
  refine ⟨node, hOld, ?_⟩
  show NodeInfo.node_id (if is_stale cfg now node then fail now node else node) = _
  split <;> rfl

/-- A pass makes no node active but the ones that it takes back. -/
theorem active_of_health (h : r.Named) {n : NodeId}
    (hActive : (Global.State.recover_failed_nodes cfg now
      (((r.get_stale_nodes now cfg.heartbeat_timeout).map (·.node_id)).foldl
        (fun r m => r.update_node_status now m .failed) r)).status n = some .active) :
    r.status n = some .active ∨ ∃ node ∈ r.nodes.values, node.node_id = n ∧
      is_back cfg now node = true ∧ node.aggregator_pid.isSome := by
  rw [status_health cfg now h] at hActive
  obtain ⟨node, hFind, hHeal⟩ := Option.map_eq_some_iff.mp hActive
  rcases active_of_heal cfg now hHeal with hWas | hBack
  · exact Or.inl ((status_of_find hFind).trans (congrArg some hWas))
  · exact Or.inr ⟨node, (r.nodes.mem_values node).mpr ⟨n, hFind⟩, h n node hFind, hBack⟩

end Health

end ClusterRegistry

end Cluster
