import SwarmLoRA.Cluster.Views

namespace Cluster

open Data

namespace Global

open PlacementPolicy

/-- The states differ in nothing but the bookkeeping of requests. Nodes, launches, stops, agents and
what has been selected are as they were. -/
structure Same (s s' : State) : Prop where
  named : s.registry.Named → s'.registry.Named
  status : ∀ n, s'.registry.status n = s.registry.status n
  base_model : ∀ n, s'.registry.base_model n = s.registry.base_model n
  launches : s'.launches = s.launches
  stops : s'.stops = s.stops
  agents : s'.agents = s.agents
  selections : s'.selections = s.selections
  models : s'.policy.base_model_for_adapter = s.policy.base_model_for_adapter
  asked : ∀ (r : RequestId) (req : Request), s.requests[r]? = some req →
    ∃ req' : Request, s'.requests[r]? = some req' ∧ req'.adapter_name = req.adapter_name

namespace Same

variable {s s' s'' : State}

theorem refl (s : State) : Same s s where
  named h := h
  status _ := rfl
  base_model _ := rfl
  launches := rfl
  stops := rfl
  agents := rfl
  selections := rfl
  models := rfl
  asked _ req h := ⟨req, h, rfl⟩

theorem trans (h : Same s s') (h' : Same s' s'') : Same s s'' where
  named hNamed := h'.named (h.named hNamed)
  status n := (h'.status n).trans (h.status n)
  base_model n := (h'.base_model n).trans (h.base_model n)
  launches := h'.launches.trans h.launches
  stops := h'.stops.trans h.stops
  agents := h'.agents.trans h.agents
  selections := h'.selections.trans h.selections
  models := h'.models.trans h.models
  asked r req hReq := by
    obtain ⟨req', hReq', hName⟩ := h.asked r req hReq
    obtain ⟨req'', hReq'', hName'⟩ := h'.asked r req' hReq'
    exact ⟨req'', hReq'', hName'.trans hName⟩

/-- Requests may be changed in everything but their adapters. -/
theorem modify_request (s : State) (r : RequestId) {f : Request → Request}
    (hName : ∀ req, (f req).adapter_name = req.adapter_name) :
    Same s { s with requests := s.requests.modify r f } :=
  { refl s with
    asked := by
      intro k req hReq
      show ∃ req', (s.requests.modify r f)[k]? = some req' ∧ _
      rw [List.getElem?_modify, hReq]
      by_cases hk : r = k
      · exact ⟨f req, by simp [hk], hName req⟩
      · exact ⟨req, by simp [hk], rfl⟩ }

theorem set_pc (s : State) (r : RequestId) (pc : RequestPc) : Same s (s.set_pc r pc) :=
  modify_request s r fun _ => rfl

theorem finish (s : State) (r : RequestId) : Same s (s.finish r) :=
  { set_pc s r .ended with }

theorem await_node (s : State) (r : RequestId) (left : Nat) : Same s (s.await_node r left) := by
  unfold State.await_node
  split
  · exact finish s r
  · exact set_pc s r _

end Same

/-- The request gets the node, as far as anything but bookkeeping is concerned. -/
def State.select (s : State) (adapter_name : AdapterName) (node_id : NodeId) : State :=
  { s with
    selections := s.selections ++
      [{ adapter_name := adapter_name
         node_id := node_id
         aggregator := (s.agents node_id).aggregator
         stopping := s.stopping node_id }] }

theorem Same.select {s s' : State} (h : Same s s') (a : AdapterName) (n : NodeId) :
    Same (s.select a n) (s'.select a n) :=
  { h with
    selections := by
      unfold State.select State.stopping
      rw [h.selections, h.agents, h.stops] }

/-- A new request changes nothing for the others. -/
theorem Same.add_request (s : State) (count : Nat) (req : Request) :
    Same s { s with pending_requests := count, requests := s.requests ++ [req] } :=
  { Same.refl s with
    asked := by
      intro r old hOld
      have hBound : r < s.requests.length := (List.getElem?_eq_some_iff.mp hOld).1
      exact ⟨old, (List.getElem?_append_left hBound).trans hOld, rfl⟩ }

theorem same_forward (s : State) (now : Time) (r : RequestId) (a : AdapterName) (n : NodeId) :
    Same (s.select a n) (s.forward now r a n) where
  named h := h.record_request now n a
  status m := s.registry.status_record_request now m n a
  base_model m := s.registry.base_model_record_request now m n a
  launches := rfl
  stops := rfl
  agents := rfl
  selections := rfl
  models := rfl
  asked := (Same.modify_request s r (f := fun req =>
    { req with tried_nodes := insert n req.tried_nodes, pc := .forwarding n })
    fun _ => rfl).asked

section Policies

variable (p : PlacementPolicy) (r : ClusterRegistry) (inflight : Inflight) (a : AdapterName)
  (order : SetOrder NodeId)

/-- A selection changes nothing of a policy but what it remembers. -/
theorem stats_select : ∃ stats,
    (p.select_node_for_request r inflight a order).2 = { p with adapter_stats := stats } := by
  unfold select_node_for_request
  split
  · exact ⟨_, rfl⟩
  · exact ⟨_, rfl⟩
  · split
    · exact ⟨_, rfl⟩
    · exact ⟨_, rfl⟩
  · exact ⟨_, rfl⟩
  · exact ⟨_, rfl⟩

theorem stats_get_node (max_active_nodes : Nat) (tried_nodes : Finset NodeId) : ∃ stats,
    (get_node_for_request p r inflight a order max_active_nodes tried_nodes).2 =
      { p with adapter_stats := stats } := by
  obtain ⟨first, hFirst⟩ := stats_select p r inflight a order
  obtain ⟨again, hAgain⟩ := stats_select { p with adapter_stats := first } r inflight a order
  unfold get_node_for_request
  dsimp only
  split
  · exact ⟨first, hFirst⟩
  · rw [hFirst]
    split
    · exact ⟨again, hAgain⟩
    · split
      · exact ⟨again, hAgain⟩
      · exact ⟨again, hAgain⟩

variable {p r inflight a order}

theorem scale_up_of_found {max_active_nodes : Nat} {tried_nodes : Finset NodeId}
    {base_model : Option BaseModel}
    (h : (get_node_for_request p r inflight a order max_active_nodes tried_nodes).1 =
      .scale_up base_model) :
    base_model = p.get_base_model a ∧ r.get_active_nodes.length < max_active_nodes := by
  unfold get_node_for_request at h
  dsimp only at h
  split at h
  · cases h
  · split at h
    · cases h
    · split at h
      · rename_i hFew
        cases h
        exact ⟨rfl, hFew⟩
      · cases h

/-- Only idle nodes are started. -/
theorem idle_of_scale_up {base_model : Option BaseModel} {n : NodeInfo}
    (h : p.select_node_for_scale_up r base_model = .ok (some n)) :
    n ∈ r.nodes.values ∧ n.status = .idle := by
  have hAny : r.get_any_idle_node = some n → n ∈ r.nodes.values ∧ n.status = .idle := by
    intro hHead
    obtain ⟨hMem, hIdle⟩ := List.mem_filter.mp (List.mem_of_mem_head? hHead)
    exact ⟨hMem, of_decide_eq_true hIdle⟩
  have hIdle : idle_node r base_model = some n → n ∈ r.nodes.values ∧ n.status = .idle := by
    intro hNode
    unfold idle_node at hNode
    split at hNode
    · rcases Option.or_eq_some_iff.mp hNode with hHead | ⟨-, hHead⟩
      · obtain ⟨hMem, hBoth⟩ := List.mem_filter.mp (List.mem_of_mem_head? hHead)
        exact ⟨hMem, (of_decide_eq_true hBoth).2⟩
      · exact hAny hHead
    · exact hAny hNode
  unfold select_node_for_scale_up at h
  split at h
  · dsimp only at h
    split at h
    · cases h
    · split at h
      · cases h
      · exact hIdle (Except.ok.inj h)
  · exact hIdle (Except.ok.inj h)

end Policies

theorem status_of_registered {r : ClusterRegistry} (hNamed : r.Named) {n : NodeInfo}
    (hMem : n ∈ r.nodes.values) :
    r.status n.node_id = some n.status ∧ r.base_model n.node_id = n.base_model := by
  obtain ⟨m, hFind⟩ := (r.nodes.mem_values n).mp hMem
  obtain rfl := hNamed m n hFind
  refine ⟨ClusterRegistry.status_of_find hFind, ?_⟩
  unfold ClusterRegistry.base_model
  rw [hFind]
  rfl

/-- The node may be given to a request for the adapter: it is active and has its base model. -/
def State.Serves (s : State) (adapter_name : AdapterName) (n : NodeId) : Prop :=
  s.registry.status n = some .active ∧
    ∀ model, s.policy.get_base_model adapter_name = some model →
      s.registry.base_model n = some model

theorem serves_of_select {s : State} (hNamed : s.registry.Named) {a : AdapterName}
    {order : SetOrder NodeId} {n : NodeInfo}
    (h : (s.policy.select_node_for_request s.registry s.inflight_per_node a order).1 =
      some n) : s.Serves a n.node_id := by
  obtain ⟨hMem, hActive, hFits⟩ := suitable_of_select h
  obtain ⟨hStatus, hBase⟩ := status_of_registered hNamed hMem
  refine ⟨hStatus.trans (congrArg some hActive), ?_⟩
  intro model hModel
  rw [hModel] at hFits
  exact hBase.trans (of_decide_eq_true hFits)

/-- The idle node that a launch with the base model would take. -/
def State.launch_choice (s : State) (base_model : Option BaseModel) : Option NodeId :=
  match s.policy.select_node_for_scale_up s.registry base_model with
  | .ok (some n) => some n.node_id
  | _ => none

theorem idle_of_launch_choice {s : State} (hNamed : s.registry.Named)
    {base_model : Option BaseModel} {n : NodeId} (h : s.launch_choice base_model = some n) :
    s.registry.status n = some .idle := by
  unfold State.launch_choice at h
  split at h
  · rename_i node hNode
    obtain rfl := Option.some.inj h
    obtain ⟨hMem, hIdle⟩ := idle_of_scale_up hNode
    exact (status_of_registered hNamed hMem).1.trans (congrArg some hIdle)
  · cases h

/-- The launch that looking for a node for the request leads to, if it does. -/
def State.seek_launch (cfg : GlobalControllerConfig) (s : State) (order : SetOrder NodeId)
    (adapter_name : AdapterName) (tried_nodes : Finset NodeId) :
    Option (NodeId × Option BaseModel) :=
  match (get_node_for_request s.policy s.registry s.inflight_per_node adapter_name order
      cfg.max_active_nodes tried_nodes).1 with
  | .scale_up base_model => (s.launch_choice base_model).map fun n => (n, base_model)
  | _ => none

section Stretches

variable (cfg : GlobalControllerConfig) (now : Time) (s : State)

/-- What a call of `_scale_up_node` comes to. -/
theorem scale_up_cases (base_model : Option BaseModel) (caller : Caller) :
    (∃ n, s.launch_choice base_model = some n ∧ s.scale_up cfg now base_model caller =
        .ok (some (s.launch cfg now base_model caller n))) ∨
      ∀ s', s.scale_up cfg now base_model caller ≠ .ok (some s') := by
  unfold State.scale_up State.launch_choice
  cases h : s.policy.select_node_for_scale_up s.registry base_model with
  | error e =>
      right
      rintro s' ⟨⟩
  | ok node =>
      cases node with
      | none =>
          right
          rintro s' ⟨⟩
      | some n => exact Or.inl ⟨n.node_id, rfl, rfl⟩

variable {s}

/-- Looking for a node ends with an active node, with a launch on an idle one, or with waiting
or giving up. -/
theorem seek_cases (hNamed : s.registry.Named) (order : SetOrder NodeId) (r : RequestId)
    (a : AdapterName) (tried_nodes : Finset NodeId) :
    (∃ n, s.Serves a n ∧ Same (s.select a n) (s.seek cfg now order r a tried_nodes)) ∨
    (∃ n, s.seek_launch cfg order a tried_nodes = some (n, s.policy.get_base_model a) ∧
      s.registry.status n = some .idle ∧
      s.registry.get_active_nodes.length < cfg.max_active_nodes ∧
      Same (s.launch cfg now (s.policy.get_base_model a) (.request r) n)
        (s.seek cfg now order r a tried_nodes)) ∨
    Same s (s.seek cfg now order r a tried_nodes) := by
  obtain ⟨stats, hStats⟩ := stats_get_node s.policy s.registry s.inflight_per_node a order
    cfg.max_active_nodes tried_nodes
  have hPolicy : Same s { s with policy := { s.policy with adapter_stats := stats } } :=
    { Same.refl s with }
  unfold State.seek State.seek_launch
  dsimp only
  rw [hStats]
  cases hNode : (get_node_for_request s.policy s.registry s.inflight_per_node a order
      cfg.max_active_nodes tried_nodes).1 with
  | node n =>
      have hSelect := ((found_node_iff hNamed cfg.max_active_nodes tried_nodes).mp hNode).1
      have hForward := same_forward { s with policy := { s.policy with adapter_stats := stats } }
        now r a n.node_id
      exact Or.inl ⟨n.node_id, serves_of_select hNamed hSelect, { hForward with }⟩
  | wait => exact Or.inr (Or.inr (hPolicy.trans (Same.await_node _ r _)))
  | scale_up base_model =>
      obtain ⟨rfl, hFew⟩ := scale_up_of_found hNode
      have hCases := scale_up_cases cfg now
        { s with policy := { s.policy with adapter_stats := stats } }
        (s.policy.get_base_model a) (.request r)
      rcases hCases with ⟨n, hChoice, hLaunch⟩ | hNone
      · have hHere : s.launch_choice (s.policy.get_base_model a) = some n := hChoice
        refine Or.inr (Or.inl ⟨n, ?_, idle_of_launch_choice hNamed hHere, hFew, ?_⟩)
        · simp only [hHere, Option.map_some]
        · dsimp only
          rw [hLaunch]
          exact { Same.set_pc (s.launch cfg now (s.policy.get_base_model a) (.request r) n) r _
            with }
      · refine Or.inr (Or.inr ?_)
        dsimp only
        split
        · rename_i s' hSome
          exact (hNone s' hSome).elim
        · exact hPolicy.trans (Same.await_node _ r _)
        · exact hPolicy.trans (Same.finish _ r)

/-- A poll ends with an active node or with more waiting. -/
theorem poll_cases (hNamed : s.registry.Named) (order : SetOrder NodeId) (r : RequestId)
    (req : Request) (left : Nat) :
    (∃ n, s.Serves req.adapter_name n ∧
      Same (s.select req.adapter_name n) (s.poll now order r req left)) ∨
    Same s (s.poll now order r req left) := by
  obtain ⟨stats, hStats⟩ := stats_select s.policy s.registry s.inflight_per_node
    req.adapter_name order
  have hPolicy : Same s { s with policy := { s.policy with adapter_stats := stats } } :=
    { Same.refl s with }
  unfold State.poll
  dsimp only
  rw [hStats]
  split
  · rename_i n hNode
    have hSelect := (Option.filter_eq_some_iff.mp hNode).1
    have hForward := same_forward { s with policy := { s.policy with adapter_stats := stats } }
      now r req.adapter_name n.node_id
    exact Or.inl ⟨n.node_id, serves_of_select hNamed hSelect, { hForward with }⟩
  · exact Or.inr (hPolicy.trans (Same.await_node _ r _))

/-- The controller takes the answer to a launch call, or the lack of one. -/
def State.end_launch (s : State) (i : Nat) (l : Launch) (success : Bool) : State :=
  { s with
    launches := s.launches.set i { l with awaited := false }
    registry := s.registry.update_node_status now l.node_id
      (if success then .active else .failed) }

/-- What follows a launch starts from the state at its end. -/
theorem launch_returned_eq (i : Nat) (l : Launch) (success : Bool) :
    s.launch_returned cfg now i l success =
      match l.caller with
      | .request r =>
          match s.requests[r]? with
          | some req =>
              if success ∧ ((s.end_launch now i l success).registry.get_node l.node_id).isSome ∧
                  l.node_id ∉ req.tried_nodes then
                (s.end_launch now i l success).forward now r req.adapter_name l.node_id
              else (s.end_launch now i l success).await_node r cfg.wait_iters
          | none => s.end_launch now i l success
      | .scaler | .manual => s.end_launch now i l success := rfl

/-- When a launch call has returned, its node goes to the request that has called it, if there
is one, or the request waits. -/
theorem launch_returned_cases (i : Nat) (l : Launch) (success : Bool) :
    (∃ r req, success = true ∧ l.caller = .request r ∧ s.requests[r]? = some req ∧
      Same ((s.end_launch now i l success).select req.adapter_name l.node_id)
        (s.launch_returned cfg now i l success)) ∨
    Same (s.end_launch now i l success) (s.launch_returned cfg now i l success) := by
  rw [launch_returned_eq]
  cases hCaller : l.caller with
  | request r =>
      dsimp only
      split
      · rename_i req hReq
        split
        · rename_i hUsed
          exact Or.inl ⟨r, req, hUsed.1, rfl, hReq,
            same_forward _ now r req.adapter_name l.node_id⟩
        · exact Or.inr (Same.await_node _ r _)
      · exact Or.inr (Same.refl _)
  | scaler => exact Or.inr (Same.refl _)
  | manual => exact Or.inr (Same.refl _)

/-- The first of the nodes that is registered. -/
def State.first_registered (s : State) (nodes : List NodeId) : Option NodeId :=
  nodes.find? fun n => (s.registry.status n).isSome

/-- The loop over the nodes to stop begins at most one stop call. -/
theorem scale_downs_cases (nodes : List NodeId) :
    (∃ n, s.first_registered nodes = some n ∧
      Same (s.scale_down now true n) (s.scale_downs now nodes)) ∨
    Same s (s.scale_downs now nodes) := by
  induction nodes with
  | nil => exact Or.inr { Same.refl s with }
  | cons n rest ih =>
      have hRegistered : (s.registry.status n).isSome = (s.registry.get_node n).isSome :=
        Option.isSome_map
      unfold State.scale_downs State.first_registered
      rw [List.find?_cons, hRegistered]
      cases (s.registry.get_node n).isSome with
      | true => exact Or.inl ⟨n, rfl, { Same.refl (s.scale_down now true n) with }⟩
      | false => exact ih

end Stretches

end Global

end Cluster
