import SwarmLoRA.Cluster.Failover

namespace Cluster

open Data PlacementPolicy

structure Placement where
  registry : ClusterRegistry
  policy : PlacementPolicy

/-- A call that writes to the registry, or a selection. -/
inductive PlacementLabel where
  | call (c : Call)
  | select (order : SetOrder NodeId) (inflight : Inflight) (adapter_name : AdapterName)

/-- Starts with an empty registry and a policy, of any kind, that remembers nothing yet. -/
def placement : Machine.System Placement PlacementLabel where
  initial s := s.registry = {} ∧ s.policy.adapter_stats = fun _ => {}
  step s
    | .call c => some { s with registry := s.registry.call c }
    | .select order inflight adapter_name =>
        some { s with
          policy :=
            (s.policy.select_node_for_request s.registry inflight adapter_name order).2 }

/-- A request for the adapter could go to the node: it is active, and it runs the base model of
the adapter if that is known. -/
structure Eligible (p : PlacementPolicy) (adapter_name : AdapterName) (n : NodeInfo) : Prop where
  active : n.status = .active
  base_model : ∀ model, p.get_base_model adapter_name = some model → n.base_model = some model

/-- What a selection may be: a registered node that is eligible, or none if no eligible node has
room. -/
structure Selected (p : PlacementPolicy) (r : ClusterRegistry) (adapter_name : AdapterName)
    (selection : Option NodeInfo) : Prop where
  sound : ∀ n, selection = some n →
    r.get_node n.node_id = some n ∧ Eligible p adapter_name n
  complete : selection = none → ∀ node_id n, r.get_node node_id = some n →
    Eligible p adapter_name n → n.has_capacity = false

section Complete

variable {p : PlacementPolicy} {r : ClusterRegistry} {inflight : Inflight}
  {adapter_name : AdapterName} {order : SetOrder NodeId} {n : NodeInfo}

theorem eligible_of_suitable (h : Suitable p r adapter_name n) : Eligible p adapter_name n := by
  refine ⟨h.active, ?_⟩
  intro model hModel
  have hFits := h.fits
  rw [hModel] at hFits
  exact of_decide_eq_true hFits

theorem suitable_of_eligible (hMem : n ∈ r.nodes.values) (h : Eligible p adapter_name n) :
    Suitable p r adapter_name n := by
  refine ⟨hMem, h.active, ?_⟩
  cases hModel : p.get_base_model adapter_name with
  | none => rfl
  | some model => exact decide_eq_true (h.base_model model hModel)

theorem mem_active (h : Suitable p r adapter_name n) :
    n ∈ p.filter_by_base_model r.get_active_nodes adapter_name :=
  mem_filter_by_base_model.mpr
    ⟨List.mem_filter.mpr ⟨h.registered, decide_eq_true h.active⟩, h.fits⟩

theorem affinity_some (h : Suitable p r adapter_name n) :
    p.affinity_select r adapter_name ≠ none := by
  intro hNone
  have hMem := mem_active h
  rw [List.argmin_eq_none.mp hNone] at hMem
  cases hMem

theorem least_loaded_some (h : Suitable p r adapter_name n) (hCapacity : n.has_capacity = true) :
    p.least_loaded_select r inflight adapter_name ≠ none := by
  intro hNone
  have hFits := h.fits
  unfold least_loaded_select at hNone
  cases hModel : p.get_base_model adapter_name with
  | some model =>
      rw [hModel] at hNone hFits
      have hMem : n ∈ r.get_nodes_for_base_model_with_capacity model :=
        List.mem_filter.mpr
          ⟨h.registered, decide_eq_true ⟨of_decide_eq_true hFits, h.active, hCapacity⟩⟩
      rw [List.argmin_eq_none.mp hNone] at hMem
      cases hMem
  | none =>
      rw [hModel] at hNone
      have hMem : n ∈ r.nodes.values.filter (·.is_available) :=
        List.mem_filter.mpr ⟨h.registered, decide_eq_true h.active⟩
      rw [List.argmin_eq_none.mp hNone] at hMem
      cases hMem

/-- The third priority is any node with room. -/
theorem locality_some (h : Suitable p r adapter_name n) (hCapacity : n.has_capacity = true) :
    p.locality_select r inflight adapter_name order ≠ none := by
  intro hNone
  simp only [locality_select, Option.or_eq_none_iff] at hNone
  have hMem : n ∈ p.filter_by_base_model r.get_nodes_with_capacity adapter_name :=
    mem_filter_by_base_model.mpr
      ⟨List.mem_filter.mpr
        ⟨h.registered, Bool.and_eq_true_iff.mpr ⟨decide_eq_true h.active, hCapacity⟩⟩, h.fits⟩
  rw [List.argmin_eq_none.mp hNone.2.2] at hMem
  cases hMem

theorem gpu_aware_some {preferred_gpus : List String} (h : Suitable p r adapter_name n) :
    p.gpu_aware_select r inflight adapter_name preferred_gpus ≠ none := by
  intro hNone
  exact affinity_some h (Option.or_eq_none_iff.mp hNone).2

/-- The third pass takes any node with room. -/
theorem binpack_some {target_utilization : ℚ} (h : Suitable p r adapter_name n)
    (hCapacity : n.has_capacity = true) :
    p.binpack_select r inflight adapter_name target_utilization ≠ none := by
  intro hNone
  simp only [binpack_select, Option.or_eq_none_iff] at hNone
  have hMem := (List.mem_insertionSort fun n m : NodeInfo =>
    m.effective_load inflight ≤ n.effective_load inflight).mpr (mem_active h)
  exact List.find?_eq_none.mp hNone.2.2 n hMem hCapacity

theorem select_some (h : Suitable p r adapter_name n) (hCapacity : n.has_capacity = true) :
    (p.select_node_for_request r inflight adapter_name order).1 ≠ none := by
  unfold select_node_for_request
  split
  · exact affinity_some h
  · exact least_loaded_some h hCapacity
  · have hSome : p.locality_select r inflight adapter_name order ≠ none :=
      locality_some h hCapacity
    split
    · rintro ⟨⟩
    · rename_i hNone
      exact (hSome hNone).elim
  · exact gpu_aware_some h
  · exact binpack_some h hCapacity

theorem selected_of_named (hNamed : r.Named) :
    Selected p r adapter_name
      (p.select_node_for_request r inflight adapter_name order).1 where
  sound := by
    intro n hSelect
    have hSuitable := suitable_of_select hSelect
    obtain ⟨node_id, hFind⟩ := (r.nodes.mem_values n).mp hSuitable.registered
    obtain rfl := hNamed node_id n hFind
    exact ⟨hFind, eligible_of_suitable hSuitable⟩
  complete := by
    intro hNone node_id n hFind hEligible
    have hMem := (r.nodes.mem_values n).mpr ⟨node_id, hFind⟩
    apply Bool.eq_false_iff.mpr
    intro hCapacity
    exact select_some (suitable_of_eligible hMem hEligible) hCapacity hNone

end Complete

namespace Placement

/-- The registry of a reachable state is one that its calls alone lead to. -/
theorem registry_of_reach {s : Placement} (run : placement.Reachable s) :
    Cluster.registry.Reachable s.registry := by
  apply run.invariant fun s => Cluster.registry.Reachable s.registry
  · intro s hInitial
    exact .start hInitial.1
  · intro s l s' hPrior _ hStep
    cases l with
    | call c =>
        cases hStep
        exact .next hPrior trivial rfl
    | select order inflight adapter_name =>
        cases hStep
        exact hPrior

/-- After any calls and any earlier selections, every policy selects an eligible node, and
nothing only if no eligible node has room. -/
theorem selected_of_reach {s : Placement} (run : placement.Reachable s) (inflight : Inflight)
    (adapter_name : AdapterName) (order : SetOrder NodeId) :
    Selected s.policy s.registry adapter_name
      (s.policy.select_node_for_request s.registry inflight adapter_name order).1 :=
  selected_of_named (ClusterRegistry.named_of_reach (registry_of_reach run))

/-- A node goes into service, gets a request for an adapter and is drained. -/
def drained : List PlacementLabel :=
  [ .call (.register_node 1 "n1" { host := "gpu-1", port := 8100 }),
    .call (.update_node_status 2 "n1" .active),
    .select .sorted (fun _ => 0) "lora-a",
    .call (.update_node_status 3 "n1" .draining) ]

/-- The locality policy remembers the node and selects it no more. -/
theorem selected_of_drained : ∃ s, placement.Reachable s ∧
    (s.policy.adapter_stats "lora-a").last_node_id = some "n1" ∧
      (s.policy.select_node_for_request s.registry (fun _ => 0) "lora-a" .sorted).1 = none := by
  have hRun : (placement.replay ⟨{}, { kind := .locality }⟩ drained).map (fun s =>
      ((s.policy.adapter_stats "lora-a").last_node_id, s.registry.nodes.keys,
        (s.registry.get_node "n1").map (·.status))) =
      some (some "n1", ["n1"], some .draining) := by
    decide +kernel
  obtain ⟨s, hReplay, hEnd⟩ := Option.map_eq_some_iff.mp hRun
  simp only [Prod.mk.injEq] at hEnd
  obtain ⟨hLast, hKeys, hStatus⟩ := hEnd
  have run := Machine.System.reachable_of_replay
    (M := placement) (.start (And.intro rfl rfl)) hReplay
  refine ⟨s, run, hLast, ?_⟩
  apply Option.eq_none_iff_forall_ne_some.mpr
  intro n hSelect
  obtain ⟨hFind, hEligible⟩ := (selected_of_reach run (fun _ => 0) "lora-a" .sorted).sound n hSelect
  have hMem : n.node_id ∈ s.registry.nodes.keys :=
    (s.registry.nodes.mem_keys n.node_id).mpr (Option.isSome_of_eq_some hFind)
  rw [hKeys, List.mem_singleton] at hMem
  rw [hMem] at hFind
  rw [hFind, Option.map_some, hEligible.active] at hStatus
  cases hStatus

end Placement

end Cluster
