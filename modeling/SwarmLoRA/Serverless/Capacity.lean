import Mathlib.Algebra.Order.BigOperators.Group.List
import SwarmLoRA.Serverless.Preload

namespace Serverless

open Machine

/-- The memory that decisions take at a place. -/
def decided_mb (registry : Registry) (target : PreloadTarget) (decisions : List PreloadDecision) :
    ℚ :=
  ((decisions.filter (·.target_location = target)).map fun d =>
    ((registry.get_artifact d.artifact_id).map (·.get_effective_size target)).getD 0).sum

/-- What is used and what is pending fits every node, and no node gets an artifact twice. -/
def WithinLimits (registry : Registry) (scheduler : PreloadScheduler) : Prop :=
  ∀ node ∈ registry.nodes,
    (∀ target, node.memory_used_mb target +
        decided_mb registry target (scheduler.pending_decisions node.node_id) ≤
      node.memory_mb target) ∧
    ((scheduler.pending_decisions node.node_id).map (·.artifact_id)).Nodup

section Decided

variable {registry : Registry} {target : PreloadTarget} {decisions : List PreloadDecision}

theorem decided_mb_append (decisions' : List PreloadDecision) :
    decided_mb registry target (decisions ++ decisions') =
      decided_mb registry target decisions + decided_mb registry target decisions' := by
  simp [decided_mb]

theorem decided_mb_of_none (hNone : ∀ d ∈ decisions, d.target_location ≠ target) :
    decided_mb registry target decisions = 0 := by
  have hNil : decisions.filter (·.target_location = target) = [] :=
    List.filter_eq_nil_iff.mpr fun d hMem => by simpa using hNone d hMem
  unfold decided_mb
  rw [hNil]
  rfl

theorem decided_mb_singleton {d : PreloadDecision} {artifact : Artifact}
    (hMem : artifact ∈ registry.artifacts) (hArtifact : d.artifact_id = artifact.artifact_id) :
    decided_mb registry target [d] =
      if d.target_location = target then artifact.get_effective_size target else 0 := by
  split
  · rename_i hTarget
    simp [decided_mb, hTarget, hArtifact, Registry.get_artifact_of_mem hMem]
  · rename_i hTarget
    exact decided_mb_of_none (by simpa using hTarget)

theorem decided_mb_sublist {decisions' : List PreloadDecision}
    (hSub : decisions'.Sublist decisions) :
    decided_mb registry target decisions' ≤ decided_mb registry target decisions := by
  unfold decided_mb
  refine List.Sublist.sum_le_sum ((hSub.filter _).map _) fun x hMem => ?_
  obtain ⟨d, -, rfl⟩ := List.mem_map.mp hMem
  cases registry.get_artifact d.artifact_id with
  | none => exact le_refl 0
  | some artifact => exact artifact.get_effective_size_nonneg target

end Decided

section Round

variable {registry : Registry} {value_density_threshold : ℚ} {view : View}
  {scheduler : PreloadScheduler}

/-- What holds while a round makes its decisions: the tally is what was used before and what has
been decided, it keeps the limits, and nothing is decided twice for a node. -/
structure Decided (registry : Registry) (view : View) (tally : Tally) : Prop where
  allocated : ∀ target node_id, tally.allocated target node_id =
    initial_allocation registry view target node_id +
      decided_mb registry target (tally.decisions.filter (·.target_node_id = node_id))
  fits : ∀ d ∈ tally.decisions, ∀ node, registry.get_node d.target_node_id = some node →
    tally.allocated d.target_location d.target_node_id ≤ node.memory_mb d.target_location
  once : ∀ node_id,
    ((tally.decisions.filter (·.target_node_id = node_id)).map (·.artifact_id)).Nodup

theorem Decided.place {tally : Tally} {c : Candidate} (h : Decided registry view tally)
    (hArtifact : c.artifact ∈ registry.artifacts) :
    Decided registry view (place registry view scheduler tally c) := by
  obtain hSame | ⟨node, d, hNode, -, hId, hNodeId, hTarget, -, hNew, hRoom, hPlace⟩ :=
    @place_cases registry view scheduler tally c
  · rwa [hSame]
  rw [hPlace]
  have hSize (target : PreloadTarget) : decided_mb registry target [d] =
      if d.target_location = target then c.artifact.get_effective_size target else 0 :=
    decided_mb_singleton hArtifact hId
  refine ⟨?_, ?_, ?_⟩
  · intro target node_id
    have hOld := h.allocated target node_id
    by_cases hHere : node_id = c.node_id
    · subst hHere
      have hFilter : (tally.decisions ++ [d]).filter (·.target_node_id = c.node_id) =
          tally.decisions.filter (·.target_node_id = c.node_id) ++ [d] := by
        simp [hNodeId]
      rw [hFilter, decided_mb_append, hSize, hTarget]
      by_cases hPlace : target = c.target
      · subst hPlace
        simp [hOld, add_assoc]
      · simp [hPlace, hOld, Ne.symm hPlace]
    · have hFilter : (tally.decisions ++ [d]).filter (·.target_node_id = node_id) =
          tally.decisions.filter (·.target_node_id = node_id) := by
        simp [hNodeId, Ne.symm hHere]
      rw [hFilter, ← hOld]
      by_cases hPlace : target = c.target
      · subst hPlace
        simp [hHere]
      · simp [hPlace]
  · intro d' hd' node' hNode'
    by_cases hSame : d'.target_location = c.target ∧ d'.target_node_id = c.node_id
    · obtain ⟨hLocation, hHere⟩ := hSame
      rw [hHere, hNode, Option.some.injEq] at hNode'
      subst hNode'
      simpa [hLocation, hHere] using hRoom
    · rcases List.mem_append.mp hd' with hOld | hLast
      · have hKept : Function.update tally.allocated c.target
            (Function.update (tally.allocated c.target) c.node_id
              (tally.allocated c.target c.node_id + c.artifact.get_effective_size c.target))
            d'.target_location d'.target_node_id =
            tally.allocated d'.target_location d'.target_node_id := by
          by_cases hLocation : d'.target_location = c.target
          · have hHere : d'.target_node_id ≠ c.node_id := fun hHere => hSame ⟨hLocation, hHere⟩
            simp [hLocation, hHere]
          · simp [hLocation]
        exact le_of_eq_of_le hKept (h.fits d' hOld node' hNode')
      · rw [List.mem_singleton.mp hLast] at hSame
        exact absurd ⟨hTarget, hNodeId⟩ hSame
  · intro node_id
    rw [List.filter_append, List.map_append]
    by_cases hHere : node_id = c.node_id
    · subst hHere
      have hLast : [d].filter (·.target_node_id = c.node_id) = [d] := by simp [hNodeId]
      rw [hLast, List.map_singleton]
      refine List.nodup_append.mpr ⟨h.once c.node_id, List.pairwise_singleton _ _, ?_⟩
      intro id hOld id' hLast
      obtain ⟨d', hd', rfl⟩ := List.mem_map.mp hOld
      obtain ⟨hd', hNodeId'⟩ := List.mem_filter.mp hd'
      rw [List.mem_singleton.mp hLast]
      exact fun hSameId => hNew d' hd' hSameId (of_decide_eq_true hNodeId')
    · have hLast : [d].filter (·.target_node_id = node_id) = [] := by simp [hNodeId, Ne.symm hHere]
      simpa [hLast] using h.once node_id

theorem decided_of_round :
    Decided registry view
      (generate_decisions registry view scheduler
        (compute_greedy_ranking registry value_density_threshold view scheduler)) := by
  refine generate_decisions_induction ?_ fun tally c hMem h => ?_
  · exact ⟨by simp [decided_mb], by simp, by simp⟩
  · obtain ⟨node, -, hConsidered⟩ := of_ranked hMem
    exact h.place hConsidered.registered

end Round

section Runs

variable {registry : Registry} {value_density_threshold : ℚ} {view : View}
  {scheduler : PreloadScheduler}

/-- No artifact that a round considers for a node is pending there, and what is pending at the place
counts in what the round takes for used. -/
def Counted (registry : Registry) (value_density_threshold : ℚ) (scheduler : PreloadScheduler) :
    PreloadLabel → Prop
  | .compute_schedule view =>
      ∀ artifact target node,
        Considered registry value_density_threshold view scheduler artifact target node →
          is_pending scheduler artifact.artifact_id node.node_id = false ∧
            node.memory_used_mb target +
                decided_mb registry target (scheduler.pending_decisions node.node_id) ≤
              max (node.memory_used_mb target)
                (view.estimate_node_memory registry node.node_id target)
  | .mark_decision_completed _ => True

theorem initial_allocation_of_mem {node : WorkerNode} (hNode : node ∈ registry.nodes)
    (target : PreloadTarget) :
    initial_allocation registry view target node.node_id =
      max (node.memory_used_mb target)
        (view.estimate_node_memory registry node.node_id target) := by
  unfold initial_allocation
  rw [Registry.get_node_of_mem hNode]

/-- A decision of a round for a node is one that the round considered for it. -/
theorem considered_at {d : PreloadDecision} {node : WorkerNode} (hNode : node ∈ registry.nodes)
    (hHere : d.target_node_id = node.node_id)
    (hMem : d ∈ round_decisions registry value_density_threshold view scheduler) :
    ∃ artifact, d.artifact_id = artifact.artifact_id ∧
      Considered registry value_density_threshold view scheduler artifact d.target_location
        node := by
  obtain ⟨artifact, node', hId, hNodeId, hConsidered⟩ := chosen_of_round d hMem
  have hHealthy := (List.mem_filter.mp hConsidered.healthy).1
  have hSame : some node' = some node := by
    rw [← Registry.get_node_of_mem hNode, ← Registry.get_node_of_mem hHealthy, ← hNodeId, hHere]
  rw [Option.some.injEq] at hSame
  exact ⟨artifact, hId, hSame ▸ hConsidered⟩

/-- The memory of a place on a node after a round. -/
theorem fits_of_round {node : WorkerNode} (hNode : node ∈ registry.nodes)
    (hCounted : Counted registry value_density_threshold scheduler (.compute_schedule view))
    (target : PreloadTarget)
    (hFits : node.memory_used_mb target +
        decided_mb registry target (scheduler.pending_decisions node.node_id) ≤
      node.memory_mb target) :
    node.memory_used_mb target +
        decided_mb registry target (scheduler.pending_decisions node.node_id ++
          (round_decisions registry value_density_threshold view scheduler).filter
            (·.target_node_id = node.node_id)) ≤ node.memory_mb target := by
  rw [decided_mb_append]
  by_cases hNone : ∀ d ∈ (round_decisions registry value_density_threshold view scheduler).filter
      (·.target_node_id = node.node_id), d.target_location ≠ target
  · rw [decided_mb_of_none hNone, add_zero]
    exact hFits
  · push Not at hNone
    obtain ⟨d, hMem, rfl⟩ := hNone
    obtain ⟨hMem, hHere⟩ := List.mem_filter.mp hMem
    have hHere : d.target_node_id = node.node_id := of_decide_eq_true hHere
    obtain ⟨artifact, -, hConsidered⟩ := considered_at hNode hHere hMem
    have hPending := (hCounted _ _ _ hConsidered).2
    have hRoom := decided_of_round.fits d hMem node (hHere ▸ Registry.get_node_of_mem hNode)
    rw [decided_of_round.allocated, hHere, initial_allocation_of_mem hNode] at hRoom
    calc
      _ = node.memory_used_mb d.target_location + decided_mb registry d.target_location
            (scheduler.pending_decisions node.node_id) + _ := (add_assoc _ _ _).symm
      _ ≤ _ := add_le_add_left hPending _
      _ ≤ _ := hRoom

/-- The artifacts that are pending at a node after a round. -/
theorem nodup_of_round {node : WorkerNode} (hNode : node ∈ registry.nodes)
    (hCounted : Counted registry value_density_threshold scheduler (.compute_schedule view))
    (hNodup : ((scheduler.pending_decisions node.node_id).map (·.artifact_id)).Nodup) :
    ((scheduler.pending_decisions node.node_id ++
      (round_decisions registry value_density_threshold view scheduler).filter
        (·.target_node_id = node.node_id)).map (·.artifact_id)).Nodup := by
  rw [List.map_append]
  refine List.nodup_append.mpr ⟨hNodup, decided_of_round.once node.node_id, ?_⟩
  intro id hOld id' hNew
  obtain ⟨d, hMem, rfl⟩ := List.mem_map.mp hOld
  obtain ⟨d', hMem', rfl⟩ := List.mem_map.mp hNew
  obtain ⟨hMem', hHere⟩ := List.mem_filter.mp hMem'
  obtain ⟨artifact, hId, hConsidered⟩ :=
    considered_at hNode (of_decide_eq_true hHere) hMem'
  have hFresh := (hCounted _ _ _ hConsidered).1
  intro hSame
  have hPending : is_pending scheduler artifact.artifact_id node.node_id = true :=
    List.any_eq_true.mpr ⟨d, hMem, decide_eq_true (hSame.trans hId)⟩
  rw [hFresh] at hPending
  exact absurd hPending (by simp)

theorem WithinLimits.compute_schedule (h : WithinLimits registry scheduler)
    (hCounted : Counted registry value_density_threshold scheduler (.compute_schedule view)) :
    WithinLimits registry
      (compute_schedule registry value_density_threshold view scheduler) := by
  unfold Serverless.compute_schedule
  split
  · exact h
  · intro node hNode
    obtain ⟨hFits, hNodup⟩ := h node hNode
    exact ⟨fun target => fits_of_round hNode hCounted target (hFits target),
      nodup_of_round hNode hCounted hNodup⟩

theorem WithinLimits.mark_decision_completed (h : WithinLimits registry scheduler)
    (decision_id : Nat) :
    WithinLimits registry (mark_decision_completed scheduler decision_id) := by
  intro node hNode
  obtain ⟨hFits, hNodup⟩ := h node hNode
  have hSub := List.eraseP_sublist (p := (·.decision_id = decision_id))
    (l := scheduler.pending_decisions node.node_id)
  refine ⟨fun target => ?_, hNodup.sublist (hSub.map _)⟩
  exact (add_le_add_right (decided_mb_sublist hSub) _).trans (hFits target)

/-- One backbone of 60 MB and one node with 100 MB of each memory. -/
def one_backbone : Registry where
  artifacts := [{
    artifact_id := "backbone"
    artifact_type := .backbone
    size_mb := 60
    loading_delay_ms := 1000
    size_nonneg := by norm_num }]
  nodes := [{
    node_id := "node"
    memory_mb := fun _ => 100
    memory_used_mb := fun _ => 0 }]
  artifact_ids := List.pairwise_singleton _ _
  node_ids := List.pairwise_singleton _ _

theorem one_backbone_fits : ∀ node ∈ one_backbone.nodes, ∀ target,
    node.memory_used_mb target ≤ node.memory_mb target := by
  intro node hMem target
  rw [List.mem_singleton.mp hMem]
  exact (by norm_num : (0 : ℚ) ≤ 100)

/-- An adapter that needs the backbone, on the same node. -/
def backbone_and_adapter : Registry where
  artifacts := one_backbone.artifacts ++ [{
    artifact_id := "adapter"
    artifact_type := .adapter
    size_mb := 20
    loading_delay_ms := 1000
    depends_on := ["backbone"]
    backbone_id := some "backbone"
    size_nonneg := by norm_num }]
  nodes := one_backbone.nodes
  artifact_ids := by simp [one_backbone]
  node_ids := one_backbone.node_ids

/-- A container has the backbone. -/
def backbone_loaded : View :=
  { View.asking ["backbone", "adapter"] with
    containers := fun _ => [{ function_id := none, loaded_artifacts := ["backbone"] }] }

end Runs

end Serverless
