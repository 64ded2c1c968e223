import Mathlib.Data.List.Sort
import SwarmLoRA.Machine.System
import SwarmLoRA.Serverless.Registry

/-! The rounds of the preload scheduler: the greedy ranking of the artifacts, the decisions that
a round makes, and the decisions that are pending until an agent has carried them out. -/
namespace Serverless

open Machine

structure PreloadDecision where
  decision_id : Nat
  artifact_id : ArtifactId
  target_node_id : NodeId
  target_location : PreloadTarget
  function_id : Option FunctionId
  priority : Nat
  value_density : WithTop ℚ
  expected_value : ℚ

/-- An entry of the ranking. -/
structure Candidate where
  artifact : Artifact
  node_id : NodeId
  target : PreloadTarget
  density : WithTop ℚ

/-- The scheduler, between two rounds. Decisions are numbered in the order in which they are made. -/
structure PreloadScheduler where
  pending_decisions : NodeId → List PreloadDecision := fun _ => []
  decision_counter : Nat := 0

/-- What a round has allocated and decided so far. -/
structure Tally where
  allocated : PreloadTarget → NodeId → ℚ
  decisions : List PreloadDecision := []

section Round

variable (registry : Registry) (value_density_threshold : ℚ) (view : View)
  (scheduler : PreloadScheduler)

def is_pending (artifact_id : ArtifactId) (node_id : NodeId) : Bool :=
  (scheduler.pending_decisions node_id).any (·.artifact_id = artifact_id)

/-- `_check_precedence`. A dependency that is not registered does not count. -/
def check_precedence (artifact : Artifact) (node_id : NodeId) : Bool :=
  artifact.depends_on.all fun dep_id =>
    match registry.get_artifact dep_id with
    | none => true
    | some dep => view.provided dep node_id || is_pending scheduler dep_id node_id

/-- `_check_coupling`. -/
def check_coupling (artifact : Artifact) (node_id : NodeId) : Bool :=
  if artifact.artifact_type ≠ .adapter then true
  else
    match artifact.backbone_id with
    | none => true
    | some backbone_id =>
        match registry.get_artifact backbone_id with
        | none => false
        | some backbone =>
            (backbone.artifact_type = .backbone && !(view.containers node_id).isEmpty) ||
              view.loaded_at_node backbone_id = some node_id ||
                is_pending scheduler backbone_id node_id

/-- The checks of a candidate that depend on the node. -/
def admits (artifact : Artifact) (target : PreloadTarget) (node : WorkerNode) : Bool :=
  !view.artifact_loaded_on_node artifact node.node_id &&
    check_capacity artifact node target &&
      check_precedence registry view scheduler artifact node.node_id &&
        check_coupling registry view scheduler artifact node.node_id

/-- The density of an artifact at a place, more if nothing serves it yet. -/
def boosted_density (artifact : Artifact) (target : PreloadTarget) : WithTop ℚ :=
  (artifact.compute_density (view.artifact_rate artifact.artifact_id) target).map
    (· * view.unserved_boost registry artifact)

/-- The candidates in the order in which they are found. -/
def candidates : List Candidate :=
  (registry.artifacts.filter fun artifact =>
      1 / 1000 ≤ view.artifact_rate artifact.artifact_id).flatMap fun artifact =>
    [PreloadTarget.container, .gpu].flatMap fun target =>
      if boosted_density registry view artifact target <
          (value_density_threshold : WithTop ℚ) then []
      else
        ((view.get_healthy_nodes registry).filter
            (admits registry view scheduler artifact target)).map fun node =>
          ⟨artifact, node.node_id, target, boosted_density registry view artifact target⟩

/-- `_compute_greedy_ranking`. The sort is stable. -/
def compute_greedy_ranking : List Candidate :=
  (candidates registry value_density_threshold view scheduler).insertionSort
    fun c c' => c'.density ≤ c.density

/-- What a round takes for used at first: what is on record for the node, or the estimate from what
is loaded there, whichever is more. -/
def initial_allocation (target : PreloadTarget) (node_id : NodeId) : ℚ :=
  match registry.get_node node_id with
  | some node =>
      max (node.memory_used_mb target) (view.estimate_node_memory registry node_id target)
  | none => 0

/-- One candidate in `_generate_decisions`. -/
def place (tally : Tally) (c : Candidate) : Tally :=
  if tally.decisions.any fun d =>
      d.artifact_id = c.artifact.artifact_id && d.target_node_id = c.node_id then tally
  else
    match registry.get_node c.node_id with
    | none => tally
    | some node =>
        let required_mb := c.artifact.get_effective_size c.target
        let current := tally.allocated c.target c.node_id
        if node.memory_mb c.target < current + required_mb then tally
        else
          let func_id := (view.functions.find? fun f =>
            f.required_artifacts.contains c.artifact.artifact_id).map (·.function_id)
          { allocated := Function.update tally.allocated c.target
              (Function.update (tally.allocated c.target) c.node_id (current + required_mb))
            decisions := tally.decisions ++ [{
              decision_id := scheduler.decision_counter + tally.decisions.length + 1
              artifact_id := c.artifact.artifact_id
              target_node_id := c.node_id
              target_location := c.target
              function_id := func_id
              priority := tally.decisions.length
              value_density := c.density
              expected_value :=
                c.artifact.compute_value ((func_id.map view.get_request_rate).getD 0) }] }

/-- `_generate_decisions`. -/
def generate_decisions (ranked : List Candidate) : Tally :=
  ranked.foldl (place registry view scheduler) { allocated := initial_allocation registry view }

def round_decisions : List PreloadDecision :=
  (generate_decisions registry view scheduler
    (compute_greedy_ranking registry value_density_threshold view scheduler)).decisions

/-- `compute_schedule`. What the swaps of the rebalancing change shows in the view of the next
round. -/
def compute_schedule : PreloadScheduler :=
  if (view.get_healthy_nodes registry).isEmpty then scheduler
  else
    let decisions := round_decisions registry value_density_threshold view scheduler
    { pending_decisions := fun node_id =>
        scheduler.pending_decisions node_id ++ decisions.filter (·.target_node_id = node_id)
      decision_counter := scheduler.decision_counter + decisions.length }

end Round

section Rules

variable {registry : Registry} {value_density_threshold : ℚ} {view : View}
  {scheduler : PreloadScheduler}

/-- What a round asks of an artifact before it can place it on a node. The memory that is left there
is asked for after that. -/
structure Considered (registry : Registry) (value_density_threshold : ℚ) (view : View)
    (scheduler : PreloadScheduler) (artifact : Artifact) (target : PreloadTarget)
    (node : WorkerNode) : Prop where
  registered : artifact ∈ registry.artifacts
  healthy : node ∈ view.get_healthy_nodes registry
  asked : 1 / 1000 ≤ view.artifact_rate artifact.artifact_id
  dense : (value_density_threshold : WithTop ℚ) ≤ boosted_density registry view artifact target
  admitted : admits registry view scheduler artifact target node = true

theorem of_candidate {c : Candidate}
    (hMem : c ∈ candidates registry value_density_threshold view scheduler) :
    ∃ node, node.node_id = c.node_id ∧
      Considered registry value_density_threshold view scheduler c.artifact c.target node := by
  unfold candidates at hMem
  obtain ⟨artifact, hArtifact, hMem⟩ := List.mem_flatMap.mp hMem
  obtain ⟨hArtifact, hRate⟩ := List.mem_filter.mp hArtifact
  obtain ⟨target, -, hMem⟩ := List.mem_flatMap.mp hMem
  split at hMem
  · exact absurd hMem List.not_mem_nil
  · rename_i hDense
    obtain ⟨node, hNode, rfl⟩ := List.mem_map.mp hMem
    obtain ⟨hHealthy, hAdmits⟩ := List.mem_filter.mp hNode
    exact ⟨node, rfl, hArtifact, hHealthy, of_decide_eq_true hRate, not_lt.mp hDense, hAdmits⟩

theorem of_ranked {c : Candidate}
    (hMem : c ∈ compute_greedy_ranking registry value_density_threshold view scheduler) :
    ∃ node, node.node_id = c.node_id ∧
      Considered registry value_density_threshold view scheduler c.artifact c.target node :=
  of_candidate ((List.mem_insertionSort _).mp hMem)

/-- A candidate leaves the tally as it is or adds the next decision to it. -/
theorem place_cases (tally : Tally) (c : Candidate) :
    place registry view scheduler tally c = tally ∨
      ∃ (node : WorkerNode) (d : PreloadDecision),
        registry.get_node c.node_id = some node ∧
        d.decision_id = scheduler.decision_counter + tally.decisions.length + 1 ∧
        d.artifact_id = c.artifact.artifact_id ∧
        d.target_node_id = c.node_id ∧
        d.target_location = c.target ∧
        d.priority = tally.decisions.length ∧
        (∀ d' ∈ tally.decisions, d'.artifact_id = d.artifact_id → d'.target_node_id ≠ c.node_id) ∧
        tally.allocated c.target c.node_id + c.artifact.get_effective_size c.target ≤
          node.memory_mb c.target ∧
        place registry view scheduler tally c =
          { allocated := Function.update tally.allocated c.target
              (Function.update (tally.allocated c.target) c.node_id
                (tally.allocated c.target c.node_id +
                  c.artifact.get_effective_size c.target))
            decisions := tally.decisions ++ [d] } := by
  unfold place
  split
  · exact .inl rfl
  · rename_i hNew
    cases hNode : registry.get_node c.node_id with
    | none => exact .inl rfl
    | some node =>
        dsimp only
        split
        · exact .inl rfl
        · rename_i hRoom
          refine .inr ⟨node, _, rfl, rfl, rfl, rfl, rfl, rfl, ?_, not_lt.mp hRoom, rfl⟩
          intro d' hMem hArtifact hNodeId
          exact hNew (List.any_eq_true.mpr ⟨d', hMem, by simp [hArtifact, hNodeId]⟩)

/-- What every candidate preserves holds of the tally of the whole round. -/
theorem generate_decisions_induction {P : Tally → Prop} {ranked : List Candidate}
    (hInit : P { allocated := initial_allocation registry view })
    (hPlace : ∀ tally, ∀ c ∈ ranked, P tally → P (place registry view scheduler tally c)) :
    P (generate_decisions registry view scheduler ranked) :=
  List.foldlRecOn ranked _ hInit fun tally hTally c hMem => hPlace tally c hMem hTally

/-- The round has considered every artifact it decided on for the node. -/
def Chosen (registry : Registry) (value_density_threshold : ℚ) (view : View)
    (scheduler : PreloadScheduler) (decisions : List PreloadDecision) : Prop :=
  ∀ d ∈ decisions, ∃ artifact node, d.artifact_id = artifact.artifact_id ∧
    d.target_node_id = node.node_id ∧
    Considered registry value_density_threshold view scheduler artifact d.target_location node

theorem chosen_of_round :
    Chosen registry value_density_threshold view scheduler
      (round_decisions registry value_density_threshold view scheduler) := by
  refine generate_decisions_induction (P := fun tally =>
      Chosen registry value_density_threshold view scheduler tally.decisions)
    (fun d hMem => absurd hMem List.not_mem_nil) fun tally c hRanked h => ?_
  obtain hSame | ⟨_, last, -, -, hId, hNodeId, hTarget, -, -, -, hPlace⟩ :=
    @place_cases registry view scheduler tally c
  · rwa [hSame]
  · rw [hPlace]
    intro d hMem
    rcases List.mem_append.mp hMem with hOld | hLast
    · exact h d hOld
    · obtain ⟨node, hSame, hConsidered⟩ := of_ranked hRanked
      rw [List.mem_singleton.mp hLast]
      exact ⟨c.artifact, node, hId, hNodeId.trans hSame.symm, hTarget ▸ hConsidered⟩

end Rules

/-- The number is that of one decision at most. -/
def mark_decision_completed (scheduler : PreloadScheduler) (decision_id : Nat) :
    PreloadScheduler :=
  { scheduler with
    pending_decisions := fun node_id =>
      (scheduler.pending_decisions node_id).eraseP (·.decision_id = decision_id) }

/-- Carried out by an agent in this order. -/
def get_pending_decisions (scheduler : PreloadScheduler) (node_id : NodeId) :
    List PreloadDecision :=
  (scheduler.pending_decisions node_id).insertionSort fun d d' => d.priority ≤ d'.priority

inductive PreloadLabel where
  | compute_schedule (view : View)
  | mark_decision_completed (decision_id : Nat)

/-- Rounds and completions from a scheduler that has just started. -/
def preloading (registry : Registry) (value_density_threshold : ℚ) :
    System PreloadScheduler PreloadLabel where
  initial scheduler := scheduler = {}
  step scheduler
    | .compute_schedule view =>
        some (compute_schedule registry value_density_threshold view scheduler)
    | .mark_decision_completed decision_id => some (mark_decision_completed scheduler decision_id)

end Serverless
