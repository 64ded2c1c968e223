import SwarmLoRA.Data.Sorting
import SwarmLoRA.Serverless.Preload

namespace Serverless

open Machine

/-- The artifact depends on `dep`, which is registered too. -/
def DependsOn (registry : Registry) (artifact_id : ArtifactId) (dep : Artifact) : Prop :=
  dep ∈ registry.artifacts ∧ ∃ artifact ∈ registry.artifacts,
    artifact.artifact_id = artifact_id ∧ dep.artifact_id ∈ artifact.depends_on

/-- In what the agent of a node gets, every artifact comes after each of its dependencies that is
not provided there anyway. -/
def Precedence (registry : Registry) (provided : Artifact → NodeId → Prop)
    (scheduler : PreloadScheduler) : Prop :=
  ∀ node_id before d after,
    get_pending_decisions scheduler node_id = before ++ d :: after →
      ∀ dep, DependsOn registry d.artifact_id dep →
        provided dep node_id ∨ ∃ d' ∈ before, d'.artifact_id = dep.artifact_id

section Round

variable {registry : Registry} {value_density_threshold : ℚ} {view : View}
  {scheduler : PreloadScheduler} {provided : Artifact → NodeId → Prop}

/-- Decisions carry the numbers that follow the counter, in the order in which they are made, so
that a number tells which of two came first. -/
structure Numbered (scheduler : PreloadScheduler) (decisions : List PreloadDecision) : Prop where
  ascending : decisions.Pairwise fun d d' => d.decision_id < d'.decision_id
  fresh : ∀ d ∈ decisions, scheduler.decision_counter < d.decision_id
  bounded : ∀ d ∈ decisions, d.decision_id ≤ scheduler.decision_counter + decisions.length

theorem Numbered.snoc {decisions : List PreloadDecision} {d : PreloadDecision}
    (h : Numbered scheduler decisions)
    (hId : d.decision_id = scheduler.decision_counter + decisions.length + 1) :
    Numbered scheduler (decisions ++ [d]) := by
  refine ⟨?_, ?_, ?_⟩
  · refine List.pairwise_append.mpr ⟨h.ascending, List.pairwise_singleton _ _, ?_⟩
    intro d' hOld last hLast
    have hBound := h.bounded d' hOld
    rw [List.mem_singleton.mp hLast]
    omega
  · intro d' hMem
    rcases List.mem_append.mp hMem with hOld | hLast
    · exact h.fresh d' hOld
    · rw [List.mem_singleton.mp hLast]
      omega
  · intro d' hMem
    rw [List.length_append, List.length_singleton]
    rcases List.mem_append.mp hMem with hOld | hLast
    · have hBound := h.bounded d' hOld
      omega
    · rw [List.mem_singleton.mp hLast]
      omega

theorem numbered_of_round :
    Numbered scheduler (round_decisions registry value_density_threshold view scheduler) := by
  refine generate_decisions_induction (P := fun tally => Numbered scheduler tally.decisions) ?_
    fun tally c _ h => ?_
  · exact ⟨.nil, by simp, by simp⟩
  · obtain hSame | ⟨_, d, -, hId, -, -, -, -, -, -, hPlace⟩ :=
      @place_cases registry view scheduler tally c
    · rwa [hSame]
    · rw [hPlace]
      exact h.snoc hId

/-- What holds of the pending decisions after every step: a dependency that is not provided is
pending under a smaller number and no higher priority value. -/
structure Ordered (registry : Registry) (provided : Artifact → NodeId → Prop)
    (scheduler : PreloadScheduler) : Prop where
  ascending : ∀ node_id, (scheduler.pending_decisions node_id).Pairwise
    fun d d' => d.decision_id < d'.decision_id
  bounded : ∀ node_id, ∀ d ∈ scheduler.pending_decisions node_id,
    d.decision_id ≤ scheduler.decision_counter
  preceded : ∀ node_id, ∀ d ∈ scheduler.pending_decisions node_id,
    ∀ dep, DependsOn registry d.artifact_id dep →
      provided dep node_id ∨ ∃ d' ∈ scheduler.pending_decisions node_id,
        d'.artifact_id = dep.artifact_id ∧ d'.decision_id < d.decision_id ∧
          d'.priority ≤ d.priority

theorem Ordered.precedence (h : Ordered registry provided scheduler) :
    Precedence registry provided scheduler := by
  intro node_id before d after hSplit dep hDep
  have hSorted : d ∈ get_pending_decisions scheduler node_id := hSplit ▸ by simp
  have hMem : d ∈ scheduler.pending_decisions node_id := (List.mem_insertionSort _).mp hSorted
  rcases h.preceded node_id d hMem dep hDep with hProvided | ⟨d', hMem', hId, hOlder, hPriority⟩
  · exact .inl hProvided
  · refine .inr ⟨d', ?_, hId⟩
    exact Data.mem_before_insertionSort (fun _ _ => Nat.lt_asymm) (h.ascending node_id) hMem'
      hOlder hPriority hSplit

/-- What the rounds of the scheduler find provided is provided. A round considers an artifact for a
node only where each of its dependencies is provided there or pending as the first decision of a
round. What is completed is provided. -/
def DependenciesFirst (registry : Registry) (value_density_threshold : ℚ)
    (provided : Artifact → NodeId → Prop) (scheduler : PreloadScheduler) : PreloadLabel → Prop
  | .compute_schedule view =>
      (∀ artifact node_id, view.provided artifact node_id = true → provided artifact node_id) ∧
      ∀ artifact target node,
        Considered registry value_density_threshold view scheduler artifact target node →
          ∀ dep, DependsOn registry artifact.artifact_id dep →
            view.provided dep node.node_id = true ∨
              ∃ d ∈ scheduler.pending_decisions node.node_id,
                d.artifact_id = dep.artifact_id ∧ d.priority = 0
  | .mark_decision_completed decision_id =>
      ∀ node_id, ∀ d ∈ scheduler.pending_decisions node_id, d.decision_id = decision_id →
        ∀ artifact ∈ registry.artifacts, artifact.artifact_id = d.artifact_id →
          provided artifact node_id

theorem Ordered.compute_schedule (h : Ordered registry provided scheduler)
    (hFirst : DependenciesFirst registry value_density_threshold provided scheduler
      (.compute_schedule view)) :
    Ordered registry provided
      (compute_schedule registry value_density_threshold view scheduler) := by
  unfold Serverless.compute_schedule
  split
  · exact h
  obtain ⟨hProvided, hConsider⟩ := hFirst
  have hNumbered : Numbered scheduler
      (round_decisions registry value_density_threshold view scheduler) := numbered_of_round
  refine ⟨?_, ?_, ?_⟩
  · intro node_id
    refine List.pairwise_append.mpr
      ⟨h.ascending node_id, hNumbered.ascending.sublist List.filter_sublist, ?_⟩
    intro d hOld d' hNew
    exact (h.bounded node_id d hOld).trans_lt (hNumbered.fresh d' (List.mem_filter.mp hNew).1)
  · intro node_id d hMem
    rcases List.mem_append.mp hMem with hOld | hNew
    · exact (h.bounded node_id d hOld).trans (Nat.le_add_right _ _)
    · exact hNumbered.bounded d (List.mem_filter.mp hNew).1
  · intro node_id d hMem dep hDep
    rcases List.mem_append.mp hMem with hOld | hNew
    · rcases h.preceded node_id d hOld dep hDep with hThere | ⟨d', hMem', hBefore⟩
      · exact .inl hThere
      · exact .inr ⟨d', List.mem_append_left _ hMem', hBefore⟩
    · obtain ⟨hRound, hHere⟩ := List.mem_filter.mp hNew
      obtain ⟨artifact, node, hId, hNodeId, hConsidered⟩ := chosen_of_round d hRound
      have hNode : node.node_id = node_id := hNodeId ▸ of_decide_eq_true hHere
      subst hNode
      rcases hConsider _ _ _ hConsidered dep (hId ▸ hDep) with hThere | ⟨d', hMem', hId', hZero⟩
      · exact .inl (hProvided dep _ hThere)
      · refine .inr ⟨d', List.mem_append_left _ hMem', hId', ?_, hZero ▸ Nat.zero_le _⟩
        exact (h.bounded _ d' hMem').trans_lt (hNumbered.fresh d hRound)

theorem Ordered.mark_decision_completed (h : Ordered registry provided scheduler)
    {decision_id : Nat}
    (hDone : DependenciesFirst registry value_density_threshold provided scheduler
      (.mark_decision_completed decision_id)) :
    Ordered registry provided (mark_decision_completed scheduler decision_id) := by
  have hSub (node_id : NodeId) := List.eraseP_sublist (p := (·.decision_id = decision_id))
    (l := scheduler.pending_decisions node_id)
  refine ⟨?_, ?_, ?_⟩
  · exact fun node_id => (h.ascending node_id).sublist (hSub node_id)
  · exact fun node_id d hMem => h.bounded node_id d ((hSub node_id).subset hMem)
  · intro node_id d hMem dep hDep
    rcases h.preceded node_id d ((hSub node_id).subset hMem) dep hDep with
      hThere | ⟨d', hMem', hId, hBefore⟩
    · exact .inl hThere
    · by_cases hGone : d'.decision_id = decision_id
      · exact .inl (hDone node_id d' hMem' hGone dep hDep.1 hId.symm)
      · refine .inr ⟨d', ?_, hId, hBefore⟩
        exact (List.mem_eraseP_of_neg (by simpa using hGone)).mpr hMem'

end Round

def library : Artifact where
  artifact_id := "library"
  artifact_type := .library
  size_mb := 10
  loading_delay_ms := 3000
  size_nonneg := by norm_num

def backbone : Artifact where
  artifact_id := "backbone"
  artifact_type := .backbone
  size_mb := 10
  loading_delay_ms := 2000
  size_nonneg := by norm_num

def kernel : Artifact where
  artifact_id := "kernel"
  artifact_type := .kernel
  size_mb := 10
  loading_delay_ms := 4000
  depends_on := ["backbone"]
  size_nonneg := by norm_num

def one_node : WorkerNode where
  node_id := "node"
  memory_mb := fun _ => 100
  memory_used_mb := fun _ => 0

/-- The kernel depends on the backbone and takes the longest to load, the backbone the shortest. -/
def kernel_chain : Registry where
  artifacts := [library, backbone, kernel]
  nodes := [one_node]
  artifact_ids := by decide
  node_ids := by decide

theorem of_dependsOn_chain {artifact_id : ArtifactId} {dep : Artifact}
    (hDep : DependsOn kernel_chain artifact_id dep) :
    artifact_id = "kernel" ∧ dep.artifact_id = "backbone" := by
  obtain ⟨-, artifact, hMem, rfl, hOn⟩ := hDep
  rcases List.mem_cons.mp hMem with rfl | hMem
  · exact absurd hOn List.not_mem_nil
  rcases List.mem_cons.mp hMem with rfl | hMem
  · exact absurd hOn List.not_mem_nil
  · rw [List.mem_singleton.mp hMem] at hOn ⊢
    exact ⟨rfl, List.mem_singleton.mp hOn⟩

theorem dependenciesFirst_chain {required_artifacts : List ArtifactId}
    {scheduler : PreloadScheduler}
    (hFirst : ∀ target,
      admits kernel_chain (.asking required_artifacts) scheduler kernel target one_node = true →
        ∃ d ∈ scheduler.pending_decisions "node", d.artifact_id = "backbone" ∧ d.priority = 0) :
    DependenciesFirst kernel_chain (1 / 100) (fun _ _ => False) scheduler
      (.compute_schedule (.asking required_artifacts)) := by
  refine ⟨by simp [View.provided, View.shared, View.asking], ?_⟩
  intro artifact target node hConsidered dep hDep
  obtain ⟨hId, hDepId⟩ := of_dependsOn_chain hDep
  have hNode : node = one_node := List.mem_singleton.mp (List.mem_filter.mp hConsidered.healthy).1
  have hArtifact : some artifact = some kernel := by
    rw [← Registry.get_artifact_of_mem hConsidered.registered, hId]
    rfl
  rw [Option.some.injEq] at hArtifact
  subst hNode hArtifact
  rw [hDepId]
  exact .inr (hFirst target hConsidered.admitted)

end Serverless
