import Mathlib.Data.List.Sort
import SwarmLoRA.Data.Greedy
import SwarmLoRA.Serverless.Registry

/-! What the GPU offloader chooses when memory is short. Whatever needs an artifact that goes
has to go with it; the code takes along what needs the artifact itself, and not what needs that.
-/
namespace Serverless.Offloading

open Data

inductive ArtifactLocation where
  | none
  | disk
  | container
  | gpu
  deriving DecidableEq

/-- The registry as a round of the offloader finds it, with the artifacts that the running batches
protect. -/
structure Offloader where
  registry : Registry
  view : View
  location : ArtifactId → ArtifactLocation
  loaded_at_container : ArtifactId → Option String := fun _ => .none
  current_batch_artifacts : List ArtifactId := []

structure OffloadCandidate where
  artifact : Artifact
  container_id : String
  value_density : WithTop ℚ
  memory_mb : ℚ

namespace Offloader

variable (self : Offloader)

def is_candidate (artifact : Artifact) : Bool :=
  self.location artifact.artifact_id = .gpu &&
    !self.current_batch_artifacts.contains artifact.artifact_id

def candidate (artifact : Artifact) : OffloadCandidate where
  artifact := artifact
  container_id := (self.loaded_at_container artifact.artifact_id).getD ""
  value_density := artifact.compute_density (self.view.artifact_rate artifact.artifact_id) .gpu
  memory_mb := artifact.get_effective_size .gpu

/-- The sort is stable. -/
def compute_offload_candidates : List OffloadCandidate :=
  ((self.registry.artifacts.filter self.is_candidate).map self.candidate).insertionSort
    fun c c' => c.value_density ≤ c'.value_density

/-- The other artifacts on the GPU that pass a test, as far as they are candidates. -/
def coupled_by (candidates : List OffloadCandidate) (artifact : Artifact)
    (test : Artifact → Bool) : List OffloadCandidate :=
  (self.registry.artifacts.filter fun other =>
      other.artifact_id ≠ artifact.artifact_id && self.location other.artifact_id = .gpu &&
        test other).filterMap fun other =>
    candidates.find? (·.artifact.artifact_id = other.artifact_id)

def find_coupled_artifacts (candidates : List OffloadCandidate) (artifact : Artifact) :
    List OffloadCandidate :=
  self.coupled_by candidates artifact (·.depends_on.contains artifact.artifact_id) ++
    if artifact.artifact_type = .backbone then
      self.coupled_by candidates artifact (·.backbone_id = some artifact.artifact_id)
    else []

/-- What is evicted together with a candidate. -/
def coupled (c : OffloadCandidate) : List OffloadCandidate :=
  self.find_coupled_artifacts self.compute_offload_candidates c.artifact

/-- The selected candidates, by their ids, and the memory that they free. -/
def select_offload_set (required_mb : ℚ) : Greedy.Selection OffloadCandidate :=
  Greedy.select (·.artifact.artifact_id) (·.memory_mb) self.coupled required_mb {}
    self.compute_offload_candidates

/-- The artifact is there, on the GPU. -/
def on_gpu (z : ArtifactId) : Prop :=
  self.location z = .gpu ∧ ∃ a ∈ self.registry.artifacts, a.artifact_id = z

def depends (z x : ArtifactId) : Prop :=
  ∃ a ∈ self.registry.artifacts, a.artifact_id = z ∧ x ∈ a.depends_on

/-- The artifact is an adapter on a backbone: only adapters have one. -/
def rides (z x : ArtifactId) : Prop :=
  (∃ a ∈ self.registry.artifacts, a.artifact_id = z ∧ a.backbone_id = some x) ∧
    ∃ b ∈ self.registry.artifacts, b.artifact_id = x ∧ b.artifact_type = .backbone

/-- The artifact has to go with the other one. -/
def must_follow (z x : ArtifactId) : Prop :=
  self.on_gpu z ∧ (Relation.TransGen self.depends z x ∨ self.rides z x)

/-- The code takes the artifact along with the other one. -/
def goes_along (z x : ArtifactId) : Prop :=
  self.on_gpu z ∧ z ∉ self.current_batch_artifacts ∧ z ≠ x ∧ (self.depends z x ∨ self.rides z x)

/-- Whatever has to go with a candidate is a candidate before it or goes along with one of these or
with the candidate itself. -/
def Orderly : Prop :=
  ∀ before c after, self.compute_offload_candidates = before ++ c :: after →
    ∀ z, Relation.TransGen self.must_follow z c.artifact.artifact_id →
      ∃ d ∈ before ++ [c], z = d.artifact.artifact_id ∨ self.goes_along z d.artifact.artifact_id

/-- What a set that is offloaded has to satisfy: with an artifact goes whatever must follow it,
nothing of the present batch goes, and it frees enough or there is nothing else to free. -/
structure Coherent (offloader : Offloader) (required_mb : ℚ) : Prop where
  closed : ∀ c ∈ (offloader.select_offload_set required_mb).selected, ∀ z,
    offloader.must_follow z c.artifact.artifact_id →
      z ∈ (offloader.select_offload_set required_mb).selected.map (·.artifact.artifact_id)
  spared : ∀ c ∈ (offloader.select_offload_set required_mb).selected, ∀ z,
    offloader.must_follow z c.artifact.artifact_id → z ∉ offloader.current_batch_artifacts
  enough : required_mb ≤ ((offloader.select_offload_set required_mb).selected.map (·.memory_mb)).sum ∨
    ∀ z, offloader.on_gpu z → z ∉ offloader.current_batch_artifacts →
      z ∈ (offloader.select_offload_set required_mb).selected.map (·.artifact.artifact_id)

variable {self} {c d : OffloadCandidate} {artifact other : Artifact} {z : ArtifactId}

theorem mem_candidates :
    c ∈ self.compute_offload_candidates ↔
      ∃ a ∈ self.registry.artifacts, self.is_candidate a ∧ c = self.candidate a := by
  unfold compute_offload_candidates
  rw [List.mem_insertionSort, List.mem_map]
  constructor
  · rintro ⟨a, ha, rfl⟩
    obtain ⟨hMem, hCandidate⟩ := List.mem_filter.mp ha
    exact ⟨a, hMem, hCandidate, rfl⟩
  · rintro ⟨a, hMem, hCandidate, rfl⟩
    exact ⟨a, List.mem_filter.mpr ⟨hMem, hCandidate⟩, rfl⟩

theorem is_candidate_iff :
    self.is_candidate artifact ↔ self.location artifact.artifact_id = .gpu ∧
      artifact.artifact_id ∉ self.current_batch_artifacts := by
  simp [is_candidate]

/-- The ids of the candidates are the artifacts on the GPU that are not protected. -/
theorem mem_candidate_ids :
    z ∈ self.compute_offload_candidates.map (·.artifact.artifact_id) ↔
      self.on_gpu z ∧ z ∉ self.current_batch_artifacts := by
  rw [List.mem_map]
  constructor
  · rintro ⟨c, hc, rfl⟩
    obtain ⟨a, hMem, hCandidate, rfl⟩ := mem_candidates.mp hc
    obtain ⟨hGpu, hFree⟩ := is_candidate_iff.mp hCandidate
    exact ⟨⟨hGpu, a, hMem, rfl⟩, hFree⟩
  · rintro ⟨⟨hGpu, a, hMem, rfl⟩, hFree⟩
    exact ⟨_, mem_candidates.mpr ⟨a, hMem, is_candidate_iff.mpr ⟨hGpu, hFree⟩, rfl⟩, rfl⟩

theorem mem_coupled_by {test : Artifact → Bool} :
    z ∈ (self.coupled_by self.compute_offload_candidates artifact test).map
        (·.artifact.artifact_id) ↔
      self.on_gpu z ∧ z ∉ self.current_batch_artifacts ∧ z ≠ artifact.artifact_id ∧
        ∃ other ∈ self.registry.artifacts, other.artifact_id = z ∧ test other := by
  rw [List.mem_map]
  constructor
  · rintro ⟨d, hd, rfl⟩
    obtain ⟨other, hOther, hFind⟩ := List.mem_filterMap.mp hd
    obtain ⟨hMem, hTests⟩ := List.mem_filter.mp hOther
    have hSame : d.artifact.artifact_id = other.artifact_id := by
      simpa using List.find?_some hFind
    obtain ⟨hGpu, hFree⟩ := mem_candidate_ids.mp
      (List.mem_map_of_mem (List.mem_of_find?_eq_some hFind))
    simp only [Bool.and_eq_true, decide_eq_true_eq] at hTests
    exact ⟨hGpu, hFree, hSame ▸ hTests.1.1, other, hMem, hSame.symm, hTests.2⟩
  · rintro ⟨hGpu, hFree, hOther, other, hMem, rfl, hTest⟩
    obtain ⟨c, hc, hSame⟩ := List.mem_map.mp (mem_candidate_ids.mpr ⟨hGpu, hFree⟩)
    have hSome : (self.compute_offload_candidates.find?
        (·.artifact.artifact_id = other.artifact_id)).isSome :=
      List.find?_isSome.mpr ⟨c, hc, by simpa using hSame⟩
    obtain ⟨d, hFind⟩ := Option.isSome_iff_exists.mp hSome
    have hTests : other ∈ self.registry.artifacts.filter fun other =>
        other.artifact_id ≠ artifact.artifact_id && self.location other.artifact_id = .gpu &&
          test other := by
      refine List.mem_filter.mpr ⟨hMem, ?_⟩
      simp only [Bool.and_eq_true, decide_eq_true_eq]
      exact ⟨⟨hOther, hGpu.1⟩, hTest⟩
    refine ⟨d, List.mem_filterMap.mpr ⟨other, hTests, hFind⟩, ?_⟩
    simpa using List.find?_some hFind

/-- What is coupled to an artifact goes along with it. -/
theorem mem_find_coupled_artifacts (hMem : artifact ∈ self.registry.artifacts) :
    z ∈ (self.find_coupled_artifacts self.compute_offload_candidates artifact).map
        (·.artifact.artifact_id) ↔ self.goes_along z artifact.artifact_id := by
  unfold find_coupled_artifacts
  rw [List.map_append, List.mem_append, mem_coupled_by]
  have hDepends : (∃ other ∈ self.registry.artifacts, other.artifact_id = z ∧
      other.depends_on.contains artifact.artifact_id) ↔
        self.depends z artifact.artifact_id := by
    simp [depends]
  rw [hDepends]
  by_cases hBackbone : artifact.artifact_type = .backbone
  · rw [if_pos hBackbone, mem_coupled_by]
    have hRides : (∃ other ∈ self.registry.artifacts, other.artifact_id = z ∧
        decide (other.backbone_id = some artifact.artifact_id)) ↔
          self.rides z artifact.artifact_id := by
      simp only [decide_eq_true_eq]
      exact (and_iff_left ⟨artifact, hMem, rfl, hBackbone⟩).symm
    rw [hRides]
    unfold goes_along
    tauto
  · rw [if_neg hBackbone]
    have hNot : ¬self.rides z artifact.artifact_id := by
      rintro ⟨-, b, hb, hSame, hType⟩
      have hEq := Registry.get_artifact_of_mem hb
      rw [hSame, Registry.get_artifact_of_mem hMem] at hEq
      exact hBackbone (Option.some.inj hEq ▸ hType)
    unfold goes_along
    simp only [List.map_nil, List.not_mem_nil, or_false, hNot]

theorem must_follow_of_goes_along {x : ArtifactId} (h : self.goes_along z x) :
    self.must_follow z x :=
  ⟨h.1, h.2.2.2.imp_left .single⟩

theorem artifact_mem (hc : c ∈ self.compute_offload_candidates) :
    c.artifact ∈ self.registry.artifacts := by
  obtain ⟨a, hMem, -, rfl⟩ := mem_candidates.mp hc
  exact hMem

theorem coupled_mem (hd : d ∈ self.coupled c) : d ∈ self.compute_offload_candidates := by
  have hFound : ∀ test, d ∈ self.coupled_by self.compute_offload_candidates c.artifact test →
      d ∈ self.compute_offload_candidates := by
    intro test hd
    obtain ⟨other, -, hFind⟩ := List.mem_filterMap.mp hd
    exact List.mem_of_find?_eq_some hFind
  rcases List.mem_append.mp hd with hd | hd
  · exact hFound _ hd
  · split at hd
    · exact hFound _ hd
    · exact absurd hd List.not_mem_nil

theorem must_follow_of_coupled (hc : c ∈ self.compute_offload_candidates)
    (hd : d ∈ self.coupled c) :
    self.must_follow d.artifact.artifact_id c.artifact.artifact_id :=
  must_follow_of_goes_along
    ((mem_find_coupled_artifacts (artifact_mem hc)).mp (List.mem_map_of_mem hd))

/-- The order of the candidates is good in the sense of the greedy choice. -/
theorem orderly_iff : self.Orderly ↔
    Greedy.Ordered (·.artifact.artifact_id) self.coupled self.must_follow
      self.compute_offload_candidates := by
  have hReached : ∀ before c after, self.compute_offload_candidates = before ++ c :: after →
      ∀ z, (∃ d ∈ before ++ [c], z = d.artifact.artifact_id ∨
          self.goes_along z d.artifact.artifact_id) ↔
        Greedy.Reached (·.artifact.artifact_id) self.coupled (before ++ [c]) z := by
    intro before c after hSplit z
    apply exists_congr
    intro d
    apply and_congr_right
    intro hd
    have hMem : d ∈ self.compute_offload_candidates := by
      rw [hSplit]
      rcases List.mem_append.mp hd with hd | hd
      · exact List.mem_append_left _ hd
      · rw [List.mem_singleton.mp hd]
        exact List.mem_append_right _ List.mem_cons_self
    exact or_congr_right (mem_find_coupled_artifacts (artifact_mem hMem)).symm
  constructor
  · intro h before c after hSplit z hBelow
    exact (hReached before c after hSplit z).mp (h before c after hSplit z hBelow)
  · intro h before c after hSplit z hBelow
    exact (hReached before c after hSplit z).mpr (h before c after hSplit z hBelow)

/-- Only candidates are selected. -/
theorem mem_of_selected {required_mb : ℚ}
    (hc : c ∈ (self.select_offload_set required_mb).selected) :
    c ∈ self.compute_offload_candidates := by
  obtain ⟨extra, hSame, hExtra⟩ : Greedy.Extends (·.memory_mb)
      (· ∈ self.compute_offload_candidates) {} (self.select_offload_set required_mb) :=
    Greedy.extends_select (fun _ hy => hy) fun _ _ _ hz => coupled_mem hz
  rw [hSame] at hc
  exact hExtra c hc

/-- A selection is coherent as soon as it is closed. -/
theorem coherent_iff_closed {required_mb : ℚ} : self.Coherent required_mb ↔
    Greedy.Closed (·.artifact.artifact_id) self.must_follow
      (self.select_offload_set required_mb).selected := by
  constructor
  · exact Coherent.closed
  · intro hClosed
    refine ⟨hClosed, fun c hc z hFollows => ?_, ?_⟩
    · obtain ⟨d, hd, rfl⟩ := List.mem_map.mp (hClosed c hc z hFollows)
      exact (mem_candidate_ids.mp (List.mem_map_of_mem (mem_of_selected hd))).2
    · have hEither : required_mb ≤ (self.select_offload_set required_mb).freed ∨
          ∀ d ∈ self.compute_offload_candidates, d.artifact.artifact_id ∈
            (self.select_offload_set required_mb).selected.map (·.artifact.artifact_id) :=
        Greedy.frees_or_exhausts
      have hFreed : (self.select_offload_set required_mb).freed =
          ((self.select_offload_set required_mb).selected.map (·.memory_mb)).sum :=
        Greedy.freed_select
      rcases hEither with hEnough | hAll
      · exact .inl (hFreed ▸ hEnough)
      · refine .inr fun z hGpu hFree => ?_
        obtain ⟨d, hd, rfl⟩ := List.mem_map.mp (mem_candidate_ids.mpr ⟨hGpu, hFree⟩)
        exact hAll d hd

end Offloader

section Runs

def library : Artifact where
  artifact_id := "lib_torch"
  artifact_type := .library
  size_mb := 100
  loading_delay_ms := 500
  size_nonneg := by norm_num

def backbone : Artifact where
  artifact_id := "backbone_llama"
  artifact_type := .backbone
  size_mb := 14000
  loading_delay_ms := 10000
  depends_on := ["lib_torch"]
  size_nonneg := by norm_num

def adapter : Artifact where
  artifact_id := "adapter_lora"
  artifact_type := .adapter
  size_mb := 100
  loading_delay_ms := 500
  depends_on := ["backbone_llama"]
  backbone_id := some "backbone_llama"
  size_nonneg := by norm_num

/-- Everything that is registered is on the GPU, and nothing is asked for. -/
def idle (artifacts : List Artifact) (hIds : (artifacts.map (·.artifact_id)).Nodup) :
    Offloader where
  registry := { artifacts := artifacts, nodes := [], artifact_ids := hIds, node_ids := .nil }
  view := { functions := [], get_request_rate := fun _ => 0 }
  location _ := .gpu

variable {artifacts : List Artifact} {hIds : (artifacts.map (·.artifact_id)).Nodup}

theorem on_gpu_idle {z : ArtifactId} :
    (idle artifacts hIds).on_gpu z ↔ z ∈ artifacts.map (·.artifact_id) := by
  rw [List.mem_map]
  exact and_iff_right rfl

theorem adapter_follows_backbone (hAdapter : adapter ∈ artifacts) :
    (idle artifacts hIds).must_follow adapter.artifact_id backbone.artifact_id :=
  ⟨on_gpu_idle.mpr (List.mem_map_of_mem hAdapter),
    .inl (.single ⟨adapter, hAdapter, rfl, List.mem_singleton.mpr rfl⟩)⟩

end Runs

end Serverless.Offloading
