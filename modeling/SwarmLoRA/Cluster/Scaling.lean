import SwarmLoRA.Cluster.Global

namespace Cluster.Global

namespace ScalingDecision

def is_scale_up : ScalingDecision → Bool
  | .scale_up _ => true
  | .scale_down _ => false

def is_scale_down : ScalingDecision → Bool
  | .scale_up _ => false
  | .scale_down _ => true

end ScalingDecision

/-- What the decisions of a round have to leave of the cluster that they were made for: no more
nodes than the ceiling, none started that is not idle, and none stopped below the floor. -/
structure WithinLimits (snapshot : ClusterSnapshot) (decisions : List ScalingDecision) :
    Prop where
  ceiling : (snapshot.num_active_nodes : Int) + decisions.countP (·.is_scale_up) ≤
    snapshot.max_active_nodes
  idle : decisions.countP (·.is_scale_up) ≤ snapshot.num_idle_nodes
  floor : snapshot.min_active_nodes ≤ snapshot.num_active_nodes →
    snapshot.min_active_nodes ≤
      (snapshot.num_active_nodes : Int) - decisions.countP (·.is_scale_down)

namespace ClusterSnapshot

variable (snapshot : ClusterSnapshot)

/-- The second rule asks for a node. -/
def overloaded (scale_up_threshold : Int) : Bool :=
  scale_up_threshold < snapshot.pending_requests ∧
    snapshot.num_active_nodes < snapshot.max_active_nodes ∧ 0 < snapshot.num_idle_nodes

/-- The nodes that the first rule asks for. -/
def shortfall : Nat :=
  (min (snapshot.min_active_nodes - snapshot.num_active_nodes) snapshot.num_idle_nodes).toNat

/-- The first rule leaves a node for the second one, below the ceiling and idle. -/
def leaves_room : Bool :=
  snapshot.min_active_nodes ≤ snapshot.num_active_nodes ∨
    (snapshot.min_active_nodes < snapshot.max_active_nodes ∧
      snapshot.min_active_nodes - snapshot.num_active_nodes < snapshot.num_idle_nodes)

end ClusterSnapshot

section Counts

variable (node_ids : List NodeId)

@[simp] theorem countP_up_map :
    (node_ids.map ScalingDecision.scale_down).countP (·.is_scale_up) = 0 := by
  rw [List.countP_map]
  exact congrFun List.countP_false node_ids

@[simp] theorem countP_down_map :
    (node_ids.map ScalingDecision.scale_down).countP (·.is_scale_down) = node_ids.length := by
  rw [List.countP_map]
  exact congrFun List.countP_true node_ids

end Counts

namespace DefaultClusterScaler

variable {scale_up_threshold : Int} {snapshot : ClusterSnapshot}
  {drainable_node_ids : List NodeId}

theorem countP_scale_up :
    (make_scaling_decisions scale_up_threshold snapshot drainable_node_ids).countP
        (·.is_scale_up) =
      snapshot.shortfall + (snapshot.overloaded scale_up_threshold).toNat := by
  unfold make_scaling_decisions ClusterSnapshot.shortfall ClusterSnapshot.overloaded
  dsimp only
  rw [List.countP_append, List.countP_append, countP_up_map, Nat.add_zero]
  congr 1
  · exact List.countP_replicate
  · split
    · rename_i h
      rw [decide_eq_true h]
      rfl
    · rename_i h
      rw [decide_eq_false h]
      rfl

theorem countP_scale_down :
    (make_scaling_decisions scale_up_threshold snapshot drainable_node_ids).countP
        (·.is_scale_down) =
      min (snapshot.num_active_nodes - snapshot.min_active_nodes).toNat
        drainable_node_ids.length := by
  unfold make_scaling_decisions
  dsimp only
  rw [List.countP_append, List.countP_append, countP_down_map, List.length_take,
    List.countP_replicate]
  have hMore : ∀ p : Prop, [Decidable p] → (if p then [ScalingDecision.scale_up none] else
      []).countP (·.is_scale_down) = 0 := by
    intro p _
    split
    · rfl
    · rfl
  rw [hMore]
  show 0 + 0 + _ = _
  omega

/-- Nodes are only ever drained down to the floor. -/
theorem floor_le (hFloor : snapshot.min_active_nodes ≤ snapshot.num_active_nodes) :
    snapshot.min_active_nodes ≤ (snapshot.num_active_nodes : Int) -
      (make_scaling_decisions scale_up_threshold snapshot drainable_node_ids).countP
        (·.is_scale_down) := by
  rw [countP_scale_down]
  omega

/-- The first rule by itself stays within the limits. -/
theorem shortfall_le (hLimits : snapshot.min_active_nodes ≤ snapshot.max_active_nodes)
    (hActive : snapshot.num_active_nodes ≤ snapshot.max_active_nodes) :
    (snapshot.num_active_nodes : Int) + snapshot.shortfall ≤ snapshot.max_active_nodes ∧
      snapshot.shortfall ≤ snapshot.num_idle_nodes := by
  unfold ClusterSnapshot.shortfall
  omega

/-- One more node is within the limits just when the first rule has left room for it. -/
theorem one_more_iff (hOverloaded : snapshot.overloaded scale_up_threshold = true) :
    ((snapshot.num_active_nodes : Int) + (snapshot.shortfall + 1 : Nat) ≤
        snapshot.max_active_nodes ∧ snapshot.shortfall + 1 ≤ snapshot.num_idle_nodes) ↔
      snapshot.leaves_room = true := by
  obtain ⟨_, hBelow, hIdle⟩ := of_decide_eq_true hOverloaded
  unfold ClusterSnapshot.leaves_room ClusterSnapshot.shortfall
  rw [decide_eq_true_eq]
  omega

/-- The decisions of a round keep to the limits unless the second rule asks for a node that the
first one has already asked for. Both look at the snapshot only: the second one does not know how
many nodes the first one starts. -/
theorem within_limits_iff (hLimits : snapshot.min_active_nodes ≤ snapshot.max_active_nodes)
    (hActive : snapshot.num_active_nodes ≤ snapshot.max_active_nodes) :
    WithinLimits snapshot
        (make_scaling_decisions scale_up_threshold snapshot drainable_node_ids) ↔
      (snapshot.overloaded scale_up_threshold = true → snapshot.leaves_room = true) := by
  obtain ⟨hCeiling, hIdle⟩ := shortfall_le hLimits hActive
  cases hOverloaded : snapshot.overloaded scale_up_threshold with
  | false =>
      constructor
      · intro _ hFalse
        cases hFalse
      · intro _
        constructor
        · rw [countP_scale_up, hOverloaded]
          exact hCeiling
        · rw [countP_scale_up, hOverloaded]
          exact hIdle
        · exact floor_le
  | true =>
      constructor
      · rintro ⟨hAbove, hFew, _⟩ _
        rw [countP_scale_up, hOverloaded] at hAbove hFew
        exact (one_more_iff hOverloaded).mp ⟨hAbove, hFew⟩
      · intro hRoom
        obtain ⟨hAbove, hFew⟩ := (one_more_iff hOverloaded).mpr (hRoom rfl)
        constructor
        · rw [countP_scale_up, hOverloaded]
          exact hAbove
        · rw [countP_scale_up, hOverloaded]
          exact hFew
        · exact floor_le

/-- No node is active, one has to be and one may be. -/
def oneWanted : ClusterSnapshot where
  num_active_nodes := 0
  num_idle_nodes := 2
  min_active_nodes := 1
  max_active_nodes := 1
  pending_requests := 2
  default_base_model := none

/-- A second node that may be active leaves room for the request of the second rule. -/
theorem within_limits_two_wanted :
    WithinLimits { oneWanted with max_active_nodes := 2 }
      (make_scaling_decisions 1 { oneWanted with max_active_nodes := 2 } []) :=
  (within_limits_iff (by decide) (by decide)).mpr (by decide)

/-- Both rules ask for the one node. -/
theorem two_nodes_for_one_wanted :
    ¬∀ (scale_up_threshold : Int) (snapshot : ClusterSnapshot) (drainable_node_ids : List NodeId),
      drainable_node_ids.Nodup → snapshot.min_active_nodes ≤ snapshot.max_active_nodes →
        snapshot.num_active_nodes ≤ snapshot.max_active_nodes →
          WithinLimits snapshot
            (make_scaling_decisions scale_up_threshold snapshot drainable_node_ids) := by
  intro h
  have hCeiling := (h 1 oneWanted [] List.nodup_nil (by decide) (by decide)).ceiling
  revert hCeiling
  decide

end DefaultClusterScaler

end Cluster.Global
