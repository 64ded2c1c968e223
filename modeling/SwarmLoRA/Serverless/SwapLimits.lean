import SwarmLoRA.Serverless.Swaps

namespace Serverless.Rebalancing

open Data

/-- What one of several sources with different keys contributes. -/
theorem filter_flatMap_of_key {σ τ κ : Type} [DecidableEq κ] {l : List σ} {f : σ → List τ}
    {key : σ → κ} {key' : τ → κ} (hKey : ∀ s ∈ l, ∀ x ∈ f s, key' x = key s)
    (hNodup : (l.map key).Nodup) {s : σ} (hs : s ∈ l) :
    (l.flatMap f).filter (fun x => key' x = key s) = f s := by
  induction l with
  | nil => exact absurd hs List.not_mem_nil
  | cons r l ih =>
      obtain ⟨hNew, hNodup⟩ := List.nodup_cons.mp hNodup
      have hRest : ∀ t ∈ l, ∀ x ∈ f t, key' x = key t := fun t ht =>
        hKey t (List.mem_cons_of_mem r ht)
      rw [List.flatMap_cons, List.filter_append]
      rcases List.mem_cons.mp hs with rfl | hs
      · have hAll : (f s).filter (fun x => key' x = key s) = f s := by
          apply List.filter_eq_self.mpr
          intro x hx
          exact decide_eq_true (hKey s List.mem_cons_self x hx)
        have hNone : (l.flatMap f).filter (fun x => key' x = key s) = [] := by
          apply List.filter_eq_nil_iff.mpr
          intro x hx hSame
          obtain ⟨t, ht, hx⟩ := List.mem_flatMap.mp hx
          have hSame := (hRest t ht x hx).symm.trans (of_decide_eq_true hSame)
          exact hNew (List.mem_map.mpr ⟨t, ht, hSame⟩)
        rw [hAll, hNone, List.append_nil]
      · have hNone : (f r).filter (fun x => key' x = key s) = [] := by
          apply List.filter_eq_nil_iff.mpr
          intro x hx hSame
          have hSame := (hKey r List.mem_cons_self x hx).symm.trans (of_decide_eq_true hSame)
          exact hNew (List.mem_map.mpr ⟨s, hs, hSame.symm⟩)
        rw [hNone, List.nil_append]
        exact ih hRest hNodup hs

section Rounds

/-- What holds when the round leaves a node, whether the limit of swaps was kept there or not. -/
structure Rebalanced (round : Round) (node : Node) (times : SwapTimes) (after : Progress) :
    Prop where
  sound : after.Sound round node times
  exceeds : REBALANCE_MAX_SWAPS_PER_NODE < after.node_swap_count ↔ round.Overflows times node
  donors : ∀ fid, 0 < after.gone node fid →
    after.gone node fid + REBALANCE_MIN_CONTAINERS_PER_FUNCTION ≤ node.actual fid
  starving : ∀ p ∈ after.candidates, ∃ deficit,
    (p.starving_fid, deficit) ∈ node.starving round.view ∧ after.brought p.starving_fid ≤ deficit

variable (round : Round) (node : Node) (times : SwapTimes)

theorem sound_start : ({ last_swap_time := times } : Progress).Sound round node times where
  ids := rfl
  once := List.nodup_nil
  count := rfl
  node_id := by simp
  swapped := by simp
  idle := by simp

theorem gone_start (fid : FunctionId) :
    ({ last_swap_time := times } : Progress).gone node fid = 0 := by
  simp [Progress.gone]

theorem balanced_start : ({ last_swap_time := times } : Progress).Balanced node
    (node.overstocked round.view) := by
  intro x hx
  rw [gone_start, Nat.add_zero]
  exact Node.surplus_le hx

theorem supplies_start : ({ last_swap_time := times } : Progress).supplies round node
    (node.overstocked round.view) = round.supplies times node := by
  have hReady : ({ last_swap_time := times } : Progress).eligible round = round.ready times := by
    funext x
    simp [Progress.eligible]
  unfold Progress.supplies Progress.free Round.supplies
  rw [hReady]

/-- The orders of the functions are such that what is handed over can be told from what is asked for
and what is there. -/
theorem serve_exceeds_iff :
    REBALANCE_MAX_SWAPS_PER_NODE < Quota.serve REBALANCE_MAX_SWAPS_PER_NODE
        (significant round.view) (round.demands (node.starving round.view))
        (round.supplies times node) 0 ↔
      Quota.Overflows REBALANCE_MAX_SWAPS_PER_NODE (fun starving_fid =>
        Quota.Reaches REBALANCE_MAX_SWAPS_PER_NODE (significant round.view starving_fid) 0
          (round.supplies times node)) 0 (round.demands (node.starving round.view)) := by
  apply Quota.serve_exceeds_iff
  · intro x _
    have hKeys : (round.supplies times node).map (·.1) =
        (node.overstocked round.view).map (·.1) := by
      simp [Round.supplies]
    unfold Quota.Leading
    rw [hKeys, List.pairwise_map]
    exact Node.pairwise_overstocked.imp fun h => significant_mono (le_refl _) h
  · have hOrder : (round.demands (node.starving round.view)).Pairwise fun x y =>
        round.view.get_request_rate y.1 ≤ round.view.get_request_rate x.1 :=
      Node.pairwise_starving.filter _
    exact hOrder.imp fun h _ => significant_mono h (le_refl _)
  · exact Nat.zero_le _

theorem rebalanced : Rebalanced round node times (round.rebalance node times) := by
  unfold Round.rebalance
  by_cases hQuiet : node.quiet round.view
  · rw [if_pos hQuiet]
    exact {
      sound := sound_start round node times
      exceeds := by
        unfold Round.Overflows
        rw [hQuiet]
        exact iff_of_false (Nat.not_lt_zero _) fun h => Bool.noConfusion h.1
      donors := by
        intro fid hGone
        rw [gone_start] at hGone
        exact absurd hGone (Nat.lt_irrefl 0)
      starving := fun p hp => absurd hp List.not_mem_nil }
  · rw [if_neg hQuiet]
    have hServed : Served round node times (node.starving round.view)
        (node.overstocked round.view) { last_swap_time := times }
        (round.serve node (node.starving round.view) (node.overstocked round.view)
          { last_swap_time := times }) :=
      served_serve Node.nodup_starving Node.nodup_overstocked (balanced_start round node times)
    exact {
      sound := hServed.sound (sound_start round node times)
      exceeds := by
        have hCount : _ = Quota.serve REBALANCE_MAX_SWAPS_PER_NODE (significant round.view)
          (round.demands (node.starving round.view)) (round.supplies times node) 0 :=
            supplies_start round node times ▸ hServed.count
        rw [hCount, serve_exceeds_iff]
        exact (and_iff_right (Bool.eq_false_iff.mpr hQuiet)).symm
      donors := by
        intro fid hGone
        by_cases hDonor : fid ∈ (node.overstocked round.view).map (·.1)
        · exact hServed.donor fid hDonor
        · rw [hServed.other fid hDonor, gone_start] at hGone
          exact absurd hGone (Nat.lt_irrefl 0)
      starving := by
        intro p hp
        have hSome : 0 < (round.serve node (node.starving round.view)
            (node.overstocked round.view) { last_swap_time := times }).brought p.starving_fid :=
          List.countP_pos_iff.mpr ⟨p, hp, decide_eq_true rfl⟩
        have hStarving : p.starving_fid ∈ (node.starving round.view).map (·.1) := by
          by_contra hNot
          rw [hServed.unbrought _ hNot] at hSome
          exact absurd hSome (Nat.lt_irrefl 0)
        obtain ⟨⟨fid, deficit⟩, hMem, hFid⟩ := List.mem_map.mp hStarving
        have hBrought := hServed.brought _ hMem
        rw [← hFid]
        exact ⟨deficit, hMem, hBrought.trans_eq (Nat.zero_add deficit)⟩ }

end Rounds

section Steps

variable {round : Round} {node : Node} {times times' : SwapTimes} {nodes : List Node}
  {progress : Progress} {step : SwapTimes × Node} {x : ContainerId × Container}

/-- Nothing is ready that was selected in the same round. -/
theorem not_mem_of_ready (hSound : progress.Sound round node times)
    (hReady : round.ready progress.last_swap_time x) : x.1 ∉ progress.selected_donors := by
  intro hSelected
  have hCool := of_decide_eq_true (Bool.and_eq_true_iff.mp hReady).2
  rw [hSound.swapped, if_pos hSelected, sub_self] at hCool
  exact absurd hCool (by unfold REBALANCE_COOLDOWN_S; norm_num)

/-- What is ready after a node was ready before it. -/
theorem ready_before (hSound : progress.Sound round node times)
    (hReady : round.ready progress.last_swap_time x) : round.ready times x := by
  have hSame : progress.last_swap_time.get x.1 0 = times.get x.1 0 := by
    rw [hSound.swapped, if_neg (not_mem_of_ready hSound hReady)]
  rw [← ready_congr hSame]
  exact hReady

theorem map_snd_steps : (round.steps times nodes).map (·.2) = nodes := by
  induction nodes generalizing times with
  | nil => rfl
  | cons node rest ih => exact congrArg (node :: ·) ih

/-- Whatever is proposed on a node was ready when the round began. -/
theorem idle_of_proposed {id : ContainerId} (hStep : step ∈ round.steps times nodes)
    (hId : id ∈ (round.rebalance step.2 step.1).selected_donors) :
    ∃ container, step.2.containers.find id = some container ∧
      round.ready times (id, container) := by
  induction nodes generalizing times with
  | nil => exact absurd hStep List.not_mem_nil
  | cons node rest ih =>
      rcases List.mem_cons.mp hStep with rfl | hStep
      · exact (rebalanced round node times).sound.idle id hId
      · obtain ⟨container, hFind, hReady⟩ := ih hStep
        exact ⟨container, hFind, ready_before (rebalanced round node times).sound hReady⟩

/-- What is proposed on later nodes is ready after the first one, and what was proposed there is
not. -/
theorem nodup_proposed : (((round.steps times nodes).flatMap fun step =>
    (round.rebalance step.2 step.1).candidates).map (·.donor_container_id)).Nodup := by
  induction nodes generalizing times with
  | nil => exact List.nodup_nil
  | cons node rest ih =>
      have hSound := (rebalanced round node times).sound
      rw [Round.steps, List.flatMap_cons, List.map_append, hSound.ids]
      apply hSound.once.append ih
      intro id hId hLater
      obtain ⟨p, hp, rfl⟩ := List.mem_map.mp hLater
      obtain ⟨step, hStep, hp⟩ := List.mem_flatMap.mp hp
      have hSelected : p.donor_container_id ∈
          (round.rebalance step.2 step.1).selected_donors := by
        rw [← (rebalanced round step.2 step.1).sound.ids]
        exact List.mem_map_of_mem hp
      obtain ⟨container, -, hReady⟩ := idle_of_proposed hStep hSelected
      exact not_mem_of_ready hSound hReady hId

/-- The proposals on a node are those that were made when the round came to it. -/
theorem perm_proposals_on (hStep : step ∈ round.steps times round.nodes) :
    (round.proposals_on times step.2).Perm (round.rebalance step.2 step.1).candidates := by
  have hNodes : ((round.steps times round.nodes).map (·.2.node_id)).Nodup := by
    have hIds := round.node_ids
    have hSame : (round.steps times round.nodes).map (·.2) = round.nodes := map_snd_steps
    rw [← hSame, List.map_map] at hIds
    exact hIds
  have hKey : ∀ step ∈ round.steps times round.nodes,
      ∀ p ∈ (round.rebalance step.2 step.1).candidates, p.node_id = step.2.node_id :=
    fun step _ => (rebalanced round step.2 step.1).sound.node_id
  have hOwn := filter_flatMap_of_key hKey hNodes hStep
  rw [← hOwn]
  exact (List.perm_insertionSort _ _).filter _

theorem exists_step (times : SwapTimes) (hNode : node ∈ round.nodes) :
    ∃ times', (times', node) ∈ round.steps times round.nodes := by
  have hSame : (round.steps times round.nodes).map (·.2) = round.nodes := map_snd_steps
  rw [← hSame] at hNode
  obtain ⟨step, hStep, rfl⟩ := List.mem_map.mp hNode
  exact ⟨step.1, hStep⟩

theorem node_mem (hStep : step ∈ round.steps times nodes) : step.2 ∈ nodes := by
  have hSame : (round.steps times nodes).map (·.2) = nodes := map_snd_steps
  rw [← hSame]
  exact List.mem_map_of_mem hStep

theorem length_proposals_on (hStep : step ∈ round.steps times round.nodes) :
    (round.proposals_on times step.2).length =
      (round.rebalance step.2 step.1).node_swap_count := by
  rw [(perm_proposals_on hStep).length_eq, (rebalanced round step.2 step.1).sound.count]

theorem taken_eq (hStep : step ∈ round.steps times round.nodes) (fid : FunctionId) :
    round.taken times step.2 fid = (round.rebalance step.2 step.1).gone step.2 fid := by
  have hIds : ∀ id, id ∈ (round.proposals_on times step.2).map (·.donor_container_id) ↔
      id ∈ (round.rebalance step.2 step.1).selected_donors := by
    intro id
    rw [((perm_proposals_on hStep).map _).mem_iff, (rebalanced round step.2 step.1).sound.ids]
  unfold Round.taken Progress.gone
  simp only [hIds]

end Steps

section Separate

variable {round : Round} {node : Node} {times times' : SwapTimes} {nodes : List Node}
  {step : SwapTimes × Node}

/-- Only the swap times of the node's own containers count. -/
theorem overflows_congr
    (hSame : ∀ id ∈ node.containers.keys, times.get id 0 = times'.get id 0) :
    round.Overflows times node ↔ round.Overflows times' node := by
  have hReady : ∀ fid, (node.containers_of fid).countP (round.ready times) =
      (node.containers_of fid).countP (round.ready times') := by
    intro fid
    apply List.countP_congr
    intro x hx
    have hFind := (Node.mem_containers_of.mp hx).1
    have hKey : x.1 ∈ node.containers.keys :=
      (node.containers.mem_keys x.1).mpr (by rw [hFind]; rfl)
    rw [ready_congr (hSame x.1 hKey)]
  unfold Round.Overflows Round.supplies
  simp only [hReady]

/-- Where no container is on two nodes, the round comes to a node with its swap times unchanged. -/
theorem get_step_times (hSeparate : (nodes.flatMap (·.containers.keys)).Nodup)
    (hStep : step ∈ round.steps times nodes) :
    ∀ id ∈ step.2.containers.keys, step.1.get id 0 = times.get id 0 := by
  induction nodes generalizing times with
  | nil => exact absurd hStep List.not_mem_nil
  | cons node rest ih =>
      intro id hId
      rw [List.flatMap_cons, List.nodup_append] at hSeparate
      obtain ⟨-, hRest, hDisjoint⟩ := hSeparate
      rcases List.mem_cons.mp hStep with rfl | hStep
      · rfl
      · have hSound := (rebalanced round node times).sound
        have hOther : id ∉ (round.rebalance node times).selected_donors := by
          intro hSelected
          obtain ⟨container, hFind, -⟩ := hSound.idle id hSelected
          have hKey : id ∈ node.containers.keys :=
            (node.containers.mem_keys id).mpr (by rw [hFind]; rfl)
          exact hDisjoint id hKey id (List.mem_flatMap.mpr ⟨step.2, node_mem hStep, hId⟩) rfl
        rw [ih hRest hStep id hId, hSound.swapped, if_neg hOther]

/-- Where no container is on two nodes, the swap times of earlier rounds decide about all nodes. -/
theorem no_overflow_iff_of_separate
    (hSeparate : (round.nodes.flatMap (·.containers.keys)).Nodup) :
    (∀ step ∈ round.steps times round.nodes, ¬round.Overflows step.1 step.2) ↔
      ∀ node ∈ round.nodes, ¬round.Overflows times node := by
  constructor
  · intro h node hNode
    obtain ⟨times', hStep⟩ := exists_step times hNode
    exact mt (overflows_congr (get_step_times hSeparate hStep)).mpr (h _ hStep)
  · intro h step hStep
    exact mt (overflows_congr (get_step_times hSeparate hStep)).mp (h _ (node_mem hStep))

end Separate

section Runs

theorem size_mb_adapter_nonneg : (0 : ℚ) ≤ 100 := by norm_num

theorem nodup_no_nodes : (([] : List WorkerNode).map (·.node_id)).Nodup := .nil

def adapter : Artifact where
  artifact_id := "adapter_a"
  artifact_type := .adapter
  size_mb := 100
  loading_delay_ms := 500
  size_nonneg := size_mb_adapter_nonneg

/-- One container of a function that requests wait for, and idle ones of two other functions. -/
def crowded : Node where
  node_id := "node"
  containers :=
    let idle (fid : FunctionId) : Container := { function_id := some fid }
    (((((OrderedDict.empty.set "a0" { function_id := some "a", pending_requests := 2 }).set "b0"
      (idle "b")).set "b1" (idle "b")).set "b2" (idle "b")).set "c0" (idle "c")).set "c1" (idle "c")

def first_round : Round where
  registry := { artifacts := [adapter], nodes := [], artifact_ids := by decide, node_ids := nodup_no_nodes }
  view :=
    { functions := [{ function_id := "a", required_artifacts := ["adapter_a"] }]
      get_request_rate := fun fid => if fid = "a" then 1 else 1 / 10 }
  nodes := [crowded]
  now := 100
  node_ids := by decide

end Runs

end Serverless.Rebalancing
