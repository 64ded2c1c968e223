import SwarmLoRA.Serverless.Rebalancing

namespace Serverless.Rebalancing

open Data

section Shares

/-- The keys that are kept. -/
theorem map_fst_filterMap {κ α : Type} {keys : List κ} {p : κ → Prop} [DecidablePred p]
    {value : κ → α} :
    (keys.filterMap fun k => if p k then some (k, value k) else none).map (·.1) =
      keys.filter p := by
  induction keys with
  | nil => rfl
  | cons k keys ih =>
      by_cases hk : p k
      · simp [hk, ih]
      · simp [hk, ih]

/-- What is kept, with its value. -/
theorem mem_filterMap_iff {κ α : Type} {keys : List κ} {p : κ → Prop} [DecidablePred p]
    {value : κ → α} {x : κ × α} :
    (x ∈ keys.filterMap fun k => if p k then some (k, value k) else none) ↔
      x.1 ∈ keys ∧ p x.1 ∧ value x.1 = x.2 := by
  obtain ⟨k, v⟩ := x
  simp only [List.mem_filterMap, Option.ite_none_right_eq_some, Option.some.injEq, Prod.mk.injEq]
  constructor
  · rintro ⟨k', hMem, hk, rfl, hv⟩
    exact ⟨hMem, hk, hv⟩
  · rintro ⟨hMem, hk, hv⟩
    exact ⟨k, hMem, hk, rfl, hv⟩

namespace Node

variable {node : Node} {view : View} {fid fid' : FunctionId} {x y : ContainerId × Container}

/-- The containers of a node that serve a function. -/
theorem mem_containers_of :
    x ∈ node.containers_of fid ↔ node.containers.find x.1 = some x.2 ∧
      x.2.function_id.filter (· ≠ "") = some fid := by
  unfold containers_of func_containers
  rw [OrderedDict.get_group, List.mem_filter, decide_eq_true_eq, ← OrderedDict.mem_items]

/-- No container is listed twice. -/
theorem nodup_containers_of : ((node.containers_of fid).map (·.1)).Nodup := by
  have hKeys : (node.containers.items.map (·.1)).Nodup := by
    rw [OrderedDict.map_fst_items]
    exact node.containers.nodup
  unfold containers_of func_containers
  rw [OrderedDict.get_group]
  exact hKeys.sublist (List.filter_sublist.map _)

/-- A container belongs to one function. -/
theorem eq_of_container (hx : x ∈ node.containers_of fid) (hy : y ∈ node.containers_of fid')
    (hSame : x.1 = y.1) : fid = fid' := by
  obtain ⟨hFind, hFunction⟩ := mem_containers_of.mp hx
  obtain ⟨hFind', hFunction'⟩ := mem_containers_of.mp hy
  rw [hSame, hFind'] at hFind
  rw [Option.some.inj hFind, hFunction] at hFunction'
  exact Option.some.inj hFunction'

/-- No function starves twice. -/
theorem nodup_starving : ((node.starving view).map (·.1)).Nodup := by
  unfold starving
  rw [((List.perm_insertionSort _ _).map _).nodup_iff, map_fst_filterMap]
  exact node.func_containers.nodup.filter _

/-- No function has too many containers twice. -/
theorem nodup_overstocked : ((node.overstocked view).map (·.1)).Nodup := by
  unfold overstocked
  rw [((List.perm_insertionSort _ _).map _).nodup_iff, map_fst_filterMap]
  exact node.func_containers.nodup.filter _

/-- Those with the greatest demand come first. -/
theorem pairwise_starving : (node.starving view).Pairwise fun x y =>
    view.get_request_rate y.1 ≤ view.get_request_rate x.1 := by
  have : Std.Total fun x y : FunctionId × Nat =>
    view.get_request_rate y.1 ≤ view.get_request_rate x.1 := ⟨fun _ _ => le_total _ _⟩
  have : IsTrans (FunctionId × Nat) fun x y =>
    view.get_request_rate y.1 ≤ view.get_request_rate x.1 := ⟨fun _ _ _ hxy hyz => hyz.trans hxy⟩
  exact List.pairwise_insertionSort _ _

/-- Those with the least demand come first. -/
theorem pairwise_overstocked : (node.overstocked view).Pairwise fun x y =>
    view.get_request_rate x.1 ≤ view.get_request_rate y.1 := by
  have : Std.Total fun x y : FunctionId × Nat =>
    view.get_request_rate x.1 ≤ view.get_request_rate y.1 := ⟨fun _ _ => le_total _ _⟩
  have : IsTrans (FunctionId × Nat) fun x y =>
    view.get_request_rate x.1 ≤ view.get_request_rate y.1 := ⟨fun _ _ _ hxy hyz => hxy.trans hyz⟩
  exact List.pairwise_insertionSort _ _

/-- A donor that gives its surplus away keeps the minimum. -/
theorem surplus_le {surplus : Nat} (hMem : (fid, surplus) ∈ node.overstocked view) :
    surplus + REBALANCE_MIN_CONTAINERS_PER_FUNCTION ≤ node.actual fid := by
  unfold overstocked at hMem
  rw [List.mem_insertionSort, mem_filterMap_iff] at hMem
  obtain ⟨-, ⟨hMore, -⟩, hSurplus⟩ := hMem
  have hMin : REBALANCE_MIN_CONTAINERS_PER_FUNCTION ≤ node.desired view fid := Nat.le_max_left _ _
  have hSurplus : node.actual fid - node.desired view fid = surplus := hSurplus
  have hMore : node.desired view fid < node.actual fid := hMore
  omega

end Node

/-- Where a rate is significantly higher, so is a higher one than a lower one. -/
theorem significant_mono {view : View} {s s' d d' : FunctionId}
    (hStarving : view.get_request_rate s ≤ view.get_request_rate s')
    (hDonor : view.get_request_rate d' ≤ view.get_request_rate d)
    (h : significant view s d) : significant view s' d' := by
  unfold significant REBALANCE_RATE_RATIO_THRESHOLD at h ⊢
  simp only [Bool.and_eq_true, Bool.not_eq_true', decide_eq_false_iff_not, not_lt] at h ⊢
  obtain ⟨hRatio, hDiff⟩ := h
  constructor
  · linarith
  · linarith

end Shares

section Ledger

/-- A predicate that no longer holds of one element and is the same for all others. -/
theorem countP_of_change {κ α : Type} {l : List (κ × α)} (hNodup : (l.map (·.1)).Nodup)
    {x : κ × α} (hx : x ∈ l) {p q : κ × α → Bool} (hp : p x) (hq : q x = false)
    (hOther : ∀ y, y.1 ≠ x.1 → p y = q y) : l.countP p = l.countP q + 1 := by
  induction l with
  | nil => exact absurd hx List.not_mem_nil
  | cons y l ih =>
      obtain ⟨hNew, hNodup⟩ := List.nodup_cons.mp hNodup
      rcases List.mem_cons.mp hx with rfl | hx
      · have hRest : l.countP p = l.countP q := by
          apply List.countP_congr
          intro z hz
          have hNe : z.1 ≠ x.1 := fun hSame => hNew (List.mem_map.mpr ⟨z, hz, hSame⟩)
          rw [hOther z hNe]
        rw [List.countP_cons_of_pos hp, List.countP_cons_of_neg (by simp [hq]), hRest]
      · have hNe : y.1 ≠ x.1 := fun hSame => hNew (List.mem_map.mpr ⟨x, hx, hSame.symm⟩)
        rw [List.countP_cons, List.countP_cons, hOther y hNe, ih hNodup hx]
        omega

variable (round : Round) (node : Node) (times : SwapTimes)

namespace Progress

variable (progress : Progress)

/-- The container may be given away in this round. -/
def eligible (x : ContainerId × Container) : Bool :=
  decide (x.1 ∉ progress.selected_donors) && round.ready progress.last_swap_time x

/-- The containers of a function that can be donated. -/
def free (fid : FunctionId) : Nat :=
  (node.containers_of fid).countP (progress.eligible round)

/-- The containers of a function that are selected. -/
def gone (fid : FunctionId) : Nat :=
  (node.containers_of fid).countP fun x => x.1 ∈ progress.selected_donors

/-- The containers that have been proposed for the function. -/
def brought (fid : FunctionId) : Nat := progress.candidates.countP (·.starving_fid = fid)

/-- What holds of the progress on a node that the round has come to with some swap times: the
proposals, the donors, the count and the times tell the same story. -/
structure Sound : Prop where
  ids : progress.candidates.map (·.donor_container_id) = progress.selected_donors
  once : progress.selected_donors.Nodup
  count : progress.node_swap_count = progress.candidates.length
  node_id : ∀ p ∈ progress.candidates, p.node_id = node.node_id
  swapped : ∀ id, progress.last_swap_time.get id 0 =
    if id ∈ progress.selected_donors then round.now else times.get id 0
  idle : ∀ id ∈ progress.selected_donors, ∃ container,
    node.containers.find id = some container ∧ round.ready times (id, container)

end Progress

/-- From one turn to another some containers of a donor have gone to a starving function, and what
the one can spare and the other lacks has gone down by as many. -/
structure Gives (starving_fid donor_fid : FunctionId) (k : Nat) (turn turn' : Turn) : Prop where
  sound : turn.progress.Sound round node times → turn'.progress.Sound round node times
  deficit : turn'.deficit + k = turn.deficit
  surplus : turn'.surplus + k = turn.surplus
  count : turn'.progress.node_swap_count = turn.progress.node_swap_count + k
  free : ∀ fid, turn'.progress.free round node fid + (if fid = donor_fid then k else 0) =
    turn.progress.free round node fid
  gone : ∀ fid, turn'.progress.gone node fid =
    turn.progress.gone node fid + if fid = donor_fid then k else 0
  brought : ∀ fid, turn'.progress.brought fid =
    turn.progress.brought fid + if fid = starving_fid then k else 0

variable {round node times} {progress : Progress} {proposal : Proposal}
  {x : ContainerId × Container} {s d : FunctionId} {k k' : Nat} {turn turn' turn'' : Turn}

/-- A container may be given away if it has not been, is idle, and was not swapped a short time
ago. -/
theorem eligible_iff : progress.eligible round x ↔ x.1 ∉ progress.selected_donors ∧
    x.2.pending_requests = 0 ∧
      REBALANCE_COOLDOWN_S ≤ round.now - progress.last_swap_time.get x.1 0 := by
  simp [Progress.eligible, Round.ready]

/-- Only the time of the container's own last swap counts. -/
theorem ready_congr {times' : SwapTimes} (hSame : times.get x.1 0 = times'.get x.1 0) :
    round.ready times x = round.ready times' x := by
  unfold Round.ready
  rw [hSame]

/-- Giving nothing changes nothing. -/
theorem Gives.refl (turn : Turn) : Gives round node times s d 0 turn turn where
  sound := id
  deficit := rfl
  surplus := rfl
  count := rfl
  free _ := by simp
  gone _ := by simp
  brought _ := by simp

/-- What the donor has given it no longer has to give. -/
theorem Gives.free_donor (h : Gives round node times s d k turn turn') :
    turn'.progress.free round node d + k = turn.progress.free round node d := by
  have hFree := h.free d
  rwa [if_pos rfl] at hFree

/-- The others still have what they had. -/
theorem Gives.free_other (h : Gives round node times s d k turn turn') {fid : FunctionId}
    (hNe : fid ≠ d) : turn'.progress.free round node fid = turn.progress.free round node fid := by
  have hFree := h.free fid
  rwa [if_neg hNe] at hFree

/-- What has gone from the donor is what it has given. -/
theorem Gives.gone_donor (h : Gives round node times s d k turn turn') :
    turn'.progress.gone node d = turn.progress.gone node d + k := by
  rw [h.gone, if_pos rfl]

/-- Nothing has gone from the others. -/
theorem Gives.gone_other (h : Gives round node times s d k turn turn') {fid : FunctionId}
    (hNe : fid ≠ d) : turn'.progress.gone node fid = turn.progress.gone node fid := by
  rw [h.gone, if_neg hNe, Nat.add_zero]

/-- Two gifts make one. -/
theorem Gives.trans (h : Gives round node times s d k turn turn')
    (h' : Gives round node times s d k' turn' turn'') :
    Gives round node times s d (k + k') turn turn'' where
  sound := h'.sound ∘ h.sound
  deficit := by rw [← h.deficit, ← h'.deficit]; omega
  surplus := by rw [← h.surplus, ← h'.surplus]; omega
  count := by rw [h'.count, h.count]; omega
  free fid := by rw [← h.free, ← h'.free]; split <;> omega
  gone fid := by rw [h'.gone, h.gone]; split <;> omega
  brought fid := by rw [h'.brought, h.brought]; split <;> omega

/-- A container that has not been selected is as it was when the round came to the node. -/
theorem Progress.Sound.ready (h : progress.Sound round node times)
    (hx : progress.eligible round x) : round.ready times x := by
  have hNew := (eligible_iff.mp hx).1
  have hSame : progress.last_swap_time.get x.1 0 = times.get x.1 0 := by
    rw [h.swapped, if_neg hNew]
  rw [← ready_congr hSame]
  exact (Bool.and_eq_true_iff.mp hx).2

/-- A proposal for a container that may be given away is sound. -/
theorem Progress.Sound.select (h : progress.Sound round node times)
    (hFind : node.containers.find x.1 = some x.2) (hx : progress.eligible round x)
    (hId : proposal.donor_container_id = x.1) (hNode : proposal.node_id = node.node_id) :
    (progress.select round.now proposal).Sound round node times where
  ids := by simp [Progress.select, h.ids]
  once := by
    have hNew : proposal.donor_container_id ∉ progress.selected_donors :=
      hId ▸ (eligible_iff.mp hx).1
    exact h.once.append (List.nodup_singleton _) (List.disjoint_singleton.mpr hNew)
  count := by simp [Progress.select, h.count]
  node_id := by
    intro p hp
    rcases List.mem_append.mp hp with hp | hp
    · exact h.node_id p hp
    · rw [List.mem_singleton.mp hp, hNode]
  swapped id := by
    show (progress.last_swap_time.set proposal.donor_container_id round.now).get id 0 = _
    rw [OrderedDict.get_set, h.swapped]
    by_cases hSame : id = proposal.donor_container_id
    · simp [Progress.select, hSame]
    · simp [Progress.select, hSame]
  idle := by
    intro id hid
    rcases List.mem_append.mp hid with hid | hid
    · exact h.idle id hid
    · rw [List.mem_singleton.mp hid, hId]
      exact ⟨x.2, hFind, h.ready hx⟩

/-- Selecting changes nothing for the other containers. -/
theorem eligible_select (hId : proposal.donor_container_id = x.1)
    {y : ContainerId × Container} (hNe : y.1 ≠ x.1) :
    progress.eligible round y = (progress.select round.now proposal).eligible round y := by
  have hTime : progress.last_swap_time.get y.1 0 =
      (progress.last_swap_time.set proposal.donor_container_id round.now).get y.1 0 := by
    rw [OrderedDict.get_set, hId, if_neg hNe]
  unfold Progress.eligible
  rw [ready_congr hTime]
  simp [Progress.select, hId, hNe]

section Donor

variable (hMem : x ∈ node.containers_of d) (hx : progress.eligible round x)
  (hId : proposal.donor_container_id = x.1)

include hMem hx hId

/-- A proposal takes one container away from what its function has to give. -/
theorem free_select (fid : FunctionId) :
    (progress.select round.now proposal).free round node fid + (if fid = d then 1 else 0) =
      progress.free round node fid := by
  have hOther : ∀ y : ContainerId × Container, y.1 ≠ x.1 → progress.eligible round y =
      (progress.select round.now proposal).eligible round y := fun _ => eligible_select hId
  by_cases hFid : fid = d
  · subst hFid
    have hSelected : (progress.select round.now proposal).eligible round x = false := by
      simp [Progress.eligible, Progress.select, hId]
    rw [if_pos rfl]
    exact (countP_of_change Node.nodup_containers_of hMem hx hSelected hOther).symm
  · rw [if_neg hFid]
    apply List.countP_congr
    intro y hy
    rw [hOther y fun hSame => hFid (Node.eq_of_container hy hMem hSame)]

/-- And adds one to what has gone from it. -/
theorem gone_select (fid : FunctionId) :
    (progress.select round.now proposal).gone node fid =
      progress.gone node fid + if fid = d then 1 else 0 := by
  have hOther : ∀ y : ContainerId × Container, y.1 ≠ x.1 →
      decide (y.1 ∈ (progress.select round.now proposal).selected_donors) =
        decide (y.1 ∈ progress.selected_donors) := by
    intro y hNe
    simp [Progress.select, hId, hNe]
  by_cases hFid : fid = d
  · subst hFid
    have hSelected : decide (x.1 ∈ (progress.select round.now proposal).selected_donors) := by
      simp [Progress.select, hId]
    have hNew : decide (x.1 ∈ progress.selected_donors) = false :=
      decide_eq_false (eligible_iff.mp hx).1
    rw [if_pos rfl]
    exact countP_of_change Node.nodup_containers_of hMem hSelected hNew hOther
  · rw [if_neg hFid]
    apply List.countP_congr
    intro y hy
    rw [hOther y fun hSame => hFid (Node.eq_of_container hy hMem hSame)]

end Donor

/-- A container goes to the starving function. -/
theorem gives_give (hMem : x ∈ node.containers_of d) (hx : turn.progress.eligible round x)
    (hId : proposal.donor_container_id = x.1) (hNode : proposal.node_id = node.node_id)
    (hStarving : proposal.starving_fid = s) (hDeficit : turn.deficit ≠ 0)
    (hSurplus : turn.surplus ≠ 0) :
    Gives round node times s d 1 turn (turn.give round.now proposal) where
  sound h := h.select (Node.mem_containers_of.mp hMem).1 hx hId hNode
  deficit := Nat.sub_add_cancel (Nat.pos_of_ne_zero hDeficit)
  surplus := Nat.sub_add_cancel (Nat.pos_of_ne_zero hSurplus)
  count := rfl
  free := free_select hMem hx hId
  gone := gone_select hMem hx hId
  brought fid := by
    show (turn.progress.candidates ++ [proposal]).countP _ = _
    rw [List.countP_append, List.countP_singleton, hStarving]
    simp [Progress.brought, eq_comm]

section Loop

variable {propose : ContainerId → Proposal} {rest : List (ContainerId × Container)}

/-- The loop over the containers of a donor looks at the first one and goes on. -/
theorem donate_cons : donate round.now propose (node.containers_of d) (x :: rest) turn =
    if turn.deficit = 0 ∨ turn.surplus = 0 then turn
    else if x.1 ∈ turn.progress.selected_donors then
      donate round.now propose (node.containers_of d) rest turn
    else if node.actual d - turn.progress.gone node d ≤ REBALANCE_MIN_CONTAINERS_PER_FUNCTION then
      turn
    else if 0 < x.2.pending_requests then
      donate round.now propose (node.containers_of d) rest turn
    else if round.now - turn.progress.last_swap_time.get x.1 0 < REBALANCE_COOLDOWN_S then
      donate round.now propose (node.containers_of d) rest turn
    else if REBALANCE_MAX_SWAPS_PER_NODE ≤ turn.progress.node_swap_count + 1 then
      turn.give round.now (propose x.1)
    else donate round.now propose (node.containers_of d) rest
      (turn.give round.now (propose x.1)) := rfl

/-- Nothing more is given when there is no deficit or no surplus left. -/
theorem donate_done (l : List (ContainerId × Container))
    (hDone : turn.deficit = 0 ∨ turn.surplus = 0) :
    donate round.now propose (node.containers_of d) l turn = turn := by
  cases l with
  | nil => rfl
  | cons x rest => exact if_pos hDone

/-- A container that is not eligible is passed over. -/
theorem donate_skip (hMore : ¬(turn.deficit = 0 ∨ turn.surplus = 0))
    (hCount : ¬node.actual d - turn.progress.gone node d ≤ REBALANCE_MIN_CONTAINERS_PER_FUNCTION)
    (hNot : ¬turn.progress.eligible round x) :
    donate round.now propose (node.containers_of d) (x :: rest) turn =
      donate round.now propose (node.containers_of d) rest turn := by
  rw [donate_cons, if_neg hMore]
  by_cases hOld : x.1 ∈ turn.progress.selected_donors
  · rw [if_pos hOld]
  · rw [if_neg hOld, if_neg hCount]
    by_cases hBusy : 0 < x.2.pending_requests
    · rw [if_pos hBusy]
    · rw [if_neg hBusy, if_pos]
      by_contra hCool
      exact hNot (eligible_iff.mpr ⟨hOld, Nat.eq_zero_of_not_pos hBusy, not_lt.mp hCool⟩)

/-- A container is given if it may be and its function keeps enough. -/
theorem donate_give (hMore : ¬(turn.deficit = 0 ∨ turn.surplus = 0))
    (hCount : ¬node.actual d - turn.progress.gone node d ≤ REBALANCE_MIN_CONTAINERS_PER_FUNCTION)
    (hx : turn.progress.eligible round x) :
    donate round.now propose (node.containers_of d) (x :: rest) turn =
      if REBALANCE_MAX_SWAPS_PER_NODE ≤ turn.progress.node_swap_count + 1 then
        turn.give round.now (propose x.1)
      else donate round.now propose (node.containers_of d) rest
        (turn.give round.now (propose x.1)) := by
  obtain ⟨hNew, hIdle, hCool⟩ := eligible_iff.mp hx
  have hFree : ¬0 < x.2.pending_requests := hIdle.not_gt
  rw [donate_cons, if_neg hMore, if_neg hNew, if_neg hCount, if_neg hFree,
    if_neg (not_lt.mpr hCool)]

/-- The containers of a donor go as the source hands over what it has, as far as they are eligible
and the surplus lasts. -/
theorem gives_donate (s : FunctionId) (adapter_artifact : Artifact)
    {l : List (ContainerId × Container)}
    (hMem : ∀ x ∈ l, x ∈ node.containers_of d) (hNodup : (l.map (·.1)).Nodup)
    (hMin : turn.surplus + turn.progress.gone node d + REBALANCE_MIN_CONTAINERS_PER_FUNCTION ≤
      node.actual d) :
    Gives round node times s d
      (Quota.portion REBALANCE_MAX_SWAPS_PER_NODE turn.progress.node_swap_count turn.deficit
        (min turn.surplus (l.countP (turn.progress.eligible round))))
      turn (donate round.now (round.propose node s adapter_artifact d) (node.containers_of d) l
        turn) := by
  induction l generalizing turn with
  | nil =>
      rw [List.countP_nil, Nat.min_zero, Quota.portion_eq_zero (.inr rfl)]
      exact .refl turn
  | cons x rest ih =>
      have hRest : ∀ y ∈ rest, y ∈ node.containers_of d := fun y hy =>
        hMem y (List.mem_cons_of_mem x hy)
      obtain ⟨hNew, hNodup⟩ := List.nodup_cons.mp hNodup
      by_cases hMore : turn.deficit = 0 ∨ turn.surplus = 0
      · rw [donate_done _ hMore, Quota.portion_eq_zero (by omega)]
        exact .refl turn
      · obtain ⟨hDeficit, hSurplus⟩ := not_or.mp hMore
        -- a donor with some surplus has more than the minimum
        have hCount : ¬node.actual d - turn.progress.gone node d ≤
          REBALANCE_MIN_CONTAINERS_PER_FUNCTION := by omega
        by_cases hx : turn.progress.eligible round x
        · set proposal := round.propose node s adapter_artifact d x.1
          have hGive : Gives round node times s d 1 turn (turn.give round.now proposal) :=
            gives_give (hMem x List.mem_cons_self) hx rfl rfl rfl hDeficit hSurplus
          have hSame : rest.countP (turn.progress.eligible round) =
              rest.countP ((turn.give round.now proposal).progress.eligible round) := by
            apply List.countP_congr
            intro y hy
            have hNe : y.1 ≠ x.1 := fun hSame => hNew (List.mem_map.mpr ⟨y, hy, hSame⟩)
            have hEligible : turn.progress.eligible round y =
                (turn.progress.select round.now proposal).eligible round y :=
              eligible_select rfl hNe
            rw [hEligible]
            rfl
          have hLeft : (turn.give round.now proposal).surplus +
              (turn.give round.now proposal).progress.gone node d +
                REBALANCE_MIN_CONTAINERS_PER_FUNCTION ≤ node.actual d := by
            have hLess := hGive.surplus
            rw [hGive.gone_donor]
            omega
          rw [List.countP_cons_of_pos hx, donate_give hMore hCount hx, hSame,
            Quota.portion_succ hDeficit hSurplus]
          split
          · exact hGive
          · exact hGive.trans (ih hRest hNodup hLeft)
        · rw [List.countP_cons_of_neg hx, donate_skip hMore hCount hx]
          exact ih hRest hNodup hMin

/-- In its turn a donor hands over what a source does. -/
theorem gives_turn (turn : Turn) (s : FunctionId) (adapter_artifact : Artifact)
    (hMin : turn.surplus + turn.progress.gone node d + REBALANCE_MIN_CONTAINERS_PER_FUNCTION ≤
      node.actual d) :
    Gives round node times s d
      (Quota.portion REBALANCE_MAX_SWAPS_PER_NODE turn.progress.node_swap_count turn.deficit
        (min turn.surplus (turn.progress.free round node d)))
      turn (donate round.now (round.propose node s adapter_artifact d) (node.containers_of d)
        (node.containers_of d) turn) :=
  gives_donate s adapter_artifact (fun _ hx => hx) Node.nodup_containers_of hMin

end Loop

end Ledger

section Passes

variable (round : Round) (node : Node) (times : SwapTimes)

/-- The donors with what they can hand over. -/
def Progress.supplies (progress : Progress) (l : List (FunctionId × Nat)) :
    List (FunctionId × Nat) :=
  l.map fun x => (x.1, min x.2 (progress.free round node x.1))

/-- With their surpluses gone the donors still have the minimum. -/
def Progress.Balanced (progress : Progress) (l : List (FunctionId × Nat)) : Prop :=
  ∀ x ∈ l, x.2 + progress.gone node x.1 + REBALANCE_MIN_CONTAINERS_PER_FUNCTION ≤ node.actual x.1

/-- The donors' turns for a starving function are those of the sources for a demand. -/
structure Passed (s : FunctionId) (l : List (FunctionId × Nat)) (progress : Progress)
    (deficit : Nat) (after : Pass) : Prop where
  sound : progress.Sound round node times → after.progress.Sound round node times
  keys : after.overstocked.map (·.1) = l.map (·.1)
  quota : Quota.pass REBALANCE_MAX_SWAPS_PER_NODE (significant round.view s)
      (progress.supplies round node l) deficit progress.node_swap_count =
    ⟨after.progress.supplies round node after.overstocked, after.deficit,
      after.progress.node_swap_count⟩
  balanced : after.progress.Balanced node after.overstocked
  free : ∀ fid ∉ l.map (·.1), after.progress.free round node fid = progress.free round node fid
  gone : ∀ fid ∉ l.map (·.1), after.progress.gone node fid = progress.gone node fid
  brought : ∀ fid, after.progress.brought fid + (if fid = s then after.deficit else 0) =
    progress.brought fid + if fid = s then deficit else 0

variable {round node times} {s d : FunctionId} {l rest : List (FunctionId × Nat)}
  {progress : Progress} {deficit surplus k : Nat} {turn : Turn} {after : Pass}
  {adapter_artifact : Artifact}

/-- No donor hands anything over. -/
theorem passed_self
    (hQuota : Quota.pass REBALANCE_MAX_SWAPS_PER_NODE (significant round.view s)
        (progress.supplies round node l) deficit progress.node_swap_count =
      ⟨progress.supplies round node l, deficit, progress.node_swap_count⟩)
    (hBalanced : progress.Balanced node l) :
    Passed round node times s l progress deficit ⟨progress, deficit, l⟩ where
  sound := id
  keys := rfl
  quota := hQuota
  balanced := hBalanced
  free _ _ := rfl
  gone _ _ := rfl
  brought _ := rfl

/-- The turn of one donor and the turns of the rest are what the quota's sources do. -/
theorem passed_cons (hNew : d ∉ rest.map (·.1))
    (hGives : Gives round node times s d k ⟨progress, deficit, surplus⟩ turn)
    (hk : k = if significant round.view s d then
      Quota.portion REBALANCE_MAX_SWAPS_PER_NODE progress.node_swap_count deficit
        (min surplus (progress.free round node d)) else 0)
    (hMin : surplus + progress.gone node d + REBALANCE_MIN_CONTAINERS_PER_FUNCTION ≤ node.actual d)
    (hAfter : Passed round node times s rest turn.progress turn.deficit after) :
    Passed round node times s ((d, surplus) :: rest) progress deficit
      { after with overstocked := (d, turn.surplus) :: after.overstocked } where
  sound := hAfter.sound ∘ hGives.sound
  keys := congrArg (d :: ·) hAfter.keys
  quota := by
    have hDeficit : deficit - k = turn.deficit := by
      have h : turn.deficit + k = deficit := hGives.deficit
      omega
    have hCount : progress.node_swap_count + k = turn.progress.node_swap_count :=
      hGives.count.symm
    have hSupplies : progress.supplies round node rest =
        turn.progress.supplies round node rest := by
      apply List.map_congr_left
      intro x hx
      have hNe : x.1 ≠ d := fun hSame => hNew (List.mem_map.mpr ⟨x, hx, hSame⟩)
      rw [hGives.free_other hNe]
    have hHead : min surplus (progress.free round node d) - k =
        min turn.surplus (after.progress.free round node d) := by
      have hSurplus : turn.surplus + k = surplus := hGives.surplus
      have hFree : turn.progress.free round node d + k = progress.free round node d :=
        hGives.free_donor
      rw [hAfter.free d hNew]
      omega
    show Quota.pass _ _ ((d, min surplus (progress.free round node d)) ::
      progress.supplies round node rest) _ _ = _
    simp only [Quota.pass, ← hk, hDeficit, hCount, hSupplies, hAfter.quota, hHead]
    rfl
  balanced := by
    intro x hx
    rcases List.mem_cons.mp hx with rfl | hx
    · have hSurplus : turn.surplus + k = surplus := hGives.surplus
      have hGone : turn.progress.gone node d = progress.gone node d + k := hGives.gone_donor
      show turn.surplus + after.progress.gone node d + _ ≤ node.actual d
      rw [hAfter.gone d hNew]
      omega
    · exact hAfter.balanced x hx
  free fid hFid := by
    obtain ⟨hNe, hRest⟩ := not_or.mp (mt List.mem_cons.mpr hFid)
    exact (hAfter.free fid hRest).trans (hGives.free_other hNe)
  gone fid hFid := by
    obtain ⟨hNe, hRest⟩ := not_or.mp (mt List.mem_cons.mpr hFid)
    exact (hAfter.gone fid hRest).trans (hGives.gone_other hNe)
  brought fid := by
    have hDeficit : turn.deficit + k = deficit := hGives.deficit
    have hBrought : turn.progress.brought fid = progress.brought fid + if fid = s then k else 0 :=
      hGives.brought fid
    have hRest := hAfter.brought fid
    by_cases hFid : fid = s
    · simp only [if_pos hFid] at hBrought hRest ⊢
      show after.progress.brought fid + after.deficit = _
      omega
    · simp only [if_neg hFid] at hBrought hRest ⊢
      exact hRest.trans hBrought

/-- No donor's turn changes what the other donors have. -/
theorem passed_pair (hNodup : (l.map (·.1)).Nodup) (hBalanced : progress.Balanced node l) :
    Passed round node times s l progress deficit
      (round.pair node s adapter_artifact l progress deficit) := by
  induction l generalizing progress deficit with
  | nil =>
      exact passed_self rfl hBalanced
  | cons x rest ih =>
      obtain ⟨d, surplus⟩ := x
      obtain ⟨hNew, hNodup⟩ := List.nodup_cons.mp hNodup
      obtain ⟨hMin, hRest⟩ := List.forall_mem_cons.mp hBalanced
      unfold Round.pair
      by_cases hDone : deficit = 0
      · rw [if_pos hDone, hDone]
        exact passed_self Quota.pass_zero hBalanced
      · rw [if_neg hDone]
        by_cases hSkip : surplus = 0 ∨ !significant round.view s d
        · rw [if_pos hSkip]
          have hNone : 0 = if significant round.view s d then
              Quota.portion REBALANCE_MAX_SWAPS_PER_NODE progress.node_swap_count deficit
                (min surplus (progress.free round node d)) else 0 := by
            rcases hSkip with rfl | hSkip
            · simp [Quota.portion_eq_zero]
            · rw [if_neg (by simpa using hSkip)]
          exact passed_cons hNew (.refl ⟨progress, deficit, surplus⟩) hNone hMin (ih hNodup hRest)
        · rw [if_neg hSkip]
          obtain ⟨-, hSignificant⟩ := not_or.mp hSkip
          rw [Bool.not_eq_true', Bool.not_eq_false] at hSignificant
          have hGives : Gives round node times s d
              (Quota.portion REBALANCE_MAX_SWAPS_PER_NODE progress.node_swap_count deficit
                (min surplus (progress.free round node d))) ⟨progress, deficit, surplus⟩
              (donate round.now (round.propose node s adapter_artifact d) (node.containers_of d)
                (node.containers_of d) ⟨progress, deficit, surplus⟩) :=
            gives_turn ⟨progress, deficit, surplus⟩ s adapter_artifact hMin
          have hRest : (donate round.now (round.propose node s adapter_artifact d)
              (node.containers_of d) (node.containers_of d)
              ⟨progress, deficit, surplus⟩).progress.Balanced node rest := by
            intro x hx
            have hNe : x.1 ≠ d := fun hSame => hNew (List.mem_map.mpr ⟨x, hx, hSame⟩)
            rw [hGives.gone_other hNe]
            exact hRest x hx
          exact passed_cons hNew hGives (if_pos hSignificant).symm hMin (ih hNodup hRest)

/-- The starving functions are served as the demands are. -/
structure Served (round : Round) (node : Node) (times : SwapTimes)
    (starving l : List (FunctionId × Nat)) (progress after : Progress) : Prop where
  sound : progress.Sound round node times → after.Sound round node times
  count : after.node_swap_count =
    Quota.serve REBALANCE_MAX_SWAPS_PER_NODE (significant round.view) (round.demands starving)
      (progress.supplies round node l) progress.node_swap_count
  donor : ∀ fid ∈ l.map (·.1),
    after.gone node fid + REBALANCE_MIN_CONTAINERS_PER_FUNCTION ≤ node.actual fid
  other : ∀ fid ∉ l.map (·.1), after.gone node fid = progress.gone node fid
  brought : ∀ x ∈ starving, after.brought x.1 ≤ progress.brought x.1 + x.2
  unbrought : ∀ fid ∉ starving.map (·.1), after.brought fid = progress.brought fid

/-- A donor keeps its least number of containers. -/
theorem Progress.Balanced.donor (h : progress.Balanced node l) {fid : FunctionId}
    (hFid : fid ∈ l.map (·.1)) :
    progress.gone node fid + REBALANCE_MIN_CONTAINERS_PER_FUNCTION ≤ node.actual fid := by
  obtain ⟨x, hx, rfl⟩ := List.mem_map.mp hFid
  have hMin := h x hx
  omega

/-- Nothing is handed over. -/
theorem served_self {starving : List (FunctionId × Nat)} (hBalanced : progress.Balanced node l)
    (hCount : Quota.serve REBALANCE_MAX_SWAPS_PER_NODE (significant round.view)
      (round.demands starving) (progress.supplies round node l) progress.node_swap_count =
        progress.node_swap_count) :
    Served round node times starving l progress progress where
  sound := id
  count := hCount.symm
  donor _ := hBalanced.donor
  other _ _ := rfl
  brought _ _ := Nat.le_add_right _ _
  unbrought _ _ := rfl

/-- The loop over the starving functions is the service of a quota. -/
theorem served_serve {starving : List (FunctionId × Nat)} (hStarving : (starving.map (·.1)).Nodup)
    (hNodup : (l.map (·.1)).Nodup) (hBalanced : progress.Balanced node l) :
    Served round node times starving l progress (round.serve node starving l progress) := by
  induction starving generalizing l progress with
  | nil => exact served_self hBalanced rfl
  | cons x rest ih =>
      obtain ⟨s, deficit⟩ := x
      obtain ⟨hNew, hStarving⟩ := List.nodup_cons.mp hStarving
      unfold Round.serve
      by_cases hLimit : REBALANCE_MAX_SWAPS_PER_NODE ≤ progress.node_swap_count
      · rw [if_pos hLimit]
        exact served_self hBalanced (Quota.serve_of_le _ hLimit)
      · rw [if_neg hLimit]
        cases hAdapter : round.adapter_of s with
        | none =>
            have hRest : Served round node times rest l progress
                (round.serve node rest l progress) :=
              ih hStarving hNodup hBalanced
            exact {
              sound := hRest.sound
              count := by
                rw [hRest.count, Round.demands, Round.demands,
                  List.filter_cons_of_neg (by simp [hAdapter])]
              donor := hRest.donor
              other := hRest.other
              brought := by
                intro x hx
                rcases List.mem_cons.mp hx with rfl | hx
                · exact (hRest.unbrought _ hNew).trans_le (Nat.le_add_right _ _)
                · exact hRest.brought x hx
              unbrought := fun fid hFid => hRest.unbrought fid (mt (List.mem_cons_of_mem s) hFid) }
        | some adapter_artifact =>
            have hPass : Passed round node times s l progress deficit
                (round.pair node s adapter_artifact l progress deficit) :=
              passed_pair hNodup hBalanced
            have hRest := ih hStarving (hPass.keys ▸ hNodup) hPass.balanced
            exact {
              sound := hRest.sound ∘ hPass.sound
              count := by
                rw [hRest.count, Round.demands, Round.demands,
                  List.filter_cons_of_pos (by simp [hAdapter]), Quota.serve, if_neg hLimit,
                  hPass.quota]
              donor := fun fid hFid => hRest.donor fid (hPass.keys ▸ hFid)
              other := fun fid hFid =>
                (hRest.other fid (hPass.keys ▸ hFid)).trans (hPass.gone fid hFid)
              brought := by
                intro x hx
                have hBrought := hPass.brought x.1
                rcases List.mem_cons.mp hx with rfl | hx
                · rw [if_pos rfl, if_pos rfl] at hBrought
                  have hMore :
                      (round.pair node s adapter_artifact l progress deficit).progress.brought s ≤
                        progress.brought s + deficit := Nat.le.intro hBrought
                  exact (hRest.unbrought s hNew).trans_le hMore
                · have hNe : x.1 ≠ s := fun hSame => hNew (List.mem_map.mpr ⟨x, hx, hSame⟩)
                  rw [if_neg hNe, if_neg hNe] at hBrought
                  exact (hRest.brought x hx).trans_eq (by omega)
              unbrought := by
                intro fid hFid
                obtain ⟨hNe, hOther⟩ := not_or.mp (mt List.mem_cons.mpr hFid)
                have hBrought := hPass.brought fid
                rw [if_neg hNe, if_neg hNe] at hBrought
                exact (hRest.unbrought fid hOther).trans hBrought }

end Passes

end Serverless.Rebalancing
