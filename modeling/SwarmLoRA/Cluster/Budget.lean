import Mathlib.Data.Finset.Card
import SwarmLoRA.Cluster.Effect

namespace Cluster

open Data

def NodeStatus.is_up : NodeStatus → Bool
  | .starting | .active => true
  | _ => false

namespace Global

open ClusterRegistry

variable (cfg : GlobalControllerConfig)

/-- The node starts up or is active. -/
def State.is_up (s : State) (n : NodeId) : Bool := (s.registry.status n).any (·.is_up)

def State.up (s : State) : Finset NodeId := (s.registry.nodes.keys.filter s.is_up).toFinset

/-- The nodes that are up, and those whose launch has not returned yet. -/
def State.held (s : State) : Finset NodeId :=
  s.up ∪ ((s.launches.filter (·.awaited)).map (·.node_id)).toFinset

/-- The nodes that are up are as few as the configuration says. -/
def WithinBudget (s : State) : Prop := s.up.card ≤ cfg.max_active_nodes

/-- A launch of the step finds room for one more node. -/
def State.has_room (s : State) (l : Label) : Bool :=
  (s.next_launch cfg l).all fun (n, _) => n ∈ s.held || s.held.card < cfg.max_active_nodes

/-- No heartbeat or pass of the health monitor brings up a node that was not held. -/
def State.none_by_itself (s : State) : Label → Bool
  | .heartbeat_delivered _ _ i =>
      (s.heartbeats[i]?).all fun b =>
        !b.status.is_up || b.node_id ∈ s.held || (s.registry.status b.node_id).isNone
  | .health now =>
      s.registry.nodes.values.all fun node =>
        !(is_back cfg now node && node.aggregator_pid.isSome) || node.node_id ∈ s.held
  | _ => true

def State.rationed (s : State) (l : Label) : Bool :=
  s.has_room cfg l && s.none_by_itself cfg l

theorem mem_up {s : State} (n : NodeId) : n ∈ s.up ↔ s.is_up n = true := by
  unfold State.up
  rw [List.mem_toFinset, List.mem_filter, s.registry.nodes.mem_keys]
  constructor
  · exact fun h => h.2
  · intro hUp
    refine ⟨?_, hUp⟩
    unfold State.is_up ClusterRegistry.status at hUp
    cases hFind : s.registry.nodes.find n with
    | none =>
        rw [hFind] at hUp
        cases hUp
    | some node => rfl

theorem mem_held {s : State} (n : NodeId) :
    n ∈ s.held ↔ s.is_up n = true ∨ s.launching n = true := by
  unfold State.held State.launching
  rw [Finset.mem_union, mem_up]
  simp only [List.mem_toFinset, List.mem_map, List.mem_filter, List.any_eq_true,
    Bool.and_eq_true, decide_eq_true_eq, and_assoc]

/-- The invariant of rationed runs: the nodes that are up, and those that may still come up, are
within the limit. -/
structure Rationed (s : State) : Prop where
  named : s.registry.Named
  bound : s.held.card ≤ cfg.max_active_nodes

namespace Rationed

variable {cfg} {s s' : State} {now : Time}

theorem within_budget (h : Rationed cfg s) : WithinBudget cfg s :=
  (Finset.card_le_card Finset.subset_union_left).trans h.bound

theorem initial {s : State} (h : Global.initial s) : Rationed cfg s := by
  obtain ⟨policy, rfl⟩ := h
  constructor
  · intro n node hFind
    cases hFind
  · exact Nat.zero_le _

/-- No further node is held. -/
theorem shrink (h : Rationed cfg s) (hNamed : s'.registry.Named)
    (hUp : ∀ n, s'.is_up n = true → n ∈ s.held)
    (hLaunching : ∀ n i, s'.LaunchAt i n → s.LaunchAt i n) : Rationed cfg s' where
  named := hNamed
  bound := by
    have hSubset : s'.held ⊆ s.held := by
      intro n hMem
      rcases (mem_held n).mp hMem with hIs | hCall
      · exact hUp n hIs
      · obtain ⟨i, hAt⟩ := (launching_iff n).mp hCall
        exact (mem_held n).mpr (Or.inr ((launching_iff n).mpr ⟨i, hLaunching n i hAt⟩))
    exact (Finset.card_le_card hSubset).trans h.bound

theorem of_up {n : NodeId} (h : s.is_up n = true) : n ∈ s.held :=
  (mem_held n).mpr (Or.inl h)

theorem same (h : Rationed cfg s) (hSame : Same s s') : Rationed cfg s' := by
  apply h.shrink (hSame.named h.named)
  · intro n hUp
    unfold State.is_up at hUp
    rw [hSame.status] at hUp
    exact of_up hUp
  · intro n i hAt
    unfold State.LaunchAt at hAt ⊢
    rw [hSame.launches] at hAt
    exact hAt

/-- Only the registry changes, and it brings up none but nodes that were held. -/
theorem of_registry (h : Rationed cfg s) {r : ClusterRegistry} (hNamed : r.Named)
    (hUp : ∀ n, (r.status n).any (·.is_up) = true → n ∈ s.held) :
    Rationed cfg { s with registry := r } :=
  h.shrink hNamed hUp fun _ _ hAt => hAt

/-- A node that gets a new status is the only one that may come up. -/
theorem is_up_update {m n : NodeId} {st : NodeStatus}
    (h : ((s.registry.update_node_status now m st).status n).any (·.is_up) = true) :
    s.is_up n = true ∨ n = m ∧ st.is_up = true := by
  rw [status_update_node_status] at h
  split at h
  · rename_i hn
    cases hOld : s.registry.status n with
    | none =>
        rw [hOld] at h
        cases h
    | some old =>
        rw [hOld] at h
        exact Or.inr ⟨hn, h⟩
  · exact Or.inl h

theorem launch (h : Rationed cfg s) (base_model : Option BaseModel) (caller : Caller)
    {n : NodeId} (hRoom : n ∈ s.held ∨ s.held.card < cfg.max_active_nodes) :
    Rationed cfg (s.launch cfg now base_model caller n) where
  named := by
    cases base_model with
    | none => exact h.named.update_node_status now n .starting
    | some model => exact (h.named.update_node_status now n .starting).set_node_base_model n _ _
  bound := by
    have hSubset : (s.launch cfg now base_model caller n).held ⊆ insert n s.held := by
      intro m hMem
      by_cases hm : m = n
      · exact Finset.mem_insert.mpr (Or.inl hm)
      · apply Finset.mem_insert_of_mem
        rcases (mem_held m).mp hMem with hIs | hCall
        · unfold State.is_up at hIs
          rw [status_launch, if_neg hm] at hIs
          exact of_up hIs
        · obtain ⟨i, hAt⟩ := (launching_iff m).mp hCall
          have hOld := (launchAt_launch hAt).resolve_right hm
          exact (mem_held m).mpr (Or.inr ((launching_iff m).mpr ⟨i, hOld⟩))
    rcases hRoom with hHeld | hFew
    · rw [Finset.insert_eq_of_mem hHeld] at hSubset
      exact (Finset.card_le_card hSubset).trans h.bound
    · calc (s.launch cfg now base_model caller n).held.card
          ≤ (insert n s.held).card := Finset.card_le_card hSubset
        _ ≤ s.held.card + 1 := Finset.card_insert_le n s.held
        _ ≤ cfg.max_active_nodes := hFew

theorem end_launch (h : Rationed cfg s) {i : Nat} {l : Launch} (hAt : s.LaunchAt i l.node_id)
    (success : Bool) : Rationed cfg (s.end_launch now i l success) := by
  apply h.shrink (h.named.update_node_status now l.node_id _)
  · intro n hUp
    rcases is_up_update hUp with hOld | ⟨rfl, -⟩
    · exact of_up hOld
    · exact (mem_held l.node_id).mpr (Or.inr ((launching_iff l.node_id).mpr ⟨i, hAt⟩))
  · intro n j hCall
    exact (launchAt_end_launch hCall).2

theorem scale_down (h : Rationed cfg s) {by_scaler : Bool} {n : NodeId} :
    Rationed cfg (s.scale_down now by_scaler n) := by
  unfold State.scale_down
  split
  · apply h.shrink (h.named.update_node_status now n .draining)
    · intro m hUp
      rcases is_up_update hUp with hOld | ⟨-, hNot⟩
      · exact of_up hOld
      · cases hNot
    · exact fun _ _ hAt => hAt
  · exact h

theorem end_stop (h : Rationed cfg s) (i : Nat) (t : Stop) (success : Bool) :
    Rationed cfg (s.end_stop now i t success) := by
  apply h.shrink (h.named.update_node_status now t.node_id _)
  · intro m hUp
    rcases is_up_update hUp with hOld | ⟨-, hNot⟩
    · exact of_up hOld
    · split at hNot
      · cases hNot
      · cases hNot
  · exact fun _ _ hAt => hAt

theorem health (h : Rationed cfg s) (hNone : s.none_by_itself cfg (.health now) = true) :
    Rationed cfg (s.health_pass cfg now) := by
  apply h.of_registry (named_health cfg now h.named)
  intro n hUp
  rw [status_health cfg now h.named] at hUp
  cases hFind : s.registry.nodes.find n with
  | none =>
      rw [hFind] at hUp
      cases hUp
  | some node =>
      obtain rfl : node.node_id = n := h.named n node hFind
      rw [hFind] at hUp
      have hWas : node.status.is_up = true → node.node_id ∈ s.held := by
        intro hIs
        apply of_up
        unfold State.is_up ClusterRegistry.status
        rw [hFind]
        exact hIs
      have hNode := List.all_eq_true.mp hNone node
        ((s.registry.nodes.mem_values node).mpr ⟨node.node_id, hFind⟩)
      simp only [Option.map_some, Option.any_some, heal] at hUp
      split at hUp
      · rename_i hBack
        split at hUp
        · rename_i hPid
          rw [hBack, hPid] at hNode
          exact of_decide_eq_true hNode
        · cases hUp
      · split at hUp
        · cases hUp
        · exact hWas hUp

theorem set_model (h : Rationed cfg s) (n : NodeId) (model : BaseModel) (id : Option String) :
    Rationed cfg { s with registry := s.registry.set_node_base_model n model id } := by
  apply h.of_registry (h.named.set_node_base_model n model id)
  intro m hUp
  rw [status_set_node_base_model] at hUp
  exact of_up hUp

theorem register (h : Rationed cfg s) (n : NodeId) (reg : Registration)
    (base_model : Option BaseModel) : Rationed cfg (s.register now n reg base_model) := by
  have hRegistered : Rationed cfg { s with
      registry := s.registry.register_node now n reg } := by
    apply h.of_registry (h.named.register_node now n reg)
    intro m hUp
    rw [status_register_node] at hUp
    split at hUp
    · cases hOld : s.registry.status m with
      | none =>
          rw [hOld] at hUp
          cases hUp
      | some old =>
          rw [hOld] at hUp
          apply of_up
          unfold State.is_up
          rw [hOld]
          exact hUp
    · exact of_up hUp
  unfold State.register
  split
  · split
    · exact hRegistered
    · exact hRegistered.set_model n _ none
  · exact hRegistered

theorem unregister (h : Rationed cfg s) (order : SetOrder AdapterName) (n : NodeId) :
    Rationed cfg { s with registry := s.registry.unregister_node order n } := by
  apply h.of_registry (h.named.unregister_node order n)
  intro m hUp
  rw [status_unregister_node] at hUp
  split at hUp
  · cases hUp
  · exact of_up hUp

theorem heartbeat (h : Rationed cfg s) {order : SetOrder AdapterName} {i : Nat} {b : Heartbeat}
    (hBeat : s.heartbeats[i]? = some b)
    (hNone : s.none_by_itself cfg (.heartbeat_delivered order now i) = true) :
    Rationed cfg ({ s with heartbeats := s.heartbeats.eraseIdx i }.heartbeat now order b) := by
  simp only [State.none_by_itself, hBeat, Option.all_some, Bool.or_eq_true, Bool.not_eq_true',
    decide_eq_true_eq, Option.isNone_iff_eq_none, or_assoc] at hNone
  have hTaken : Rationed cfg { s with
      heartbeats := s.heartbeats.eraseIdx i
      registry := (s.registry.update_node_status now b.node_id b.status).update_node_heartbeat
        order now b.node_id b.report } := by
    apply h.shrink
      ((h.named.update_node_status now b.node_id b.status).update_node_heartbeat order now _ _)
    · intro n hUp
      unfold State.is_up at hUp
      rw [status_update_node_heartbeat] at hUp
      rcases is_up_update hUp with hOld | ⟨rfl, hReported⟩
      · exact of_up hOld
      · rcases hNone with hDown | hHeld | hUnknown
        · rw [hReported] at hDown
          cases hDown
        · exact hHeld
        · rw [status_update_node_status, if_pos rfl, hUnknown] at hUp
          cases hUp
    · exact fun _ _ hAt => hAt
  unfold State.heartbeat
  split
  · split
    · exact hTaken
    · exact hTaken.set_model b.node_id _ none
  · exact hTaken

theorem step (h : Rationed cfg s) {l : Label} (hGuard : s.rationed cfg l = true)
    (hStep : Global.step cfg s l = some s') : Rationed cfg s' := by
  obtain ⟨t, hEffect, hSame⟩ := comes_of_step h.named hStep
  apply Rationed.same _ hSame
  unfold State.rationed at hGuard
  rw [Bool.and_eq_true] at hGuard
  obtain ⟨hRoom, hNone⟩ := hGuard
  cases hEffect with
  | nothing => exact h
  | aside hAside =>
      obtain ⟨hRegistry, -, -, hAt⟩ := hAside.unseen
      apply h.shrink (hRegistry ▸ h.named)
      · intro n hUp
        unfold State.is_up at hUp
        rw [hRegistry] at hUp
        exact of_up hUp
      · exact fun n i => hAt i n
  | select hServes => exact h.shrink h.named (fun _ hUp => of_up hUp) fun _ _ hAt => hAt
  | @launch _ u now base_model caller n hAdd hNext hIdle hAsked =>
      have hHeld : u.held = s.held := by
        ext m
        simp only [mem_held, State.is_up, State.launching, hAdd.status, hAdd.launches]
      unfold State.has_room at hRoom
      rw [hNext] at hRoom
      simp only [Option.all_some, Bool.or_eq_true, decide_eq_true_eq] at hRoom
      exact (h.same hAdd).launch base_model caller (by rw [hHeld]; exact hRoom)
  | launch_returned hCall hAwaited hAnswer => exact h.end_launch ⟨_, hCall, hAwaited, rfl⟩ _
  | @launch_used now i answered l r req hCall hAwaited hPhase hCaller hReq =>
      have hEnded : Rationed cfg (s.end_launch now i l true) :=
        h.end_launch ⟨l, hCall, hAwaited, rfl⟩ true
      exact hEnded.shrink hEnded.named (fun _ hUp => of_up hUp) fun _ _ hAt => hAt
  | stop hNext => exact h.scale_down
  | stop_returned hCall hAwaited => exact h.end_stop _ _ _
  | stop_next hCall hAwaited hNext => exact (h.end_stop _ _ _).scale_down
  | health now => exact h.health hNone
  | register now n reg base_model => exact h.register n reg base_model
  | unregister order n => exact h.unregister order n
  | heartbeat hBeat => exact h.heartbeat hBeat hNone

end Rationed

/-- In runs in which every launch finds room for its node and no node comes up by itself, the
nodes that are up keep within the budget. -/
theorem within_budget_of_reach {s : State}
    (run : (machine cfg).Reach (fun s l => s.rationed cfg l = true) s) : WithinBudget cfg s := by
  have hRationed : Rationed cfg s :=
    run.invariant (Rationed cfg) (fun _ hInitial => Rationed.initial hInitial)
      fun _ _ _ hPrior hGuard hStep => hPrior.step hGuard hStep
  exact hRationed.within_budget

/-- Two nodes are there when the first request comes. -/
def oneRequest : List Label :=
  [ .register 1 "n1" { host := "gpu-1", port := 8100 } none,
    .register 1 "n2" { host := "gpu-2", port := 8100 } none,
    .arrive .sorted 2 "lora-a" ]

theorem within_budget_of_one_request :
    ∃ s, (machine { max_active_nodes := 1 }).Reach
        (fun s l => s.rationed { max_active_nodes := 1 } l = true) s ∧
      s.up = {"n1"} ∧ WithinBudget { max_active_nodes := 1 } s := by
  have hRun : ((machine { max_active_nodes := 1 }).replayUnder
      (fun s l => s.rationed { max_active_nodes := 1 } l = true) {} oneRequest).map State.up =
      some {"n1"} := by decide +kernel
  obtain ⟨s, hReplay, hUp⟩ := Option.map_eq_some_iff.mp hRun
  have run := Machine.System.reach_of_replayUnder (.start (initial_empty _)) hReplay
  exact ⟨s, run, hUp, within_budget_of_reach _ run⟩

/-- While the first launch is on its way no node is active, and the next request launches
another node. -/
theorem second_request_exceeds_budget :
    ∃ s, (machine { max_active_nodes := 1 }).Reach
        (fun s l => s.none_by_itself { max_active_nodes := 1 } l = true) s ∧
      s.up.card = 2 ∧ ¬WithinBudget { max_active_nodes := 1 } s := by
  have hRun : ((machine { max_active_nodes := 1 }).replayUnder
      (fun s l => s.none_by_itself { max_active_nodes := 1 } l = true) {}
      (oneRequest ++ [.arrive .sorted 3 "lora-b"])).map (fun s => s.up.card) =
      some 2 := by decide +kernel
  obtain ⟨s, hReplay, hTwo⟩ := Option.map_eq_some_iff.mp hRun
  have run := Machine.System.reach_of_replayUnder (.start (initial_empty _)) hReplay
  refine ⟨s, run, hTwo, ?_⟩
  unfold WithinBudget
  rw [hTwo]
  decide

end Global

end Cluster
