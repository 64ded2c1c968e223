import SwarmLoRA.Cluster.Effect

namespace Cluster

open Data

namespace Global

open ClusterRegistry

variable (cfg : GlobalControllerConfig)

/-- No node that is being stopped is active or gets requests, and no node that is being
launched is idle or active. -/
def Drained (s : State) : Prop :=
  (∀ n, s.stopping n = true → s.registry.status n ≠ some .active) ∧
    (∀ sel ∈ s.selections, sel.stopping = false) ∧
    ∀ n, s.launching n = true →
      s.registry.status n ≠ some .idle ∧ s.registry.status n ≠ some .active

/-- The step writes no status over that of a node with a call on its way. -/
def State.keeps_status (s : State) : Label → Bool
  | .heartbeat_delivered _ _ i =>
      (s.heartbeats[i]?).all fun b =>
        (!s.stopping b.node_id || b.status ≠ .active) &&
          (!s.launching b.node_id || b.status = .starting)
  | .health now =>
      s.registry.nodes.values.all fun node =>
        !(s.stopping node.node_id && is_back cfg now node && node.aggregator_pid.isSome)
  | .register _ n _ _ => (s.registry.status n).isSome || !s.launching n
  | _ => true

/-- The step begins no call for a node that it would disturb another call of. -/
def State.undisturbed (s : State) (l : Label) : Bool :=
  ((s.next_launch cfg l).all fun (n, _) => !s.stopping n) &&
    ((s.next_stop cfg l).all fun n => !s.launching n) && s.keeps_status cfg l

/-- The invariant of undisturbed runs: a node with a launch under way is starting and has no other
call under way, and one that is being stopped is not active. -/
structure Calm (s : State) : Prop where
  named : s.registry.Named
  starting : ∀ i n, s.LaunchAt i n →
    ∀ st, s.registry.status n = some st → st = .starting
  alone : ∀ i j n, s.LaunchAt i n → s.LaunchAt j n → i = j
  apart : ∀ i n, s.LaunchAt i n → s.stopping n = false
  draining : ∀ n, s.stopping n = true → s.registry.status n ≠ some .active
  unstopped : ∀ sel ∈ s.selections, sel.stopping = false

namespace Calm

variable {cfg} {s s' : State} {now : Time}

theorem drained (h : Calm s) : Drained s := by
  refine ⟨h.draining, h.unstopped, ?_⟩
  intro n hLaunching
  obtain ⟨i, hAt⟩ := (launching_iff n).mp hLaunching
  constructor
  · intro hIdle
    cases h.starting i n hAt .idle hIdle
  · intro hActive
    cases h.starting i n hAt .active hActive

theorem initial {s : State} (h : Global.initial s) : Calm s := by
  obtain ⟨policy, rfl⟩ := h
  have hNone : ∀ i n, ¬ State.LaunchAt { policy := policy } i n := by
    rintro i n ⟨l, hAt, -⟩
    cases hAt
  constructor
  · intro n node hFind
    cases hFind
  · intro i n hAt
    exact (hNone i n hAt).elim
  · intro i j n hAt
    exact (hNone i n hAt).elim
  · intro i n hAt
    exact (hNone i n hAt).elim
  · rintro n ⟨⟩
  · rintro sel ⟨⟩

theorem same (h : Calm s) (hSame : Same s s') : Calm s' := by
  have hAt : ∀ i n, s'.LaunchAt i n ↔ s.LaunchAt i n := by
    intro i n
    unfold State.LaunchAt
    rw [hSame.launches]
  have hStopping : ∀ n, s'.stopping n = s.stopping n := by
    intro n
    unfold State.stopping
    rw [hSame.stops]
  constructor
  · exact hSame.named h.named
  · intro i n hLaunch
    rw [hSame.status]
    exact h.starting i n ((hAt i n).mp hLaunch)
  · intro i j n hi hj
    exact h.alone i j n ((hAt i n).mp hi) ((hAt j n).mp hj)
  · intro i n hLaunch
    rw [hStopping]
    exact h.apart i n ((hAt i n).mp hLaunch)
  · intro n hStop
    rw [hSame.status]
    exact h.draining n ((hStopping n).symm.trans hStop)
  · rw [hSame.selections]
    exact h.unstopped

/-- Only the calls have changed, and there are no new ones. -/
theorem fewer (h : Calm s) (hRegistry : s'.registry = s.registry) (hStops : s'.stops = s.stops)
    (hSelections : s'.selections = s.selections)
    (hAt : ∀ i n, s'.LaunchAt i n → s.LaunchAt i n) : Calm s' := by
  have hStopping : ∀ n, s'.stopping n = s.stopping n := by
    intro n
    unfold State.stopping
    rw [hStops]
  constructor
  · rw [hRegistry]
    exact h.named
  · intro i n hLaunch
    rw [hRegistry]
    exact h.starting i n (hAt i n hLaunch)
  · intro i j n hi hj
    exact h.alone i j n (hAt i n hi) (hAt j n hj)
  · intro i n hLaunch
    rw [hStopping]
    exact h.apart i n (hAt i n hLaunch)
  · intro n hStop
    rw [hRegistry]
    exact h.draining n ((hStopping n).symm.trans hStop)
  · rw [hSelections]
    exact h.unstopped

/-- Only the registry has changed. -/
theorem of_status (h : Calm s) {r : ClusterRegistry} (hNamed : r.Named)
    (hLaunch : ∀ i n, s.LaunchAt i n → ∀ st, r.status n = some st → st = .starting)
    (hStop : ∀ n, s.stopping n = true → r.status n ≠ some .active) :
    Calm { s with registry := r } :=
  { h with
    named := hNamed
    starting := hLaunch
    draining := hStop }

theorem select (h : Calm s) (a : AdapterName) {n : NodeId} (hFree : s.stopping n = false) :
    Calm (s.select a n) :=
  { h with
    unstopped := by
      intro sel hMem
      rcases List.mem_append.mp hMem with hOld | hNew
      · exact h.unstopped sel hOld
      · rw [List.mem_singleton.mp hNew]
        exact hFree }

theorem launch (h : Calm s) (base_model : Option BaseModel) (caller : Caller) {n : NodeId}
    (hIdle : s.registry.status n = some .idle) (hFree : s.stopping n = false) :
    Calm (s.launch cfg now base_model caller n) := by
  have hFirst : ∀ i, ¬ s.LaunchAt i n := by
    intro i hAt
    cases h.starting i n hAt .idle hIdle
  have hNew : ∀ i, (s.launch cfg now base_model caller n).LaunchAt i n →
      i = s.launches.length := by
    intro i hAt
    by_contra hOld
    exact hFirst i (launchAt_launch_old hAt hOld)
  constructor
  · cases base_model with
    | none => exact h.named.update_node_status now n .starting
    | some model => exact (h.named.update_node_status now n .starting).set_node_base_model n _ _
  · intro i m hAt st hStatus
    rw [status_launch] at hStatus
    split at hStatus
    · obtain ⟨old, -, rfl⟩ := Option.map_eq_some_iff.mp hStatus
      rfl
    · rename_i hOther
      exact h.starting i m ((launchAt_launch hAt).resolve_right hOther) st hStatus
  · intro i j m hi hj
    by_cases hm : m = n
    · subst hm
      exact (hNew i hi).trans (hNew j hj).symm
    · exact h.alone i j m ((launchAt_launch hi).resolve_right hm)
        ((launchAt_launch hj).resolve_right hm)
  · intro i m hAt
    show s.stopping m = false
    rcases launchAt_launch hAt with hOld | rfl
    · exact h.apart i m hOld
    · exact hFree
  · intro m hStop
    rw [status_launch]
    split
    · intro hActive
      obtain ⟨old, -, hNot⟩ := Option.map_eq_some_iff.mp hActive
      cases hNot
    · exact h.draining m hStop
  · exact h.unstopped

theorem end_launch (h : Calm s) {i : Nat} {l : Launch} (hAt : s.LaunchAt i l.node_id)
    (success : Bool) : Calm (s.end_launch now i l success) := by
  constructor
  · exact h.named.update_node_status now l.node_id _
  · intro j m hCall st hStatus
    obtain ⟨hNe, hOld⟩ := launchAt_end_launch hCall
    have hOther : m ≠ l.node_id := by
      rintro rfl
      exact hNe (h.alone j i l.node_id hOld hAt)
    have hKept := (status_of_update hStatus).resolve_left fun hSame => hOther hSame.1
    exact h.starting j m hOld st hKept.2
  · intro j k m hj hk
    exact h.alone j k m (launchAt_end_launch hj).2 (launchAt_end_launch hk).2
  · intro j m hCall
    exact h.apart j m (launchAt_end_launch hCall).2
  · intro m hStop
    have hOther : m ≠ l.node_id := by
      rintro rfl
      have hFree : s.stopping l.node_id = true := hStop
      rw [h.apart i l.node_id hAt] at hFree
      cases hFree
    intro hActive
    have hKept := (status_of_update hActive).resolve_left fun hSame => hOther hSame.1
    exact h.draining m hStop hKept.2
  · exact h.unstopped

theorem scale_down (h : Calm s) {by_scaler : Bool} {n : NodeId}
    (hFree : s.launching n = false) : Calm (s.scale_down now by_scaler n) := by
  have hNone : ∀ i m, s.LaunchAt i m → m ≠ n := by
    rintro i m hAt rfl
    rw [(launching_iff m).mpr ⟨i, hAt⟩] at hFree
    cases hFree
  have hStops : ∀ m, (s.scale_down now by_scaler n).stopping m = true →
      s.stopping m = true ∨ m = n := fun m => stopping_scale_down
  unfold State.scale_down at hStops ⊢
  split at hStops
  · rename_i hRegistered
    rw [if_pos hRegistered]
    constructor
    · exact h.named.update_node_status now n .draining
    · intro i m hAt st hStatus
      have hKept := (status_of_update hStatus).resolve_left fun hSame => hNone i m hAt hSame.1
      exact h.starting i m hAt st hKept.2
    · exact h.alone
    · intro i m hAt
      apply Bool.eq_false_iff.mpr
      intro hStop
      rcases hStops m hStop with hOld | rfl
      · rw [h.apart i m hAt] at hOld
        cases hOld
      · exact hNone i m hAt rfl
    · intro m hStop hActive
      rcases status_of_update hActive with ⟨-, -, hNot⟩ | ⟨hOther, hOld⟩
      · cases hNot
      · exact h.draining m ((hStops m hStop).resolve_right hOther) hOld
    · exact h.unstopped
  · rename_i hRegistered
    rw [if_neg hRegistered]
    exact h

theorem end_stop (h : Calm s) {i : Nat} {t : Stop} (hCall : s.stops[i]? = some t)
    (hAwaited : t.awaited = true) (success : Bool) : Calm (s.end_stop now i t success) := by
  have hStopping : s.stopping t.node_id = true :=
    (stopping_iff _).mpr ⟨t, List.mem_of_getElem? hCall, hAwaited, rfl⟩
  constructor
  · exact h.named.update_node_status now t.node_id _
  · intro j m hAt st hStatus
    have hOther : m ≠ t.node_id := by
      rintro rfl
      have hFree := h.apart j t.node_id hAt
      rw [hStopping] at hFree
      cases hFree
    have hKept := (status_of_update hStatus).resolve_left fun hSame => hOther hSame.1
    exact h.starting j m hAt st hKept.2
  · exact h.alone
  · intro j m hAt
    apply Bool.eq_false_iff.mpr
    intro hStop
    have hOld := stopping_end_stop hStop
    rw [h.apart j m hAt] at hOld
    cases hOld
  · intro m hStop hActive
    rcases status_of_update hActive with ⟨-, -, hNot⟩ | ⟨-, hOld⟩
    · split at hNot
      · cases hNot
      · cases hNot
    · exact h.draining m (stopping_end_stop hStop) hOld
  · exact h.unstopped

theorem health (h : Calm s) (hKeeps : s.keeps_status cfg (.health now) = true) :
    Calm (s.health_pass cfg now) := by
  apply h.of_status (named_health cfg now h.named)
  · intro i n hAt st hStatus
    rw [status_health cfg now h.named] at hStatus
    obtain ⟨node, hFind, rfl⟩ := Option.map_eq_some_iff.mp hStatus
    have hStarting : node.status = .starting :=
      h.starting i n hAt node.status (status_of_find hFind)
    simp [heal, is_back, is_stale, hStarting]
  · intro n hStop hActive
    rcases active_of_health cfg now h.named hActive with hWas | ⟨node, hMem, rfl, hBack, hPid⟩
    · exact h.draining n hStop hWas
    · have hNode := List.all_eq_true.mp hKeeps node hMem
      rw [hStop, hBack, hPid] at hNode
      cases hNode

theorem register (h : Calm s) {n : NodeId} {reg : Registration} {base_model : Option BaseModel}
    (hKeeps : s.keeps_status cfg (.register now n reg base_model) = true) :
    Calm (s.register now n reg base_model) := by
  have hRegistered : Calm { s with registry := s.registry.register_node now n reg } := by
    apply h.of_status (h.named.register_node now n reg)
    · intro i m hAt st hStatus
      rcases status_of_register hStatus with hOld | ⟨rfl, hNew, -⟩
      · exact h.starting i m hAt st hOld
      · simp only [State.keeps_status, hNew, (launching_iff m).mpr ⟨i, hAt⟩] at hKeeps
        cases hKeeps
    · intro m hStop hActive
      rcases status_of_register hActive with hOld | ⟨-, -, hIdle⟩
      · exact h.draining m hStop hOld
      · cases hIdle
  have hModel : ∀ model, Calm { s with
      registry := (s.registry.register_node now n reg).set_node_base_model n model none } := by
    intro model
    apply h.of_status (hRegistered.named.set_node_base_model n model none)
    · intro i m hAt st hStatus
      rw [status_set_node_base_model] at hStatus
      exact hRegistered.starting i m hAt st hStatus
    · intro m hStop
      rw [status_set_node_base_model]
      exact hRegistered.draining m hStop
  unfold State.register
  split
  · split
    · exact hRegistered
    · exact hModel _
  · exact hRegistered

theorem unregister (h : Calm s) (order : SetOrder AdapterName) (n : NodeId) :
    Calm { s with registry := s.registry.unregister_node order n } := by
  apply h.of_status (h.named.unregister_node order n)
  · intro i m hAt st hStatus
    rw [status_unregister_node] at hStatus
    split at hStatus
    · cases hStatus
    · exact h.starting i m hAt st hStatus
  · intro m hStop
    rw [status_unregister_node]
    split
    · rintro ⟨⟩
    · exact h.draining m hStop

theorem heartbeat (h : Calm s) {order : SetOrder AdapterName} {i : Nat} {b : Heartbeat}
    (hBeat : s.heartbeats[i]? = some b)
    (hKeeps : s.keeps_status cfg (.heartbeat_delivered order now i) = true) :
    Calm ({ s with heartbeats := s.heartbeats.eraseIdx i }.heartbeat now order b) := by
  simp only [State.keeps_status, hBeat, Option.all_some, Bool.and_eq_true, Bool.or_eq_true,
    Bool.not_eq_true', decide_eq_true_eq] at hKeeps
  obtain ⟨hStopped, hLaunched⟩ := hKeeps
  have hTaken : Calm { s with
      heartbeats := s.heartbeats.eraseIdx i
      registry := (s.registry.update_node_status now b.node_id b.status).update_node_heartbeat
        order now b.node_id b.report } := by
    have hRest : Calm { s with heartbeats := s.heartbeats.eraseIdx i } := { h with }
    apply hRest.of_status
      ((h.named.update_node_status now b.node_id b.status).update_node_heartbeat order now _ _)
    · intro j m hAt st hStatus
      rw [status_update_node_heartbeat] at hStatus
      rcases status_of_update hStatus with ⟨rfl, -, rfl⟩ | ⟨-, hOld⟩
      · have hLaunching := (launching_iff b.node_id).mpr ⟨j, hAt⟩
        exact hLaunched.resolve_left fun hNot => Bool.eq_false_iff.mp hNot hLaunching
      · exact h.starting j m hAt st hOld
    · intro m hStop hActive
      rw [status_update_node_heartbeat] at hActive
      rcases status_of_update hActive with ⟨rfl, -, hReported⟩ | ⟨-, hOld⟩
      · exact hStopped.resolve_left (fun hNot => Bool.eq_false_iff.mp hNot hStop) hReported.symm
      · exact h.draining m hStop hOld
  unfold State.heartbeat
  split
  · split
    · exact hTaken
    · apply hTaken.of_status (hTaken.named.set_node_base_model b.node_id _ none)
      · intro j m hAt st hStatus
        rw [status_set_node_base_model] at hStatus
        exact hTaken.starting j m hAt st hStatus
      · intro m hStop
        rw [status_set_node_base_model]
        exact hTaken.draining m hStop
  · exact hTaken

theorem step (h : Calm s) {l : Label} (hGuard : s.undisturbed cfg l = true)
    (hStep : Global.step cfg s l = some s') : Calm s' := by
  obtain ⟨t, hEffect, hSame⟩ := comes_of_step h.named hStep
  apply Calm.same _ hSame
  unfold State.undisturbed at hGuard
  rw [Bool.and_eq_true, Bool.and_eq_true] at hGuard
  obtain ⟨⟨hLaunches, hStops⟩, hKeeps⟩ := hGuard
  have hStopped : ∀ n, s.next_stop cfg l = some n → s.launching n = false := by
    intro n hNext
    rw [hNext] at hStops
    exact (Bool.not_eq_true' _).mp hStops
  cases hEffect with
  | nothing => exact h
  | aside hAside =>
      obtain ⟨hRegistry, hSameStops, hSelections, hAt⟩ := hAside.unseen
      exact h.fewer hRegistry hSameStops hSelections hAt
  | @select _ a n hServes =>
      apply h.select
      apply Bool.eq_false_iff.mpr
      intro hStop
      exact h.draining n hStop hServes.1
  | @launch _ u now base_model caller n hAdd hNext hIdle hAsked =>
      have hFree : s.stopping n = false := by
        rw [hNext] at hLaunches
        exact (Bool.not_eq_true' _).mp hLaunches
      apply (h.same hAdd).launch base_model caller ((hAdd.status n).trans hIdle)
      unfold State.stopping
      rw [hAdd.stops]
      exact hFree
  | launch_returned hCall hAwaited hAnswer => exact h.end_launch ⟨_, hCall, hAwaited, rfl⟩ _
  | @launch_used now i answered l r req hCall hAwaited hPhase hCaller hReq =>
      have hAt : s.LaunchAt i l.node_id := ⟨l, hCall, hAwaited, rfl⟩
      exact (h.end_launch hAt true).select req.adapter_name (h.apart i l.node_id hAt)
  | stop hNext => exact h.scale_down (hStopped _ hNext)
  | stop_returned hCall hAwaited => exact h.end_stop hCall hAwaited _
  | stop_next hCall hAwaited hNext =>
      exact (h.end_stop hCall hAwaited _).scale_down (hStopped _ hNext)
  | health now => exact h.health hKeeps
  | register now n reg base_model => exact h.register hKeeps
  | unregister order n => exact h.unregister order n
  | heartbeat hBeat => exact h.heartbeat hBeat hKeeps

end Calm

/-- In runs whose steps disturb no call on its way, no node that is being stopped is active or
gets requests, and none that is being launched is idle or active before its launch returns. -/
theorem drained_of_reach {s : State}
    (run : (machine cfg).Reach (fun s l => s.undisturbed cfg l = true) s) : Drained s := by
  have hCalm : Calm s :=
    run.invariant Calm (fun _ hInitial => Calm.initial hInitial)
      fun _ _ _ hPrior hGuard hStep => hPrior.step hGuard hStep
  exact hCalm.drained

/-- One node is launched, heard of in between, used and then stopped. -/
def usedThenStopped : List Label :=
  [ .register 1 "n1" { host := "gpu-1", port := 8100 } none,
    .manual_up 2,
    .launch_delivered 0,
    .heartbeat_sent "n1" {},
    .heartbeat_delivered .sorted 3 0,
    .launch_ready 0,
    .launch_returned 4 0 true,
    .arrive .sorted 5 "lora-a",
    .manual_down 6 "n1" ]

theorem drained_of_used_then_stopped :
    ∃ s, (machine {}).Reach (fun s l => s.undisturbed {} l = true) s ∧
      s.stopping "n1" = true ∧ s.selections.length = 1 ∧ Drained s := by
  have hRun : ((machine {}).replayUnder (fun s l => s.undisturbed {} l = true) {}
      usedThenStopped).map (fun s => (s.stopping "n1", s.selections.length)) =
      some (true, 1) := by decide +kernel
  obtain ⟨s, hReplay, hEnd⟩ := Option.map_eq_some_iff.mp hRun
  obtain ⟨hStopping, hOne⟩ := Prod.mk.inj hEnd
  have run := Machine.System.reach_of_replayUnder (.start (initial_empty _)) hReplay
  exact ⟨s, run, hStopping, hOne, drained_of_reach {} run⟩

/-- A heartbeat that was sent before the node was drained comes in afterwards. -/
def lateHeartbeat : List Label :=
  [ .register 1 "n1" { host := "gpu-1", port := 8100 } none,
    .manual_up 2,
    .launch_delivered 0,
    .launch_ready 0,
    .launch_returned 3 0 true,
    .heartbeat_sent "n1" {},
    .manual_down 4 "n1",
    .heartbeat_delivered .sorted 5 0,
    .arrive .sorted 6 "lora-a" ]

/-- The heartbeat makes the draining node active again, and the next request goes there. -/
theorem late_heartbeat_revives_node : ∃ s, (machine {}).Reachable s ∧
    s.stopping "n1" = true ∧ s.registry.status "n1" = some .active ∧
      (∃ sel ∈ s.selections, sel.node_id = "n1" ∧ sel.stopping = true) ∧ ¬Drained s := by
  have hRun : ((machine {}).replay {} lateHeartbeat).map (fun s =>
      (s.stopping "n1", s.registry.status "n1",
        s.selections.any fun sel => sel.node_id = "n1" && sel.stopping)) =
      some (true, some .active, true) := by decide +kernel
  obtain ⟨s, hReplay, hEnd⟩ := Option.map_eq_some_iff.mp hRun
  obtain ⟨hStopping, hEnd⟩ := Prod.mk.inj hEnd
  obtain ⟨hActive, hAny⟩ := Prod.mk.inj hEnd
  obtain ⟨sel, hMem, hSel⟩ := List.any_eq_true.mp hAny
  rw [Bool.and_eq_true, decide_eq_true_eq] at hSel
  have run := Machine.System.reachable_of_replay (.start (initial_empty _)) hReplay
  refine ⟨s, run, hStopping, hActive, ⟨sel, hMem, hSel⟩, ?_⟩
  intro hDrained
  exact hDrained.1 "n1" hStopping hActive

end Global

end Cluster
