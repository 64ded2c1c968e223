import SwarmLoRA.Cluster.Stretches

namespace Cluster

open Data

namespace Global

variable (cfg : GlobalControllerConfig)

/-- The nodes that a round of the scaler wants to stop. -/
def State.downs (now : Time) (s : State) : List NodeId :=
  (s.scaling_decisions cfg now).filterMap fun
    | .scale_up _ => none
    | .scale_down node_id => some node_id

/-- The launch that the step begins, if it begins one: the node and the base model. -/
def State.next_launch (s : State) : Label → Option (NodeId × Option BaseModel)
  | .arrive order _ adapter_name =>
      if cfg.max_queue_size ≤ s.pending_requests ∨ cfg.forward_max_attempts = 0 then none
      else s.seek_launch cfg order adapter_name ∅
  | .forwarded order _ r success =>
      match s.requests[r]? with
      | some req =>
          if success = false ∧ req.attempt = 0 ∧ 1 < cfg.forward_max_attempts then
            s.seek_launch cfg order req.adapter_name req.tried_nodes
          else none
      | none => none
  | .scaler_start _ =>
      match s.scaler with
      | .starting (base_model :: _) _ =>
          (s.launch_choice base_model).map fun n => (n, base_model)
      | _ => none
  | .manual_up _ => (s.launch_choice none).map fun n => (n, none)
  | _ => none

/-- The node whose stop call the step begins, if it begins one. -/
def State.next_stop (s : State) : Label → Option NodeId
  | .scaler_round now =>
      if (s.scale_ups cfg now).isEmpty then s.first_registered (s.downs cfg now) else none
  | .scaler_gathered _ =>
      match s.scaler with
      | .starting [] downs => s.first_registered downs
      | _ => none
  | .stop_returned _ i _ =>
      match s.scaler, s.stops[i]? with
      | .stopping rest, some t => if t.by_scaler then s.first_registered rest else none
      | _, _ => none
  | .manual_down _ node_id => s.first_registered [node_id]
  | _ => none

/-- A launch for a request is for the base model of its adapter. -/
def State.Asked (s : State) (caller : Caller) (base_model : Option BaseModel) : Prop :=
  ∀ r, caller = .request r → ∃ req, s.requests[r]? = some req ∧
    base_model = s.policy.get_base_model req.adapter_name

/-- The controller takes the answer to a stop call. -/
def State.end_stop (now : Time) (s : State) (i : Nat) (t : Stop) (success : Bool) : State :=
  { s with
    stops := s.stops.set i { t with awaited := false }
    registry := s.registry.update_node_status now t.node_id
      (if success then .idle else .failed) }

/-- What happens at the agents, and to a launch call that is given up. None of it changes the
registry, which is why most invariants do not mind. -/
inductive Aside (s : State) : Label → State → Prop where
  | cancel (r i) :
      Aside s (.cancel r)
        { s with launches := s.launches.modify i fun l => { l with awaited := false } }
  | delivered {i l} : s.launches[i]? = some l → l.phase = .sent →
      Aside s (.launch_delivered i) (s.launch_delivered i l)
  | ready {i l} : s.launches[i]? = some l → l.phase = .loading →
      Aside s (.launch_ready i)
        ((s.set_launch i { l with phase := .replied true }).set_agent l.node_id
          { s.agents l.node_id with controller_running := true })
  | timeout {i l} : s.launches[i]? = some l → l.phase = .loading →
      Aside s (.launch_timeout i)
        ((s.set_launch i { l with phase := .replied false }).set_agent l.node_id
          { s.agents l.node_id with aggregator := none, current_base_model := none })
  | error {i l} : s.launches[i]? = some l → l.phase = .sent →
      Aside s (.launch_error i)
        ((s.set_launch i { l with phase := .replied false }).set_agent l.node_id
          { s.agents l.node_id with current_base_model := l.base_model })
  | crash (n) :
      Aside s (.crash n)
        (s.set_agent n { s.agents n with aggregator := none, restarting := true })
  | stopped (n) :
      Aside s (.stopped n) (s.set_agent n { s.agents n with aggregator := none })
  | restart (n) : Aside s (.restart n) (s.restart n)
  | controller (n running) :
      Aside s (.controller n running)
        (s.set_agent n { s.agents n with controller_running := running })

section Calls

variable {s : State} {now : Time}

/-- The call with this number is an awaited launch call for the node. -/
def State.LaunchAt (s : State) (i : Nat) (n : NodeId) : Prop :=
  ∃ l, s.launches[i]? = some l ∧ l.awaited = true ∧ l.node_id = n

/-- A node is being launched if a call of a launch is on its way. -/
theorem launching_iff (n : NodeId) : s.launching n = true ↔ ∃ i, s.LaunchAt i n := by
  unfold State.launching State.LaunchAt
  rw [List.any_eq_true]
  constructor
  · rintro ⟨l, hMem, hCall⟩
    obtain ⟨i, hAt⟩ := List.mem_iff_getElem?.mp hMem
    rw [Bool.and_eq_true, decide_eq_true_iff] at hCall
    exact ⟨i, l, hAt, hCall⟩
  · rintro ⟨i, l, hAt, hCall⟩
    rw [← decide_eq_true_iff (p := l.node_id = n), ← Bool.and_eq_true] at hCall
    exact ⟨l, List.mem_of_getElem? hAt, hCall⟩

/-- A node is being stopped if a call is awaited. -/
theorem stopping_iff (n : NodeId) :
    s.stopping n = true ↔ ∃ t ∈ s.stops, t.awaited = true ∧ t.node_id = n := by
  unfold State.stopping
  simp only [List.any_eq_true, Bool.and_eq_true, decide_eq_true_eq]

/-- The node of a launch is starting. -/
theorem status_launch (cfg : GlobalControllerConfig) (base_model : Option BaseModel)
    (caller : Caller) (n m : NodeId) :
    (s.launch cfg now base_model caller n).registry.status m =
      if m = n then (s.registry.status m).map fun _ => .starting else s.registry.status m := by
  cases base_model with
  | none => exact s.registry.status_update_node_status now m n .starting
  | some model =>
      exact (ClusterRegistry.status_set_node_base_model _ m n model _).trans
        (s.registry.status_update_node_status now m n .starting)

/-- A launch is on its way to its node. -/
theorem launchAt_launch {cfg : GlobalControllerConfig} {base_model : Option BaseModel}
    {caller : Caller} {n m : NodeId} {i : Nat}
    (h : (s.launch cfg now base_model caller n).LaunchAt i m) :
    s.LaunchAt i m ∨ m = n := by
  obtain ⟨l, hAt, hAwaited, hNode⟩ := h
  rcases List.mem_append.mp (List.mem_of_getElem? hAt) with hOld | hNew
  · rcases Nat.lt_or_ge i s.launches.length with hLt | hGe
    · exact Or.inl ⟨l, (List.getElem?_append_left hLt).symm.trans hAt, hAwaited, hNode⟩
    · right
      have hSingle := (List.getElem?_append_right hGe).symm.trans hAt
      obtain rfl := List.mem_singleton.mp (List.mem_of_getElem? hSingle)
      exact hNode.symm
  · obtain rfl := List.mem_singleton.mp hNew
    exact Or.inr hNode.symm

/-- The earlier launches are on their way as before. -/
theorem launchAt_launch_old {cfg : GlobalControllerConfig} {base_model : Option BaseModel}
    {caller : Caller} {n m : NodeId} {i : Nat}
    (h : (s.launch cfg now base_model caller n).LaunchAt i m) (hi : i ≠ s.launches.length) :
    s.LaunchAt i m := by
  obtain ⟨l, hAt, hAwaited, hNode⟩ := h
  have hBound : i < (s.launches ++ [_]).length := (List.getElem?_eq_some_iff.mp hAt).1
  rw [List.length_append, List.length_singleton] at hBound
  have hLt : i < s.launches.length := by omega
  exact ⟨l, (List.getElem?_append_left hLt).symm.trans hAt, hAwaited, hNode⟩

/-- A call that has returned is not awaited any more. -/
theorem launchAt_end_launch {i j : Nat} {l : Launch} {success : Bool} {m : NodeId}
    (h : (s.end_launch now i l success).LaunchAt j m) : j ≠ i ∧ s.LaunchAt j m := by
  obtain ⟨l', hAt, hAwaited, hNode⟩ := h
  replace hAt : (s.launches.set i { l with awaited := false })[j]? = some l' := hAt
  rw [List.getElem?_set] at hAt
  split at hAt
  · split at hAt
    · obtain rfl := Option.some.inj hAt
      cases hAwaited
    · cases hAt
  · rename_i hNe
    exact ⟨Ne.symm hNe, l', hAt, hAwaited, hNode⟩

/-- A launch in another phase is on its way as before, or no more. -/
theorem launchAt_set_launch {i j : Nat} {l : Launch} {phase : LaunchPhase} {m : NodeId}
    (hCall : s.launches[i]? = some l)
    (h : (s.set_launch i { l with phase := phase }).LaunchAt j m) : s.LaunchAt j m := by
  obtain ⟨l', hAt, hAwaited, hNode⟩ := h
  replace hAt : (s.launches.set i { l with phase := phase })[j]? = some l' := hAt
  rw [List.getElem?_set] at hAt
  split at hAt
  · rename_i hEq
    split at hAt
    · obtain rfl := Option.some.inj hAt
      exact ⟨l, hEq ▸ hCall, hAwaited, hNode⟩
    · cases hAt
  · exact ⟨l', hAt, hAwaited, hNode⟩

/-- Stopping a node stops no other. -/
theorem stopping_scale_down {by_scaler : Bool} {n m : NodeId}
    (h : (s.scale_down now by_scaler n).stopping m = true) : s.stopping m = true ∨ m = n := by
  unfold State.scale_down at h
  split at h
  · rw [stopping_iff] at h
    obtain ⟨t, hMem, hAwaited, hNode⟩ := h
    rcases List.mem_append.mp hMem with hOld | hNew
    · exact Or.inl ((stopping_iff m).mpr ⟨t, hOld, hAwaited, hNode⟩)
    · obtain rfl := List.mem_singleton.mp hNew
      exact Or.inr hNode.symm
  · exact Or.inl h

/-- The end of a stop call begins none. -/
theorem stopping_end_stop {i : Nat} {t : Stop} {success : Bool} {m : NodeId}
    (h : (s.end_stop now i t success).stopping m = true) : s.stopping m = true := by
  rw [stopping_iff] at h ⊢
  obtain ⟨t', hMem, hAwaited, hNode⟩ := h
  rcases List.mem_or_eq_of_mem_set hMem with hOld | rfl
  · exact ⟨t', hOld, hAwaited, hNode⟩
  · cases hAwaited

/-- Nothing that happens aside is seen by the controller, except that it may give up a call. -/
theorem Aside.unseen {l : Label} {t : State} (h : Aside s l t) :
    t.registry = s.registry ∧ t.stops = s.stops ∧ t.selections = s.selections ∧
      ∀ i n, t.LaunchAt i n → s.LaunchAt i n := by
  cases h with
  | cancel r i =>
      refine ⟨rfl, rfl, rfl, ?_⟩
      rintro j n ⟨l', hAt, hAwaited, hNode⟩
      replace hAt : (s.launches.modify i fun l => { l with awaited := false })[j]? = some l' :=
        hAt
      rw [List.getElem?_modify] at hAt
      obtain ⟨l, hOld, rfl⟩ := Option.map_eq_some_iff.mp hAt
      by_cases hij : i = j
      · rw [if_pos hij] at hAwaited
        cases hAwaited
      · rw [if_neg hij] at hAwaited hNode
        exact ⟨l, hOld, hAwaited, hNode⟩
  | delivered hCall hPhase =>
      unfold State.launch_delivered
      dsimp only
      split
      · exact ⟨rfl, rfl, rfl, fun j m => launchAt_set_launch hCall⟩
      · exact ⟨rfl, rfl, rfl, fun j m => launchAt_set_launch hCall⟩
  | ready hCall hPhase => exact ⟨rfl, rfl, rfl, fun j m => launchAt_set_launch hCall⟩
  | timeout hCall hPhase => exact ⟨rfl, rfl, rfl, fun j m => launchAt_set_launch hCall⟩
  | error hCall hPhase => exact ⟨rfl, rfl, rfl, fun j m => launchAt_set_launch hCall⟩
  | crash n => exact ⟨rfl, rfl, rfl, fun j m h => h⟩
  | stopped n => exact ⟨rfl, rfl, rfl, fun j m h => h⟩
  | restart n => exact ⟨rfl, rfl, rfl, fun j m h => h⟩
  | controller n running => exact ⟨rfl, rfl, rfl, fun j m h => h⟩

end Calls

/-- What a step comes to, as far as nodes, launches and stops are concerned. Each invariant of the
cluster goes by cases on this, not on the handlers. -/
inductive Effect (s : State) : Label → State → Prop where
  | nothing (l) : Effect s l s
  | aside {l t} : Aside s l t → Effect s l t
  | select {l a n} : s.Serves a n → Effect s l (s.select a n)
  | launch {l t now base_model caller n} : Same s t →
      s.next_launch cfg l = some (n, base_model) → s.registry.status n = some .idle →
      t.Asked caller base_model → Effect s l (t.launch cfg now base_model caller n)
  | launch_returned {now i answered l success} : s.launches[i]? = some l → l.awaited = true →
      (success = true → l.phase = .replied true) →
      Effect s (.launch_returned now i answered) (s.end_launch now i l success)
  | launch_used {now i answered l r req} : s.launches[i]? = some l → l.awaited = true →
      l.phase = .replied true → l.caller = .request r → s.requests[r]? = some req →
      Effect s (.launch_returned now i answered)
        ((s.end_launch now i l true).select req.adapter_name l.node_id)
  | stop {l now by_scaler n} : s.next_stop cfg l = some n →
      Effect s l (s.scale_down now by_scaler n)
  | stop_returned {now i success t} : s.stops[i]? = some t → t.awaited = true →
      Effect s (.stop_returned now i success) (s.end_stop now i t success)
  | stop_next {now i success t by_scaler n} : s.stops[i]? = some t → t.awaited = true →
      s.next_stop cfg (.stop_returned now i success) = some n →
      Effect s (.stop_returned now i success) ((s.end_stop now i t success).scale_down now
        by_scaler n)
  | health (now) : Effect s (.health now) (s.health_pass cfg now)
  | register (now n reg base_model) :
      Effect s (.register now n reg base_model) (s.register now n reg base_model)
  | unregister (order n) :
      Effect s (.unregister order n)
        { s with registry := s.registry.unregister_node order n }
  | heartbeat {order now i b} : s.heartbeats[i]? = some b →
      Effect s (.heartbeat_delivered order now i)
        ({ s with heartbeats := s.heartbeats.eraseIdx i }.heartbeat now order b)

section Inversion

variable {cfg} {s s' : State}

/-- The rest of a step after its effect is bookkeeping. -/
def Comes (cfg : GlobalControllerConfig) (s : State) (l : Label) (s' : State) : Prop :=
  ∃ t, Effect cfg s l t ∧ Same t s'

/-- An effect is what a step comes to. -/
theorem Effect.comes {l : Label} (h : Effect cfg s l s') : Comes cfg s l s' :=
  ⟨s', h, Same.refl s'⟩

/-- So is nothing at all. -/
theorem comes_of_same {l : Label} (h : Same s s') : Comes cfg s l s' :=
  ⟨s, .nothing l, h⟩

/-- A search for a node that the step makes after some bookkeeping. -/
theorem comes_of_seek (hNamed : s.registry.Named) {t : State} (hSame : Same s t)
    (hServes : ∀ a n, t.Serves a n → s.Serves a n) (req : Request) {l : Label} {now : Time}
    {order : SetOrder NodeId} {r : RequestId} {tried_nodes : Finset NodeId}
    (hReq : t.requests[r]? = some req)
    (hNext : ∀ n base_model,
      t.seek_launch cfg order req.adapter_name tried_nodes = some (n, base_model) →
        s.next_launch cfg l = some (n, base_model)) :
    Comes cfg s l (t.seek cfg now order r req.adapter_name tried_nodes) := by
  rcases seek_cases cfg now (hSame.named hNamed) order r req.adapter_name tried_nodes with
    ⟨n, hNode, hSelect⟩ | ⟨n, hLaunch, hIdle, -, hSeek⟩ | hNothing
  · exact ⟨_, .select (hServes req.adapter_name n hNode), (hSame.select _ n).trans hSelect⟩
  · have hAsked : t.Asked (.request r) (t.policy.get_base_model req.adapter_name) := by
      rintro k ⟨⟩
      exact ⟨req, hReq, rfl⟩
    exact ⟨_, .launch hSame (hNext n _ hLaunch) ((hSame.status n).symm.trans hIdle) hAsked,
      hSeek⟩
  · exact comes_of_same (hSame.trans hNothing)

/-- A request arrives and looks for a node. -/
theorem comes_of_arrive (hNamed : s.registry.Named) (order : SetOrder NodeId) (now : Time)
    (a : AdapterName) : Comes cfg s (.arrive order now a) (s.arrive cfg now order a) := by
  unfold State.arrive
  split
  · exact comes_of_same (Same.refl s)
  · rename_i hRoom
    have hAdd := Same.add_request s (s.pending_requests + 1) { adapter_name := a }
    dsimp only
    split
    · exact comes_of_same (hAdd.trans (Same.finish _ _))
    · rename_i hAttempts
      apply comes_of_seek hNamed hAdd (fun _ _ h => h) { adapter_name := a }
      · exact List.getElem?_concat_length
      · intro n base_model hLaunch
        show (if _ then none else s.seek_launch cfg order a ∅) = _
        rw [if_neg (not_or.mpr ⟨hRoom, hAttempts⟩)]
        exact hLaunch

/-- A request whose forward has failed looks for another node. -/
theorem comes_of_forward_failed (hNamed : s.registry.Named) (order : SetOrder NodeId)
    (now : Time) {r : RequestId} {req : Request} (hReq : s.requests[r]? = some req) :
    Comes cfg s (.forwarded order now r false) (s.forward_failed cfg now order r req) := by
  unfold State.forward_failed
  split
  · rename_i hFirst
    apply comes_of_seek hNamed
      (Same.modify_request s r (f := fun req => { req with attempt := 1 }) fun _ => rfl)
      (fun _ _ h => h) { req with attempt := 1 }
    · show (s.requests.modify r _)[r]? = _
      rw [List.getElem?_modify, hReq]
      simp only [if_true]
      rfl
    · intro n base_model hLaunch
      simp only [State.next_launch, hReq]
      rw [if_pos ⟨trivial, hFirst⟩]
      exact hLaunch
  · exact comes_of_same (Same.finish s r)

/-- Of the nodes that are to be stopped the first one that is registered is. -/
theorem comes_of_scale_downs {l : Label} {now : Time} (nodes : List NodeId)
    (hNext : s.next_stop cfg l = s.first_registered nodes) :
    Comes cfg s l (s.scale_downs now nodes) := by
  rcases scale_downs_cases now (s := s) nodes with ⟨n, hFirst, hStop⟩ | hNothing
  · exact ⟨_, .stop (hNext.trans hFirst), hStop⟩
  · exact comes_of_same hNothing

/-- The scaler or an operator starts a node, if there is one to start. -/
theorem comes_of_scale_up (now : Time) (base_model : Option BaseModel) (caller : Caller)
    {l : Label} {t : State} (hSame : Same s t) (hNamed : s.registry.Named)
    (hCaller : ∀ r, caller ≠ .request r) (hChoice : t.launch_choice base_model =
      s.launch_choice base_model)
    (hNext : s.next_launch cfg l = (s.launch_choice base_model).map fun n => (n, base_model)) :
    Comes cfg s l (match t.scale_up cfg now base_model caller with
      | .ok (some s') => s'
      | _ => t) := by
  rcases scale_up_cases cfg now t base_model caller with ⟨n, hSome, hLaunch⟩ | hNone
  · rw [hLaunch]
    rw [hChoice] at hSome
    rw [hSome] at hNext
    exact Effect.comes (.launch hSame hNext (idle_of_launch_choice hNamed hSome)
      fun r hRequest => (hCaller r hRequest).elim)
  · split
    · rename_i t' hSome
      exact (hNone t' hSome).elim
    · exact comes_of_same hSame

/-- A launch call returns, and its caller goes on. -/
theorem comes_of_launch_returned {now : Time} {i : Nat} {answered : Bool} {l : Launch}
    {success : Bool} (hCall : s.launches[i]? = some l) (hAwaited : l.awaited = true)
    (hAnswer : success = true → l.phase = .replied true) :
    Comes cfg s (.launch_returned now i answered) (s.launch_returned cfg now i l success) := by
  rcases launch_returned_cases cfg now (s := s) i l success with
    ⟨r, req, rfl, hCaller, hReq, hUsed⟩ | hEnded
  · exact ⟨_, .launch_used hCall hAwaited (hAnswer rfl) hCaller hReq, hUsed⟩
  · exact ⟨_, .launch_returned hCall hAwaited hAnswer, hEnded⟩

/-- The end of a stop call leaves the order of the nodes. -/
theorem first_registered_end_stop (now : Time) (s : State) (i : Nat) (t : Stop)
    (success : Bool) (nodes : List NodeId) :
    (s.end_stop now i t success).first_registered nodes = s.first_registered nodes := by
  unfold State.first_registered State.end_stop
  congr 1
  funext n
  rw [ClusterRegistry.status_update_node_status]
  split
  · exact Option.isSome_map
  · rfl

/-- A stop call returns, and the scaler goes on with its list. -/
theorem comes_of_stop_returned {now : Time} {i : Nat} {success : Bool} {t : Stop}
    (hCall : s.stops[i]? = some t) (hAwaited : t.awaited = true) :
    Comes cfg s (.stop_returned now i success)
      (match s.scaler with
      | .stopping rest =>
          if t.by_scaler then (s.end_stop now i t success).scale_downs now rest
          else s.end_stop now i t success
      | _ => s.end_stop now i t success) := by
  split
  · rename_i rest hScaler
    split
    · rename_i hMine
      rcases scale_downs_cases now (s := s.end_stop now i t success) rest with
        ⟨n, hFirst, hStop⟩ | hNothing
      · rw [first_registered_end_stop] at hFirst
        have hNext : s.next_stop cfg (.stop_returned now i success) = some n := by
          simp only [State.next_stop, hScaler, hCall, if_pos hMine, hFirst]
        exact ⟨_, .stop_next hCall hAwaited hNext, hStop⟩
      · exact ⟨_, .stop_returned hCall hAwaited, hNothing⟩
    · exact Effect.comes (.stop_returned hCall hAwaited)
  · exact Effect.comes (.stop_returned hCall hAwaited)

/-- A node is stopped if it is registered. -/
theorem comes_of_scale_down {l : Label} {now : Time} {n : NodeId} {by_scaler : Bool}
    (hNext : s.next_stop cfg l = s.first_registered [n]) :
    Comes cfg s l (s.scale_down now by_scaler n) := by
  cases hRegistered : (s.registry.status n).isSome with
  | true =>
      have hFirst : s.first_registered [n] = some n := by
        unfold State.first_registered
        rw [List.find?_cons, hRegistered]
      exact Effect.comes (.stop (hNext.trans hFirst))
  | false =>
      have hNode : (s.registry.get_node n).isSome = false := Option.isSome_map.symm.trans hRegistered
      unfold State.scale_down
      rw [hNode]
      exact comes_of_same (Same.refl s)

/-- A request that is cancelled gives up its launch. -/
theorem comes_of_cancel (r : RequestId) (req : Request) :
    Comes cfg s (.cancel r) (s.cancel r req) := by
  unfold State.cancel
  dsimp only
  split
  · rename_i i hPc
    exact ⟨_, .aside (.cancel r i), Same.finish _ r⟩
  · exact comes_of_same (Same.finish s r)

/-- A request looks again. -/
theorem comes_of_poll (hNamed : s.registry.Named) {order : SetOrder NodeId} {now : Time}
    {r : RequestId} (hStep : step cfg s (.poll order now r) = some s') :
    Comes cfg s (.poll order now r) s' := by
  simp only [step] at hStep
  split at hStep
  · rename_i req hReq
    split at hStep
    · rename_i left hPc
      obtain rfl := Option.some.inj hStep
      rcases poll_cases now hNamed order r req left with ⟨n, hNode, hPoll⟩ | hNothing
      · exact ⟨_, .select hNode, hPoll⟩
      · exact comes_of_same hNothing
    · cases hStep
  · cases hStep

/-- A forward has ended. -/
theorem comes_of_forwarded (hNamed : s.registry.Named) {order : SetOrder NodeId} {now : Time}
    {r : RequestId} {success : Bool}
    (hStep : step cfg s (.forwarded order now r success) = some s') :
    Comes cfg s (.forwarded order now r success) s' := by
  simp only [step] at hStep
  split at hStep
  · rename_i req hReq
    split at hStep
    · split at hStep
      · obtain rfl := Option.some.inj hStep
        exact comes_of_same (Same.finish s r)
      · rename_i hFailed
        obtain rfl := Option.some.inj hStep
        obtain rfl := Bool.eq_false_iff.mpr hFailed
        exact comes_of_forward_failed hNamed order now hReq
    · cases hStep
  · cases hStep

/-- What the agent does with a launch request, one label for each outcome. -/
theorem comes_of_launch_call {i : Nat} {label : Label} (hLabel : label = .launch_delivered i ∨
      label = .launch_ready i ∨ label = .launch_timeout i ∨ label = .launch_error i)
    (hStep : step cfg s label = some s') : Comes cfg s label s' := by
  rcases hLabel with rfl | rfl | rfl | rfl
  all_goals
    simp only [step] at hStep
    split at hStep
    case h_2 => cases hStep
    rename_i l hCall
    split at hStep
    case isFalse => cases hStep
    rename_i hPhase
    obtain rfl := Option.some.inj hStep
  · exact Effect.comes (.aside (.delivered hCall hPhase))
  · exact Effect.comes (.aside (.ready hCall hPhase))
  · exact Effect.comes (.aside (.timeout hCall hPhase))
  · exact Effect.comes (.aside (.error hCall hPhase.1))

/-- The agent has answered a launch call, or its time is up. -/
theorem comes_of_answer {now : Time} {i : Nat} {answered : Bool}
    (hStep : step cfg s (.launch_returned now i answered) = some s') :
    Comes cfg s (.launch_returned now i answered) s' := by
  simp only [step] at hStep
  split at hStep
  · rename_i l hCall
    split at hStep
    · rename_i hAwaited
      split at hStep
      · split at hStep
        · rename_i success hPhase
          obtain rfl := Option.some.inj hStep
          apply comes_of_launch_returned hCall hAwaited
          rintro rfl
          exact hPhase
        · cases hStep
      · obtain rfl := Option.some.inj hStep
        apply comes_of_launch_returned hCall hAwaited
        rintro ⟨⟩
    · cases hStep
  · cases hStep

/-- The scaler begins its round. -/
theorem comes_of_scaler_round {now : Time} (hStep : step cfg s (.scaler_round now) = some s') :
    Comes cfg s (.scaler_round now) s' := by
  simp only [step] at hStep
  split at hStep
  · obtain rfl := Option.some.inj hStep
    unfold State.scaler_round
    dsimp only
    split
    · rename_i hUps
      apply comes_of_scale_downs
      show (if (s.scale_ups cfg now).isEmpty then _ else none) = _
      rw [hUps]
      rfl
    · exact comes_of_same { Same.refl s with }
  · cases hStep

/-- The scaler starts the next node of its list. -/
theorem comes_of_scaler_start (hNamed : s.registry.Named) {now : Time}
    (hStep : step cfg s (.scaler_start now) = some s') : Comes cfg s (.scaler_start now) s' := by
  simp only [step] at hStep
  split at hStep
  · rename_i base_model ups downs hScaler
    have hSame : Same s { s with scaler := .starting ups downs } := { Same.refl s with }
    have hComes : Comes cfg s (.scaler_start now) _ :=
      comes_of_scale_up now base_model .scaler hSame hNamed (fun r h => by cases h) rfl
        (by simp only [State.next_launch, hScaler])
    split at hStep
    · rename_i t hLaunch
      obtain rfl := Option.some.inj hStep
      rw [hLaunch] at hComes
      exact hComes
    · obtain rfl := Option.some.inj hStep
      exact comes_of_same hSame
  · cases hStep

/-- The scaler goes on to the nodes that it wants to stop. -/
theorem comes_of_scaler_gathered {now : Time}
    (hStep : step cfg s (.scaler_gathered now) = some s') :
    Comes cfg s (.scaler_gathered now) s' := by
  simp only [step] at hStep
  split at hStep
  · rename_i downs hScaler
    split at hStep
    · cases hStep
    · obtain rfl := Option.some.inj hStep
      apply comes_of_scale_downs
      simp only [State.next_stop, hScaler]
  · cases hStep

/-- A stop call has ended. -/
theorem comes_of_stop_call {now : Time} {i : Nat} {success : Bool}
    (hStep : step cfg s (.stop_returned now i success) = some s') :
    Comes cfg s (.stop_returned now i success) s' := by
  simp only [step] at hStep
  split at hStep
  · rename_i t hCall
    split at hStep
    · rename_i hAwaited
      have hComes : Comes cfg s (.stop_returned now i success) _ :=
        comes_of_stop_returned hCall hAwaited
      split at hStep
      · rename_i rest hScaler
        simp only [hScaler] at hComes
        split at hStep
        · rename_i hMine
          obtain rfl := Option.some.inj hStep
          rw [if_pos hMine] at hComes
          exact hComes
        · rename_i hMine
          obtain rfl := Option.some.inj hStep
          rw [if_neg hMine] at hComes
          exact hComes
      · obtain rfl := Option.some.inj hStep
        exact Effect.comes (.stop_returned hCall hAwaited)
    · cases hStep
  · cases hStep

/-- An operator starts a node. -/
theorem comes_of_manual_up (hNamed : s.registry.Named) {now : Time}
    (hStep : step cfg s (.manual_up now) = some s') : Comes cfg s (.manual_up now) s' := by
  simp only [step] at hStep
  have hComes : Comes cfg s (.manual_up now) _ :=
    comes_of_scale_up now none .manual (Same.refl s) hNamed (fun r h => by cases h) rfl rfl
  split at hStep
  · rename_i t hLaunch
    obtain rfl := Option.some.inj hStep
    rw [hLaunch] at hComes
    exact hComes
  · obtain rfl := Option.some.inj hStep
    exact comes_of_same (Same.refl s)

/-- Every step is an effect, with some bookkeeping behind it. -/
theorem comes_of_step (hNamed : s.registry.Named) {l : Label} (hStep : step cfg s l = some s') :
    Comes cfg s l s' := by
  cases l with
  | arrive order now a => exact Option.some.inj hStep ▸ comes_of_arrive hNamed order now a
  | poll order now r => exact comes_of_poll hNamed hStep
  | forwarded order now r success => exact comes_of_forwarded hNamed hStep
  | cancel r =>
      simp only [step] at hStep
      split at hStep
      · rename_i req hReq
        simp only [Option.ite_none_left_eq_some, Option.some.injEq] at hStep
        exact hStep.2 ▸ comes_of_cancel r req
      · cases hStep
  | launch_delivered i => exact comes_of_launch_call (.inl rfl) hStep
  | launch_ready i => exact comes_of_launch_call (.inr (.inl rfl)) hStep
  | launch_timeout i => exact comes_of_launch_call (.inr (.inr (.inl rfl))) hStep
  | launch_error i => exact comes_of_launch_call (.inr (.inr (.inr rfl))) hStep
  | launch_returned now i answered => exact comes_of_answer hStep
  | scaler_round now => exact comes_of_scaler_round hStep
  | scaler_start now => exact comes_of_scaler_start hNamed hStep
  | scaler_gathered now => exact comes_of_scaler_gathered hStep
  | stop_returned now i success => exact comes_of_stop_call hStep
  | manual_up now => exact comes_of_manual_up hNamed hStep
  | manual_down now n => exact Option.some.inj hStep ▸ comes_of_scale_down rfl
  | health now => exact Option.some.inj hStep ▸ Effect.comes (.health now)
  | register now n reg base_model =>
      exact Option.some.inj hStep ▸ Effect.comes (.register now n reg base_model)
  | unregister order n => exact Option.some.inj hStep ▸ Effect.comes (.unregister order n)
  | heartbeat_sent n report =>
      obtain rfl := Option.some.inj hStep
      exact comes_of_same { Same.refl s with }
  | heartbeat_delivered order now i =>
      simp only [step] at hStep
      split at hStep
      · rename_i b hBeat
        exact Option.some.inj hStep ▸ Effect.comes (.heartbeat hBeat)
      · cases hStep
  | crash n =>
      simp only [step, Option.ite_none_right_eq_some, Option.some.injEq] at hStep
      exact hStep.2 ▸ Effect.comes (.aside (.crash n))
  | stopped n => exact Option.some.inj hStep ▸ Effect.comes (.aside (.stopped n))
  | restart n =>
      simp only [step, Option.ite_none_right_eq_some, Option.some.injEq] at hStep
      exact hStep.2 ▸ Effect.comes (.aside (.restart n))
  | controller n running =>
      exact Option.some.inj hStep ▸ Effect.comes (.aside (.controller n running))

end Inversion

/-- An empty registry with any policy. -/
theorem initial_empty : (machine cfg).initial {} := ⟨{}, rfl⟩

end Global

end Cluster
