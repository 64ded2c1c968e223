import SwarmLoRA.Cluster.Effect

namespace Cluster

open Data

namespace Global

open ClusterRegistry

variable (cfg : GlobalControllerConfig)

section Models

variable (s : State) (n : NodeId)

/-- The base models of the process of the node and of the launch calls that may still concern
it: a call that is on its way to the agent, and one whose answer is awaited. -/
def State.bound : List (Option BaseModel) :=
  (s.agents n).aggregator.toList ++
    (s.launches.filter fun l => l.node_id = n && (l.awaited || l.phase = .sent)).map
      (·.base_model)

/-- All that is said of the base model of the node. -/
def State.models : List (Option BaseModel) :=
  ((s.registry.base_model n).map some).toList ++ s.bound n

/-- The process of the node is relied on: the node is active, or a launch call has found the
process running or waits for it. -/
def State.needed : Bool :=
  s.registry.status n = some .active ||
    s.launches.any fun l =>
      l.node_id = n && l.awaited && (l.phase = .loading || l.phase = .replied true)

end Models

/-- Every request for an adapter with a known base model has been given a node whose process was
launched with it, and so has every launch that the agent has answered with success. -/
def Faithful (s : State) : Prop :=
  (∀ sel ∈ s.selections, ∀ model, s.policy.get_base_model sel.adapter_name = some model →
      sel.aggregator = some (some model)) ∧
    ∀ l ∈ s.launches, l.awaited = true → l.phase = .replied true →
      (s.agents l.node_id).aggregator = some l.base_model

/-- No step brings a base model to a node for which another one is on record: a launch, a
heartbeat or a registration that names one, or a restart of the process. -/
def State.agrees (s : State) (l : Label) : Bool :=
  ((s.next_launch cfg l).all fun (n, base_model) =>
      (s.bound n).all (· = base_model) &&
        (base_model.isSome || s.registry.base_model n = none)) &&
    match l with
    | .heartbeat_delivered _ _ i =>
        (s.heartbeats[i]?).all fun b =>
          (s.registry.status b.node_id).isNone || b.base_model.all fun model =>
            model = "" || (s.bound b.node_id).all (· = some model)
    | .register _ n _ base_model =>
        base_model.all fun model => model = "" || (s.bound n).all (· = some model)
    | .restart n =>
        (s.agents n).aggregator.isSome ||
          (s.models n).all (· = (s.agents n).current_base_model)
    | _ => true

/-- No process ends that is relied on, and none is relied on that does not run. -/
def State.alive (s : State) : Label → Bool
  | .crash n | .stopped n => !s.needed n
  | .launch_timeout i =>
      (s.launches[i]?).all fun l =>
        !(s.set_launch i { l with phase := .replied false }).needed l.node_id
  | .heartbeat_delivered _ _ i =>
      (s.heartbeats[i]?).all fun b =>
        (s.registry.status b.node_id).isNone || b.status ≠ .active ||
          (s.agents b.node_id).aggregator.isSome
  | .health now =>
      s.registry.nodes.values.all fun node =>
        !(is_back cfg now node && node.aggregator_pid.isSome) ||
          (s.agents node.node_id).aggregator.isSome
  | _ => true

/-- The invariant of runs in which nothing contradicts what is on record of a node: all that is said
of its base model agrees, and its process runs as long as it is relied on. -/
structure OnRecord (s : State) : Prop where
  named : s.registry.Named
  coherent : ∀ n, ∀ m ∈ s.models n, ∀ m' ∈ s.models n, m = m'
  running : ∀ n, s.needed n = true → (s.agents n).aggregator.isSome
  asked : ∀ l ∈ s.launches, s.Asked l.caller l.base_model
  served : ∀ sel ∈ s.selections, ∀ model,
    s.policy.get_base_model sel.adapter_name = some model → sel.aggregator = some (some model)

section Lists

variable {s : State} {n : NodeId} {m : Option BaseModel}

/-- A base model is bound to the node by its process or by a launch call. -/
theorem mem_bound : m ∈ s.bound n ↔ (s.agents n).aggregator = some m ∨
    ∃ l ∈ s.launches, l.node_id = n ∧ (l.awaited = true ∨ l.phase = .sent) ∧
      l.base_model = m := by
  unfold State.bound
  simp only [List.mem_append, Option.mem_toList, List.mem_map, List.mem_filter,
    Bool.and_eq_true, Bool.or_eq_true, decide_eq_true_eq, and_assoc]

/-- The models of a node are those that the registry has and those that are bound to it. -/
theorem mem_models : m ∈ s.models n ↔
    (∃ model, s.registry.base_model n = some model ∧ some model = m) ∨ m ∈ s.bound n := by
  unfold State.models
  simp only [List.mem_append, Option.mem_toList, Option.map_eq_some_iff]

/-- A node is relied on if it is active or a launch call waits for its process. -/
theorem needed_iff : s.needed n = true ↔ s.registry.status n = some .active ∨
    ∃ l ∈ s.launches, l.node_id = n ∧ l.awaited = true ∧
      (l.phase = .loading ∨ l.phase = .replied true) := by
  unfold State.needed
  simp only [Bool.or_eq_true, List.any_eq_true, Bool.and_eq_true, decide_eq_true_eq, and_assoc]

/-- A launch that is awaited binds its base model. -/
theorem bound_of_awaited {l : Launch} (hMem : l ∈ s.launches) (hAwaited : l.awaited = true) :
    l.base_model ∈ s.bound l.node_id :=
  mem_bound.mpr (Or.inr ⟨l, hMem, rfl, Or.inl hAwaited, rfl⟩)

/-- Setting one launch leaves the others. -/
theorem mem_set_launch {i : Nat} {l l' : Launch} (h : l' ∈ (s.set_launch i l).launches) :
    l' ∈ s.launches ∨ l' = l :=
  List.mem_or_eq_of_mem_set h

/-- A call that has made progress says nothing more of its node than before. -/
theorem mem_bound_set_launch {i : Nat} {l l' : Launch} (h : m ∈ (s.set_launch i l').bound n)
    (hCall : s.launches[i]? = some l) (hNode : l'.node_id = l.node_id)
    (hModel : l'.base_model = l.base_model)
    (hOpen : l'.awaited = true ∨ l'.phase = .sent → l.awaited = true ∨ l.phase = .sent) :
    m ∈ s.bound n := by
  rw [mem_bound] at h ⊢
  rcases h with hRuns | ⟨k, hMem, hAt, hStill, hBase⟩
  · exact Or.inl hRuns
  · rcases mem_set_launch hMem with hOld | rfl
    · exact Or.inr ⟨k, hOld, hAt, hStill, hBase⟩
    · exact Or.inr ⟨l, List.mem_of_getElem? hCall, hNode.symm.trans hAt, hOpen hStill,
        hModel.symm.trans hBase⟩

/-- A process that starts binds its base model. -/
theorem mem_bound_set_agent {k : NodeId} {a : Agent} (h : m ∈ (s.set_agent k a).bound n) :
    m ∈ s.bound n ∨ n = k ∧ a.aggregator = some m := by
  rw [mem_bound] at h
  rcases h with hRuns | hCall
  · replace hRuns : (Function.update s.agents k a n).aggregator = some m := hRuns
    rw [Function.update_apply] at hRuns
    split at hRuns
    · rename_i hn
      exact Or.inr ⟨hn, hRuns⟩
    · exact Or.inl (mem_bound.mpr (Or.inl hRuns))
  · exact Or.inl (mem_bound.mpr (Or.inr hCall))

/-- A launch relies on its node once the process is loading. -/
theorem needed_set_launch {i : Nat} {l : Launch} (h : (s.set_launch i l).needed n = true) :
    s.needed n = true ∨
      n = l.node_id ∧ l.awaited = true ∧ (l.phase = .loading ∨ l.phase = .replied true) := by
  rw [needed_iff] at h
  rcases h with hActive | ⟨k, hMem, rfl, hWaits⟩
  · exact Or.inl (needed_iff.mpr (Or.inl hActive))
  · rcases mem_set_launch hMem with hOld | rfl
    · exact Or.inl (needed_iff.mpr (Or.inr ⟨k, hOld, rfl, hWaits⟩))
    · exact Or.inr ⟨rfl, hWaits⟩

/-- Setting one agent leaves the others. -/
theorem aggregator_set_agent (k : NodeId) (a : Agent) : ((s.set_agent k a).agents n).aggregator =
    if n = k then a.aggregator else (s.agents n).aggregator := by
  show (Function.update s.agents k a n).aggregator = _
  rw [Function.update_apply]
  split <;> rfl

/-- With the registry as it is, the models of a node follow what is bound to it. -/
theorem models_of_bound {s' : State} (hRegistry : s'.registry = s.registry)
    (hBound : ∀ n, ∀ m ∈ s'.bound n, m ∈ s.bound n) :
    ∀ n, ∀ m ∈ s'.models n, m ∈ s.models n := by
  intro n m hMem
  rw [mem_models, hRegistry] at hMem
  rw [mem_models]
  exact hMem.imp_right (hBound n m)

end Lists

namespace OnRecord

variable {cfg} {s s' : State} {now : Time}

/-- What is on record of the node runs there, if it is relied on. -/
theorem aggregator_eq (h : OnRecord s) {n : NodeId} {m : Option BaseModel}
    (hNeeded : s.needed n = true) (hModel : m ∈ s.models n) :
    (s.agents n).aggregator = some m := by
  obtain ⟨m', hRuns⟩ := Option.isSome_iff_exists.mp (h.running n hNeeded)
  have hBound : m' ∈ s.models n := mem_models.mpr (Or.inr (mem_bound.mpr (Or.inl hRuns)))
  rw [hRuns, h.coherent n m hModel m' hBound]

/-- What the invariant says of the nodes is what a faithful state is. -/
theorem faithful (h : OnRecord s) : Faithful s := by
  refine ⟨h.served, ?_⟩
  intro l hMem hAwaited hPhase
  apply h.aggregator_eq
  · exact needed_iff.mpr (Or.inr ⟨l, hMem, rfl, hAwaited, Or.inr hPhase⟩)
  · exact mem_models.mpr (Or.inr (bound_of_awaited hMem hAwaited))

/-- Nothing is recorded at the start. -/
theorem initial {s : State} (h : Global.initial s) : OnRecord s := by
  obtain ⟨policy, rfl⟩ := h
  constructor
  · intro n node hFind
    cases hFind
  · rintro n m ⟨⟩
  · rintro n ⟨⟩
  · rintro l ⟨⟩
  · rintro sel ⟨⟩

/-- The bookkeeping of requests has no part in the invariant. -/
theorem same (h : OnRecord s) (hSame : Same s s') : OnRecord s' := by
  have hBound : ∀ n, s'.bound n = s.bound n := by
    intro n
    unfold State.bound
    rw [hSame.agents, hSame.launches]
  have hModels : ∀ n, s'.models n = s.models n := by
    intro n
    unfold State.models
    rw [hBound, hSame.base_model]
  have hBase : ∀ a, s'.policy.get_base_model a = s.policy.get_base_model a := by
    intro a
    unfold PlacementPolicy.get_base_model
    rw [hSame.models]
  constructor
  · exact hSame.named h.named
  · intro n
    rw [hModels]
    exact h.coherent n
  · intro n hNeeded
    rw [needed_iff, hSame.status, hSame.launches, ← needed_iff] at hNeeded
    rw [hSame.agents]
    exact h.running n hNeeded
  · rw [hSame.launches]
    intro l hMem r hCaller
    obtain ⟨req, hReq, hModel⟩ := h.asked l hMem r hCaller
    obtain ⟨req', hReq', hName⟩ := hSame.asked r req hReq
    refine ⟨req', hReq', ?_⟩
    rw [hBase, hName]
    exact hModel
  · rw [hSame.selections]
    intro sel hMem model hModel
    rw [hBase] at hModel
    exact h.served sel hMem model hModel

/-- The requests are as they were, and so are the launches up to their progress. -/
structure Progress (s s' : State) : Prop where
  requests : s'.requests = s.requests
  policy : s'.policy = s.policy
  selections : s'.selections = s.selections
  launches : ∀ l' ∈ s'.launches, ∃ l ∈ s.launches, l'.caller = l.caller ∧
    l'.base_model = l.base_model

/-- A launch call goes on, and every node still has one model. -/
theorem progress (h : OnRecord s) (hProgress : Progress s s') (hNamed : s'.registry.Named)
    (hCoherent : ∀ n, ∀ m ∈ s'.models n, ∀ m' ∈ s'.models n, m = m')
    (hRunning : ∀ n, s'.needed n = true → (s'.agents n).aggregator.isSome) : OnRecord s' where
  named := hNamed
  coherent := hCoherent
  running := hRunning
  asked := by
    intro l' hMem
    obtain ⟨l, hOld, hCaller, hModel⟩ := hProgress.launches l' hMem
    unfold State.Asked
    rw [hCaller, hModel, hProgress.requests, hProgress.policy]
    exact h.asked l hOld
  served := by
    rw [hProgress.selections, hProgress.policy]
    exact h.served

/-- Nothing more is said of any node. -/
theorem coherent_of_subset (h : OnRecord s) (hModels : ∀ n, ∀ m ∈ s'.models n, m ∈ s.models n) :
    ∀ n, ∀ m ∈ s'.models n, ∀ m' ∈ s'.models n, m = m' := by
  intro n m hm m' hm'
  exact h.coherent n m (hModels n m hm) m' (hModels n m' hm')

/-- A launch in another phase has gone on. -/
theorem Progress.set_phase {i : Nat} {l : Launch} (hCall : s.launches[i]? = some l)
    (phase : LaunchPhase) : Progress s (s.set_launch i { l with phase := phase }) where
  requests := rfl
  policy := rfl
  selections := rfl
  launches k hMem := by
    rcases mem_set_launch hMem with hOld | rfl
    · exact ⟨k, hOld, rfl, rfl⟩
    · exact ⟨l, List.mem_of_getElem? hCall, rfl, rfl⟩

/-- An agent may change while a launch goes on. -/
theorem Progress.set_agent (h : Progress s s') (n : NodeId) (a : Agent) :
    Progress s (s'.set_agent n a) :=
  { h with }

/-- A launch may wait. -/
theorem Progress.refl (s : State) : Progress s s where
  requests := rfl
  policy := rfl
  selections := rfl
  launches k hMem := ⟨k, hMem, rfl, rfl⟩

/-- The process of a node ends. -/
theorem ended (h : OnRecord s) {n : NodeId} {a : Agent} (hNone : a.aggregator = none)
    (hFree : s.needed n = false) : OnRecord (s.set_agent n a) := by
  apply h.progress ((Progress.refl s).set_agent _ _) h.named
  · apply h.coherent_of_subset
    refine models_of_bound rfl ?_
    intro k m hMem
    rcases mem_bound_set_agent hMem with hOld | ⟨-, hRuns⟩
    · exact hOld
    · rw [hNone] at hRuns
      cases hRuns
  · intro k hNeeded
    replace hNeeded : s.needed k = true := hNeeded
    rw [aggregator_set_agent, if_neg]
    · exact h.running k hNeeded
    · rintro rfl
      rw [hNeeded] at hFree
      cases hFree

/-- Nothing changes about the process of the node. -/
theorem set_agent (h : OnRecord s) {n : NodeId} {a : Agent}
    (hSame : a.aggregator = (s.agents n).aggregator) : OnRecord (s.set_agent n a) := by
  apply h.progress ((Progress.refl s).set_agent _ _) h.named
  · apply h.coherent_of_subset
    refine models_of_bound rfl ?_
    intro k m hMem
    rcases mem_bound_set_agent hMem with hOld | ⟨rfl, hRuns⟩
    · exact hOld
    · exact mem_bound.mpr (Or.inl (hSame.symm.trans hRuns))
  · intro k hNeeded
    rw [aggregator_set_agent]
    split
    · rename_i hk
      rw [hSame, ← hk]
      exact h.running k hNeeded
    · exact h.running k hNeeded

/-- A launch call gets further. -/
theorem set_launch (h : OnRecord s) {i : Nat} {l : Launch} (hCall : s.launches[i]? = some l)
    (phase : LaunchPhase) (hSent : phase = .sent → l.phase = .sent)
    (hRuns : l.awaited = true → phase = .loading ∨ phase = .replied true →
      (s.agents l.node_id).aggregator.isSome) :
    OnRecord (s.set_launch i { l with phase := phase }) := by
  apply h.progress (Progress.set_phase hCall phase) h.named
  · apply h.coherent_of_subset
    refine models_of_bound rfl ?_
    intro k m hMem
    exact mem_bound_set_launch hMem hCall rfl rfl (Or.imp_right hSent)
  · intro k hNeeded
    rcases needed_set_launch hNeeded with hOld | ⟨rfl, hAwaited, hPhase⟩
    · exact h.running k hOld
    · exact hRuns hAwaited hPhase

/-- The agent starts a process with the base model of the call. -/
theorem start (h : OnRecord s) {i : Nat} {l : Launch} {a : Agent}
    (hCall : s.launches[i]? = some l) (hSent : l.phase = .sent)
    (hStarted : a.aggregator = some l.base_model) :
    OnRecord ((s.set_launch i { l with phase := .loading }).set_agent l.node_id a) := by
  have hBound : l.base_model ∈ s.bound l.node_id :=
    mem_bound.mpr (Or.inr ⟨l, List.mem_of_getElem? hCall, rfl, Or.inr hSent, rfl⟩)
  apply h.progress ((Progress.set_phase hCall .loading).set_agent _ _) h.named
  · apply h.coherent_of_subset
    refine models_of_bound rfl ?_
    intro k m hMem
    rcases mem_bound_set_agent hMem with hOld | ⟨rfl, hRuns⟩
    · exact mem_bound_set_launch hOld hCall rfl rfl fun _ => Or.inr hSent
    · rw [hStarted] at hRuns
      obtain rfl := Option.some.inj hRuns
      exact hBound
  · intro k hNeeded
    rw [aggregator_set_agent]
    split
    · rw [hStarted]
      rfl
    · rename_i hk
      replace hNeeded : (s.set_launch i { l with phase := .loading }).needed k = true := hNeeded
      rcases needed_set_launch hNeeded with hOld | ⟨rfl, -⟩
      · exact h.running k hOld
      · exact (hk rfl).elim

/-- The process monitor starts a process with what is on record of the node. -/
theorem restarted (h : OnRecord s) {n : NodeId}
    (hAgrees : s.agrees cfg (.restart n) = true) : OnRecord (s.restart n) := by
  have hGuard : (s.agents n).aggregator.isSome = true ∨
      ∀ m ∈ s.models n, m = (s.agents n).current_base_model := by
    simpa only [State.agrees, State.next_launch, Option.all_none, Bool.true_and, Bool.or_eq_true,
      List.all_eq_true, decide_eq_true_eq] using hAgrees
  rcases Option.eq_none_or_eq_some (s.agents n).aggregator with hNone | ⟨m, hRuns⟩
  · have hModels : ∀ m ∈ s.models n, m = (s.agents n).current_base_model := by
      apply hGuard.resolve_left
      rw [hNone]
      exact Bool.false_ne_true
    have hNew : ∀ k, ∀ m ∈ (s.restart n).models k,
        m ∈ s.models k ∨ k = n ∧ m = (s.agents n).current_base_model := by
      intro k m hMem
      rcases mem_models.mp hMem with hBase | hBound
      · exact Or.inl (mem_models.mpr (Or.inl hBase))
      · rcases mem_bound_set_agent hBound with hOld | ⟨hk, hStarted⟩
        · exact Or.inl (mem_models.mpr (Or.inr hOld))
        · rw [hNone] at hStarted
          exact Or.inr ⟨hk, (Option.some.inj hStarted).symm⟩
    have hSame : ∀ m ∈ (s.restart n).models n, m = (s.agents n).current_base_model := by
      intro m hMem
      rcases hNew n m hMem with hOld | ⟨-, hIs⟩
      · exact hModels m hOld
      · exact hIs
    apply h.progress ((Progress.refl s).set_agent _ _) h.named
    · intro k m hm m' hm'
      by_cases hk : k = n
      · subst hk
        exact (hSame m hm).trans (hSame m' hm').symm
      · exact h.coherent k m ((hNew k m hm).resolve_right fun hBad => hk hBad.1) m'
          ((hNew k m' hm').resolve_right fun hBad => hk hBad.1)
    · intro k hNeeded
      rw [aggregator_set_agent]
      split
      · rw [hNone]
        rfl
      · exact h.running k hNeeded
  · apply h.set_agent
    rw [hRuns]
    rfl

/-- A launch that its caller has given up is still on its way. -/
theorem cancelled (h : OnRecord s) (i : Nat) :
    OnRecord { s with launches := s.launches.modify i fun l => { l with awaited := false } } := by
  have hOld : ∀ l' ∈ s.launches.modify i fun l => { l with awaited := false },
      ∃ l ∈ s.launches, l'.caller = l.caller ∧ l'.base_model = l.base_model ∧
        l'.node_id = l.node_id ∧ l'.phase = l.phase ∧ (l'.awaited = true → l.awaited = true) := by
    intro l' hMem
    obtain ⟨k, hAt⟩ := List.mem_iff_getElem?.mp hMem
    rw [List.getElem?_modify] at hAt
    obtain ⟨l, hCall, rfl⟩ := Option.map_eq_some_iff.mp hAt
    refine ⟨l, List.mem_of_getElem? hCall, ?_⟩
    split
    · exact ⟨rfl, rfl, rfl, rfl, fun hNot => by cases hNot⟩
    · exact ⟨rfl, rfl, rfl, rfl, fun hYes => hYes⟩
  have hProgress : Progress s
      { s with launches := s.launches.modify i fun l => { l with awaited := false } } :=
    { Progress.refl s with
      launches := by
        intro l' hMem
        obtain ⟨l, hIn, hCaller, hModel, -⟩ := hOld l' hMem
        exact ⟨l, hIn, hCaller, hModel⟩ }
  apply h.progress hProgress h.named
  · apply h.coherent_of_subset
    refine models_of_bound rfl ?_
    intro k m hMem
    rcases mem_bound.mp hMem with hRuns | ⟨l', hIn', hNode', hStill, hModel'⟩
    · exact mem_bound.mpr (Or.inl hRuns)
    · obtain ⟨l, hIn, -, hModel, hNode, hPhase, hAwaited⟩ := hOld l' hIn'
      rw [hPhase] at hStill
      exact mem_bound.mpr (Or.inr ⟨l, hIn, hNode.symm.trans hNode', hStill.imp_left hAwaited,
        hModel.symm.trans hModel'⟩)
  · intro k hNeeded
    apply h.running k
    rcases needed_iff.mp hNeeded with hActive | ⟨l', hIn', hNode', hAwaits, hFar⟩
    · exact needed_iff.mpr (Or.inl hActive)
    · obtain ⟨l, hIn, -, -, hNode, hPhase, hAwaited⟩ := hOld l' hIn'
      rw [hPhase] at hFar
      exact needed_iff.mpr (Or.inr ⟨l, hIn, hNode.symm.trans hNode', hAwaited hAwaits, hFar⟩)

/-- A step aside of launches and stops keeps the invariant if what it reports agrees with it and
calls nobody back who is gone. -/
theorem aside (h : OnRecord s) {l : Label} (hAside : Aside s l s')
    (hAgrees : s.agrees cfg l = true) (hAlive : s.alive cfg l = true) : OnRecord s' := by
  cases hAside with
  | cancel r i => exact h.cancelled i
  | @delivered i l hCall hPhase =>
      unfold State.launch_delivered
      dsimp only
      split
      · rename_i hRuns
        exact h.set_launch hCall (.replied true) (fun hNot => by cases hNot) fun _ _ => hRuns
      · exact h.start hCall hPhase rfl
  | @ready i l hCall hPhase =>
      have hReady : OnRecord (s.set_launch i { l with phase := .replied true }) := by
        apply h.set_launch hCall (.replied true) (fun hNot => by cases hNot)
        intro hAwaited _
        apply h.running
        exact needed_iff.mpr
          (Or.inr ⟨l, List.mem_of_getElem? hCall, rfl, hAwaited, Or.inl hPhase⟩)
      exact hReady.set_agent rfl
  | @timeout i l hCall hPhase =>
      have hReplied : OnRecord (s.set_launch i { l with phase := .replied false }) := by
        apply h.set_launch hCall (.replied false) (fun hNot => by cases hNot)
        rintro - (hNot | hNot)
        · cases hNot
        · cases hNot
      apply hReplied.ended rfl
      simp only [State.alive, hCall, Option.all_some] at hAlive
      exact (Bool.not_eq_true' _).mp hAlive
  | @error i l hCall hPhase =>
      have hReplied : OnRecord (s.set_launch i { l with phase := .replied false }) := by
        apply h.set_launch hCall (.replied false) (fun hNot => by cases hNot)
        rintro - (hNot | hNot)
        · cases hNot
        · cases hNot
      exact hReplied.set_agent rfl
  | crash n => exact h.ended rfl ((Bool.not_eq_true' _).mp hAlive)
  | stopped n => exact h.ended rfl ((Bool.not_eq_true' _).mp hAlive)
  | restart n => exact h.restarted hAgrees
  | controller n running => exact h.set_agent rfl

/-- Only the registry changes. -/
theorem of_registry (h : OnRecord s) {r : ClusterRegistry} (hNamed : r.Named)
    (hModels : ∀ n model, r.base_model n = some model →
      s.registry.base_model n = some model ∨ ∀ m ∈ s.bound n, m = some model)
    (hActive : ∀ n, r.status n = some .active → (s.agents n).aggregator.isSome) :
    OnRecord { s with registry := r } := by
  have hProgress : Progress s { s with registry := r } := { Progress.refl s with }
  apply h.progress hProgress hNamed
  · have hBound : ∀ n model, r.base_model n = some model → ∀ m ∈ s.bound n, m = some model := by
      intro n model hModel m hMem
      rcases hModels n model hModel with hOld | hAll
      · exact h.coherent n m (mem_models.mpr (Or.inr hMem)) (some model)
          (mem_models.mpr (Or.inl ⟨model, hOld, rfl⟩))
      · exact hAll m hMem
    intro n m hm m' hm'
    rcases mem_models.mp hm with ⟨model, hModel, rfl⟩ | hOld
    · rcases mem_models.mp hm' with ⟨model', hModel', rfl⟩ | hOld'
      · exact hModel.symm.trans hModel'
      · exact (hBound n model hModel m' hOld').symm
    · rcases mem_models.mp hm' with ⟨model', hModel', rfl⟩ | hOld'
      · exact hBound n model' hModel' m hOld
      · exact h.coherent n m (mem_models.mpr (Or.inr hOld)) m' (mem_models.mpr (Or.inr hOld'))
  · intro n hNeeded
    rcases needed_iff.mp hNeeded with hNow | hCall
    · exact hActive n hNow
    · exact h.running n (needed_iff.mpr (Or.inr hCall))

/-- An active node has a process. -/
theorem running_of_active (h : OnRecord s) {n : NodeId}
    (hActive : s.registry.status n = some .active) : (s.agents n).aggregator.isSome :=
  h.running n (needed_iff.mpr (Or.inl hActive))

/-- A base model may be written if nothing else is bound to the node. -/
theorem set_model (h : OnRecord s) {n : NodeId} {model : BaseModel} (id : Option String)
    (hModel : (s.registry.status n).isSome → ∀ m ∈ s.bound n, m = some model) :
    OnRecord { s with registry := s.registry.set_node_base_model n model id } := by
  apply h.of_registry (h.named.set_node_base_model n model id)
  · intro k named hNamed
    rw [base_model_set_node_base_model] at hNamed
    split at hNamed
    · rename_i hSet
      obtain ⟨rfl, hRegistered⟩ := hSet
      obtain rfl := Option.some.inj hNamed
      exact Or.inr (hModel hRegistered)
    · exact Or.inl hNamed
  · intro k hActive
    rw [status_set_node_base_model] at hActive
    exact h.running_of_active hActive

/-- A node gets a new status, with its process running if it becomes active. -/
theorem set_status (h : OnRecord s) {n : NodeId} {st : NodeStatus}
    (hActive : (s.registry.status n).isSome → st = .active → (s.agents n).aggregator.isSome) :
    OnRecord { s with registry := s.registry.update_node_status now n st } := by
  apply h.of_registry (h.named.update_node_status now n st)
  · intro k model hModel
    rw [base_model_update_node_status] at hModel
    exact Or.inl hModel
  · intro k hNow
    rcases status_of_update hNow with ⟨rfl, hSome, hIs⟩ | ⟨-, hOld⟩
    · exact hActive hSome hIs.symm
    · exact h.running_of_active hOld

/-- What a launch writes to the registry. -/
theorem base_model_launch {base_model : Option BaseModel} {caller : Caller} {n k : NodeId}
    {model : BaseModel}
    (h : (s.launch cfg now base_model caller n).registry.base_model k = some model) :
    s.registry.base_model k = some model ∧ (k = n → base_model = none) ∨
      k = n ∧ base_model = some model := by
  cases base_model with
  | none =>
      replace h : (s.registry.update_node_status now n .starting).base_model k = some model := h
      rw [base_model_update_node_status] at h
      exact Or.inl ⟨h, fun _ => rfl⟩
  | some named =>
      replace h : ((s.registry.update_node_status now n .starting).set_node_base_model n named
        (cfg.model_id named)).base_model k = some model := h
      rw [base_model_set_node_base_model] at h
      split at h
      · rename_i hSet
        obtain rfl := Option.some.inj h
        exact Or.inr ⟨hSet.1, rfl⟩
      · rename_i hNot
        rw [base_model_update_node_status] at h
        refine Or.inl ⟨h, ?_⟩
        rintro rfl
        apply (hNot ⟨rfl, ?_⟩).elim
        obtain ⟨node, hFind, -⟩ := Option.bind_eq_some_iff.mp h
        rw [status_update_node_status, if_pos rfl, Option.isSome_map, status_of_find hFind]
        rfl

/-- A launch for a node to which nothing but its base model is bound. -/
theorem launch (h : OnRecord s) {base_model : Option BaseModel} {caller : Caller} {n : NodeId}
    (hBound : ∀ m ∈ s.bound n, m = base_model)
    (hBase : base_model = none → s.registry.base_model n = none)
    (hAsked : s.Asked caller base_model) : OnRecord (s.launch cfg now base_model caller n) := by
  have hMem : ∀ l ∈ (s.launch cfg now base_model caller n).launches, l ∈ s.launches ∨
      l = { node_id := n, base_model := base_model, caller := caller } := by
    intro l hIn
    rcases List.mem_append.mp hIn with hOld | hNew
    · exact Or.inl hOld
    · exact Or.inr (List.mem_singleton.mp hNew)
  have hNewBound : ∀ k, ∀ m ∈ (s.launch cfg now base_model caller n).bound k,
      m ∈ s.bound k ∨ k = n ∧ m = base_model := by
    intro k m hIn
    rcases mem_bound.mp hIn with hRuns | ⟨l, hCall, hNode, hStill, hModel⟩
    · exact Or.inl (mem_bound.mpr (Or.inl hRuns))
    · rcases hMem l hCall with hOld | rfl
      · exact Or.inl (mem_bound.mpr (Or.inr ⟨l, hOld, hNode, hStill, hModel⟩))
      · exact Or.inr ⟨hNode.symm, hModel.symm⟩
  have hHere : ∀ m ∈ (s.launch cfg now base_model caller n).models n, m = base_model := by
    intro m hIn
    rcases mem_models.mp hIn with ⟨model, hModel, rfl⟩ | hOld
    · rcases base_model_launch hModel with ⟨hOld, hNone⟩ | ⟨-, hNew⟩
      · rw [hBase (hNone rfl)] at hOld
        cases hOld
      · exact hNew.symm
    · rcases hNewBound n m hOld with hStill | ⟨-, hNew⟩
      · exact hBound m hStill
      · exact hNew
  have hElsewhere : ∀ k, k ≠ n → ∀ m ∈ (s.launch cfg now base_model caller n).models k,
      m ∈ s.models k := by
    intro k hk m hIn
    rcases mem_models.mp hIn with ⟨model, hModel, rfl⟩ | hOld
    · rcases base_model_launch hModel with ⟨hStill, -⟩ | ⟨hSame, -⟩
      · exact mem_models.mpr (Or.inl ⟨model, hStill, rfl⟩)
      · exact (hk hSame).elim
    · exact mem_models.mpr (Or.inr ((hNewBound k m hOld).resolve_right fun hNew => hk hNew.1))
  constructor
  · cases base_model with
    | none => exact h.named.update_node_status now n .starting
    | some model => exact (h.named.update_node_status now n .starting).set_node_base_model n _ _
  · intro k m hm m' hm'
    by_cases hk : k = n
    · subst hk
      exact (hHere m hm).trans (hHere m' hm').symm
    · exact h.coherent k m (hElsewhere k hk m hm) m' (hElsewhere k hk m' hm')
  · intro k hNeeded
    rcases needed_iff.mp hNeeded with hActive | ⟨l, hCall, hNode, hAwaited, hFar⟩
    · rw [status_launch] at hActive
      split at hActive
      · obtain ⟨old, -, hNot⟩ := Option.map_eq_some_iff.mp hActive
        cases hNot
      · exact h.running_of_active hActive
    · rcases hMem l hCall with hOld | rfl
      · exact h.running k (needed_iff.mpr (Or.inr ⟨l, hOld, hNode, hAwaited, hFar⟩))
      · rcases hFar with hNot | hNot
        · cases hNot
        · cases hNot
  · intro l hCall
    rcases hMem l hCall with hOld | rfl
    · exact h.asked l hOld
    · exact hAsked
  · exact h.served

/-- A launch call ends, with success only if the process is there. -/
theorem end_launch (h : OnRecord s) {i : Nat} {l : Launch} (hCall : s.launches[i]? = some l)
    (hAwaited : l.awaited = true) {success : Bool}
    (hAnswer : success = true → l.phase = .replied true) :
    OnRecord (s.end_launch now i l success) := by
  have hEnded : OnRecord (s.set_launch i { l with awaited := false }) := by
    have hProgress : Progress s (s.set_launch i { l with awaited := false }) :=
      { Progress.refl s with
        launches := by
          intro k hMem
          rcases mem_set_launch hMem with hOld | rfl
          · exact ⟨k, hOld, rfl, rfl⟩
          · exact ⟨l, List.mem_of_getElem? hCall, rfl, rfl⟩ }
    apply h.progress hProgress h.named
    · apply h.coherent_of_subset
      refine models_of_bound rfl ?_
      intro k m hMem
      exact mem_bound_set_launch hMem hCall rfl rfl fun _ => Or.inl hAwaited
    · intro k hNeeded
      rcases needed_set_launch hNeeded with hOld | ⟨-, hNot, -⟩
      · exact h.running k hOld
      · cases hNot
  have hStatus : OnRecord { s.set_launch i { l with awaited := false } with
      registry := s.registry.update_node_status now l.node_id
        (if success then .active else .failed) } := by
    refine hEnded.set_status ?_
    intro _ hActive
    cases success with
    | true =>
        apply h.running
        exact needed_iff.mpr (Or.inr ⟨l, List.mem_of_getElem? hCall, rfl, hAwaited,
          Or.inr (hAnswer rfl)⟩)
    | false => cases hActive
  exact hStatus

/-- A request goes to a node that runs its base model. -/
theorem select (h : OnRecord s) {a : AdapterName} {n : NodeId}
    (hRuns : ∀ model, s.policy.get_base_model a = some model →
      (s.agents n).aggregator = some (some model)) : OnRecord (s.select a n) := by
  have hSelected : ∀ sel ∈ (s.select a n).selections, ∀ model,
      s.policy.get_base_model sel.adapter_name = some model →
        sel.aggregator = some (some model) := by
    intro sel hMem
    rcases List.mem_append.mp hMem with hOld | hNew
    · exact h.served sel hOld
    · rw [List.mem_singleton.mp hNew]
      exact hRuns
  exact { h with served := hSelected }

/-- A node that is stopped keeps its model until it is idle. -/
theorem scale_down (h : OnRecord s) {by_scaler : Bool} {n : NodeId} :
    OnRecord (s.scale_down now by_scaler n) := by
  unfold State.scale_down
  split
  · have hDraining : OnRecord { s with
        registry := s.registry.update_node_status now n .draining } := by
      apply h.set_status
      rintro - ⟨⟩
    exact { hDraining with }
  · exact h

/-- The end of a stop call forgets the model. -/
theorem end_stop (h : OnRecord s) (i : Nat) (t : Stop) (success : Bool) :
    OnRecord (s.end_stop now i t success) := by
  have hStopped : OnRecord { s with
      registry := s.registry.update_node_status now t.node_id
        (if success then .idle else .failed) } := by
    apply h.set_status
    intro _ hNot
    split at hNot
    · cases hNot
    · cases hNot
  exact { hStopped with }

/-- The health monitor calls back no node whose process is gone. -/
theorem health (h : OnRecord s) (hAlive : s.alive cfg (.health now) = true) :
    OnRecord (s.health_pass cfg now) := by
  apply h.of_registry (named_health cfg now h.named)
  · intro n model hModel
    rw [base_model_health cfg now h.named] at hModel
    exact Or.inl hModel
  · intro n hActive
    rcases active_of_health cfg now h.named hActive with hWas | ⟨node, hMem, rfl, hBack, hPid⟩
    · exact h.running_of_active hWas
    · have hNode := List.all_eq_true.mp hAlive node hMem
      rw [hBack, hPid] at hNode
      exact hNode

/-- A node registers with a base model that agrees with its record. -/
theorem register (h : OnRecord s) {n : NodeId} {reg : Registration}
    {base_model : Option BaseModel}
    (hAgrees : s.agrees cfg (.register now n reg base_model) = true) :
    OnRecord (s.register now n reg base_model) := by
  have hRegistered : OnRecord { s with registry := s.registry.register_node now n reg } := by
    apply h.of_registry (h.named.register_node now n reg)
    · intro k model hModel
      rw [base_model_register_node] at hModel
      exact Or.inl hModel
    · intro k hActive
      rcases status_of_register hActive with hOld | ⟨-, -, hIdle⟩
      · exact h.running_of_active hOld
      · cases hIdle
  unfold State.register
  split
  · rename_i model
    split
    · exact hRegistered
    · rename_i hName
      apply hRegistered.set_model none
      intro _
      simp only [State.agrees, State.next_launch, Option.all_none, Bool.true_and, Option.all_some,
        Bool.or_eq_true, decide_eq_true_eq, List.all_eq_true] at hAgrees
      exact hAgrees.resolve_left hName
  · exact hRegistered

/-- A node that leaves takes its record along. -/
theorem unregister (h : OnRecord s) (order : SetOrder AdapterName) (n : NodeId) :
    OnRecord { s with registry := s.registry.unregister_node order n } := by
  apply h.of_registry (h.named.unregister_node order n)
  · intro k model hModel
    rw [base_model_unregister_node] at hModel
    split at hModel
    · cases hModel
    · exact Or.inl hModel
  · intro k hActive
    rw [status_unregister_node] at hActive
    split at hActive
    · cases hActive
    · exact h.running_of_active hActive

/-- A heartbeat that agrees with the record is taken. -/
theorem heartbeat (h : OnRecord s) {order : SetOrder AdapterName} {i : Nat} {b : Heartbeat}
    (hBeat : s.heartbeats[i]? = some b)
    (hAgrees : s.agrees cfg (.heartbeat_delivered order now i) = true)
    (hAlive : s.alive cfg (.heartbeat_delivered order now i) = true) :
    OnRecord ({ s with heartbeats := s.heartbeats.eraseIdx i }.heartbeat now order b) := by
  simp only [State.agrees, State.next_launch, Option.all_none, Bool.true_and, hBeat,
    Option.all_some, Bool.or_eq_true, Option.isNone_iff_eq_none] at hAgrees
  simp only [State.alive, hBeat, Option.all_some, Bool.or_eq_true, decide_eq_true_eq,
    Option.isNone_iff_eq_none, or_assoc] at hAlive
  have hRegistered : (s.registry.status b.node_id).isSome → s.registry.status b.node_id ≠ none := by
    intro hSome hNone
    rw [hNone] at hSome
    cases hSome
  have hStatus : OnRecord { s with
      registry := s.registry.update_node_status now b.node_id b.status } := by
    apply h.set_status
    intro hSome hActive
    rcases hAlive with hNone | hOther | hRuns
    · exact (hRegistered hSome hNone).elim
    · exact (hOther hActive).elim
    · exact hRuns
  have hTaken : OnRecord { s with
      heartbeats := s.heartbeats.eraseIdx i
      registry := (s.registry.update_node_status now b.node_id b.status).update_node_heartbeat
        order now b.node_id b.report } := by
    have hReported : OnRecord { s with
        registry := (s.registry.update_node_status now b.node_id b.status).update_node_heartbeat
          order now b.node_id b.report } := by
      apply hStatus.of_registry (hStatus.named.update_node_heartbeat order now _ _)
      · intro k model hModel
        rw [base_model_update_node_heartbeat] at hModel
        exact Or.inl hModel
      · intro k hActive
        rw [status_update_node_heartbeat] at hActive
        exact hStatus.running_of_active hActive
    exact { hReported with }
  unfold State.heartbeat
  split
  · rename_i model hModel
    split
    · exact hTaken
    · rename_i hName
      apply hTaken.set_model none
      intro hSome
      rw [status_update_node_heartbeat, status_update_node_status, if_pos rfl,
        Option.isSome_map] at hSome
      have hAll := hAgrees.resolve_left (hRegistered hSome)
      rw [hModel, Option.all_some, Bool.or_eq_true, decide_eq_true_eq] at hAll
      have hBound := List.all_eq_true.mp (hAll.resolve_left hName)
      exact fun m hMem => of_decide_eq_true (hBound m hMem)
  · exact hTaken

/-- Every step that agrees with the record and calls nobody back who is gone keeps the invariant. -/
theorem step (h : OnRecord s) {l : Label} (hAgrees : s.agrees cfg l = true)
    (hAlive : s.alive cfg l = true) (hStep : Global.step cfg s l = some s') : OnRecord s' := by
  obtain ⟨t, hEffect, hSame⟩ := comes_of_step h.named hStep
  apply OnRecord.same _ hSame
  cases hEffect with
  | nothing => exact h
  | aside hAside => exact h.aside hAside hAgrees hAlive
  | @select _ a n hServes =>
      apply h.select
      intro model hModel
      apply h.aggregator_eq (needed_iff.mpr (Or.inl hServes.1))
      exact mem_models.mpr (Or.inl ⟨model, hServes.2 model hModel, rfl⟩)
  | @launch _ u now base_model caller n hAdd hNext hIdle hAsked =>
      unfold State.agrees at hAgrees
      rw [Bool.and_eq_true, hNext] at hAgrees
      have hGuard := hAgrees.1
      simp only [Option.all_some, Bool.and_eq_true, Bool.or_eq_true, List.all_eq_true,
        decide_eq_true_eq] at hGuard
      obtain ⟨hBound, hBase⟩ := hGuard
      have hSameBound : u.bound n = s.bound n := by
        unfold State.bound
        rw [hAdd.agents, hAdd.launches]
      apply (h.same hAdd).launch
      · rw [hSameBound]
        exact hBound
      · rintro rfl
        rw [hAdd.base_model]
        exact hBase.resolve_left Bool.false_ne_true
      · exact hAsked
  | launch_returned hCall hAwaited hAnswer => exact h.end_launch hCall hAwaited hAnswer
  | @launch_used now i answered l r req hCall hAwaited hPhase hCaller hReq =>
      apply (h.end_launch hCall hAwaited fun _ => hPhase).select
      intro model hModel
      have hMem := List.mem_of_getElem? hCall
      obtain ⟨asked, hSameReq, hBase⟩ := h.asked l hMem r hCaller
      obtain rfl := Option.some.inj (hReq.symm.trans hSameReq)
      show (s.agents l.node_id).aggregator = some (some model)
      rw [(h.faithful).2 l hMem hAwaited hPhase, hBase]
      exact congrArg some hModel
  | stop hNext => exact h.scale_down
  | stop_returned hCall hAwaited => exact h.end_stop _ _ _
  | stop_next hCall hAwaited hNext => exact (h.end_stop _ _ _).scale_down
  | health now => exact h.health hAlive
  | register now n reg base_model => exact h.register hAgrees
  | unregister order n => exact h.unregister order n
  | heartbeat hBeat => exact h.heartbeat hBeat hAgrees hAlive

end OnRecord

/-- In runs in which no base model comes to a node that has another one on record, and no process
ends that is relied on, a request for an adapter with a known base model only goes to nodes
whose process was launched with it, and a launch only succeeds with the model it was for. -/
theorem faithful_of_reach {s : State}
    (run : (machine cfg).Reach (fun s l => s.agrees cfg l = true ∧ s.alive cfg l = true) s) :
    Faithful s := by
  have hOnRecord : OnRecord s :=
    run.invariant OnRecord (fun _ hInitial => OnRecord.initial hInitial)
      fun _ _ _ hPrior hGuard hStep => hPrior.step hGuard.1 hGuard.2 hStep
  exact hOnRecord.faithful

/-- A policy with a base model for each of two adapters. -/
def twoModels : PlacementPolicy where
  base_model_for_adapter a := if a = "lora-m" then some "mistral" else some "llama"

/-- A request has a node launched for the base model of its adapter. -/
def launchedForRequest : List Label :=
  [ .register 1 "n1" { host := "gpu-1", port := 8100 } none,
    .arrive .sorted 2 "lora-a",
    .launch_delivered 0,
    .launch_ready 0,
    .heartbeat_sent "n1" {},
    .heartbeat_delivered .sorted 3 0,
    .launch_returned 4 0 true ]

/-- A request for an adapter launches a node, and it is sent there once the base model is up. -/
theorem faithful_of_launched_for_request :
    ∃ s, (machine {}).Reach (fun s l => s.agrees {} l = true ∧ s.alive {} l = true) s ∧
      s.selections.map (fun sel => (sel.node_id, sel.aggregator)) =
        [("n1", some (some "llama"))] ∧ Faithful s := by
  have hRun : ((machine {}).replayUnder
      (fun s l => s.agrees {} l = true ∧ s.alive {} l = true) { policy := twoModels }
      launchedForRequest).map (fun s =>
        s.selections.map fun sel => (sel.node_id, sel.aggregator)) =
      some [("n1", some (some "llama"))] := by decide +kernel
  obtain ⟨s, hReplay, hSelections⟩ := Option.map_eq_some_iff.mp hRun
  have hInitial : (machine {}).initial { policy := twoModels } := ⟨twoModels, rfl⟩
  have run := Machine.System.reach_of_replayUnder (.start hInitial) hReplay
  exact ⟨s, run, hSelections, faithful_of_reach {} run⟩

/-- A heartbeat of an idle node comes in when the node has been launched already. -/
def lateIdleHeartbeat : List Label :=
  [ .register 1 "n1" { host := "gpu-1", port := 8100 } none,
    .heartbeat_sent "n1" {},
    .arrive .sorted 2 "lora-a",
    .launch_delivered 0,
    .heartbeat_delivered .sorted 3 0,
    .arrive .sorted 4 "lora-m",
    .launch_delivered 1,
    .launch_returned 5 1 true ]

/-- The node counts as idle again and is launched for another base model. Its agent says that
a process runs already, and the request goes to a process with the wrong model. -/
theorem late_heartbeat_mixes_models : ∃ s, (machine {}).Reachable s ∧
    (∃ sel ∈ s.selections, s.policy.get_base_model sel.adapter_name = some "mistral" ∧
      sel.aggregator = some (some "llama")) ∧ ¬Faithful s := by
  have hRun : ((machine {}).replay { policy := twoModels } lateIdleHeartbeat).map (fun s =>
      s.selections.any fun sel =>
        s.policy.get_base_model sel.adapter_name = some "mistral" &&
          sel.aggregator = some (some "llama")) = some true := by decide +kernel
  obtain ⟨s, hReplay, hAny⟩ := Option.map_eq_some_iff.mp hRun
  obtain ⟨sel, hMem, hSel⟩ := List.any_eq_true.mp hAny
  rw [Bool.and_eq_true, decide_eq_true_eq, decide_eq_true_eq] at hSel
  have hInitial : (machine {}).initial { policy := twoModels } := ⟨twoModels, rfl⟩
  have run := Machine.System.reachable_of_replay (.start hInitial) hReplay
  refine ⟨s, run, ⟨sel, hMem, hSel⟩, ?_⟩
  intro hFaithful
  have hRuns := hFaithful.1 sel hMem "mistral" hSel.1
  rw [hSel.2] at hRuns
  exact absurd hRuns (by decide)

end Global

end Cluster
