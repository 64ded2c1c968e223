import Mathlib.Data.List.MinMax
import Mathlib.Data.Set.Basic
import SwarmLoRA.Serverless.AdapterNames
import SwarmLoRA.Serverless.Claiming

namespace Serverless

open Claiming (ContainerId)

/-- A request to a worker, under the path of its endpoint. -/
inductive Request where
  | swap_adapter (adapter_id : AdapterId) (function_id : FunctionId)
  | preload_adapter (adapter_id : AdapterId) (to_gpu : Bool)
  | offload_adapter (artifact_id : ArtifactId) (keep_in_container : Bool)

/-- The adapter that a worker understands. -/
def Request.adapter_id : Request → AdapterId
  | .swap_adapter adapter_id _ => adapter_id
  | .preload_adapter adapter_id _ => adapter_id
  | .offload_adapter artifact_id _ => adapter_id_of artifact_id

/-- What a worker answers. -/
structure Reply where
  status_code : Nat := 200
  success : Bool := true
  error : Option String := none

/-- The answer is no error. -/
def Reply.ok (resp : Reply) : Bool := resp.status_code = 200

/-- What can go wrong within a worker, with the text of the exception. -/
inductive Failure where
  | busy
  | loading (e : String)
  | moving (e : String)

/-- The worker's adapter and its cache of adapters. A preloaded adapter is on the GPU or not;
without a cache there are none. -/
structure AdapterWorker where
  lora_id : AdapterId
  function_id : FunctionId
  preloaded_adapters : Option (AdapterId → Option Bool) := none

namespace AdapterWorker

variable (worker : AdapterWorker) (failure : Option Failure)

/-- Where the worker has the adapter, if it has it. -/
def entry (adapter_id : AdapterId) : Option Bool :=
  worker.preloaded_adapters.bind fun preloaded => preloaded adapter_id

/-- The worker's entry for the adapter. -/
def set_entry (adapter_id : AdapterId) (on_gpu : Option Bool) : AdapterWorker :=
  let preloaded := worker.preloaded_adapters.getD fun _ => none
  { worker with preloaded_adapters := some (Function.update preloaded adapter_id on_gpu) }

@[simp] theorem entry_set_entry (adapter_id other : AdapterId) (on_gpu : Option Bool) :
    (worker.set_entry adapter_id on_gpu).entry other =
      if other = adapter_id then on_gpu else worker.entry other := by
  unfold entry set_entry
  cases worker.preloaded_adapters <;> simp [Function.update_apply]

@[simp] theorem lora_id_set_entry (adapter_id : AdapterId) (on_gpu : Option Bool) :
    (worker.set_entry adapter_id on_gpu).lora_id = worker.lora_id := rfl

/-- `/swap_adapter`. -/
def swap_adapter (new_adapter_id : AdapterId) (new_function_id : FunctionId) :
    Reply × AdapterWorker :=
  if new_adapter_id = "" then (⟨400, false, some "No adapter_id"⟩, worker)
  else if new_adapter_id = worker.lora_id then ({}, worker)
  else
    match failure with
    | some .busy => (⟨503, false, some "model_busy"⟩, worker)
    | some (.loading e) | some (.moving e) => (⟨500, false, some e⟩, worker)
    | none =>
        ({}, { worker with
          lora_id := new_adapter_id
          function_id := if new_function_id = "" then worker.function_id else new_function_id })

/-- A load that fails on its way to the GPU leaves the dictionary behind. -/
def preload_adapter (adapter_id : AdapterId) (to_gpu : Bool) : Reply × AdapterWorker :=
  if adapter_id = "" then (⟨400, false, some "No adapter_id"⟩, worker)
  else if (worker.entry adapter_id).isSome then ({}, worker)
  else
    match failure, to_gpu with
    | some (.loading e), _ => (⟨500, false, some e⟩, worker)
    | some (.moving e), true =>
        (⟨500, false, some e⟩, worker.set_entry adapter_id none)
    | _, _ => ({}, worker.set_entry adapter_id (some to_gpu))

/-- That there is nothing to offload is reported with the status of a success. -/
def offload_adapter (artifact_id : ArtifactId) (keep_in_container : Bool) :
    Reply × AdapterWorker :=
  let adapter_id := adapter_id_of artifact_id
  if worker.preloaded_adapters.isNone then
    (⟨200, false, some "No preloaded adapters"⟩, worker)
  else if (worker.entry adapter_id).isNone then
    (⟨200, false, some ("Adapter " ++ adapter_id ++ " not found")⟩, worker)
  else
    match keep_in_container, failure with
    | true, some (.moving e) => (⟨500, false, some e⟩, worker)
    | true, _ => ({}, worker.set_entry adapter_id (some false))
    | false, _ => ({}, worker.set_entry adapter_id none)

/-- What the worker does for a request, by its endpoint. -/
def handle : Request → Reply × AdapterWorker
  | .swap_adapter adapter_id function_id => worker.swap_adapter failure adapter_id function_id
  | .preload_adapter adapter_id to_gpu => worker.preload_adapter failure adapter_id to_gpu
  | .offload_adapter artifact_id keep_in_container =>
      worker.offload_adapter failure artifact_id keep_in_container

end AdapterWorker

/-- The request has done to an adapter what it was sent for. -/
def Request.Done (adapter_id : AdapterId) (worker : AdapterWorker) : Request → Prop
  | .swap_adapter _ _ => worker.lora_id = adapter_id
  | .preload_adapter _ _ => (worker.entry adapter_id).isSome = true
  | .offload_adapter _ keep_in_container =>
      worker.entry adapter_id = if keep_in_container then some false else none

/-- Whatever the state of the worker, the request changes nothing but this adapter, and what it
reports as a success has been done to it. -/
structure Request.ActsOn (request : Request) (adapter_id : AdapterId) : Prop where
  others : ∀ (worker : AdapterWorker) (failure : Option Failure) (other : AdapterId),
    other ≠ adapter_id → (worker.handle failure request).2.entry other = worker.entry other
  active : ∀ (worker : AdapterWorker) (failure : Option Failure),
    (worker.handle failure request).2.lora_id ≠ worker.lora_id →
      (worker.handle failure request).2.lora_id = adapter_id
  done : ∀ (worker : AdapterWorker) (failure : Option Failure),
    (worker.handle failure request).1.success = true →
      request.Done adapter_id (worker.handle failure request).2

namespace AdapterWorker

variable (worker : AdapterWorker) (failure : Option Failure)

/-- A swap changes the active adapter or nothing. -/
theorem swap_adapter_spec (adapter_id : AdapterId) (function_id : FunctionId) :
    let next := worker.swap_adapter failure adapter_id function_id
    next.2.preloaded_adapters = worker.preloaded_adapters ∧
      (next.2.lora_id = worker.lora_id ∨ next.2.lora_id = adapter_id) ∧
      (next.1.success = true → next.2.lora_id = adapter_id) := by
  unfold swap_adapter
  split
  · simp
  · split
    next hActive => simp [hActive]
    next => split <;> simp

/-- A preload changes the entry of its adapter or nothing. -/
theorem preload_adapter_spec (adapter_id : AdapterId) (to_gpu : Bool) :
    let next := worker.preload_adapter failure adapter_id to_gpu
    (next.2 = worker ∨ ∃ on_gpu, next.2 = worker.set_entry adapter_id on_gpu) ∧
      (next.1.success = true → (next.2.entry adapter_id).isSome = true) ∧
      (next.1.ok = true → next.1.success = true) := by
  unfold preload_adapter
  split
  · simp [Reply.ok]
  · split
    next hLoaded => simp [hLoaded]
    next =>
      split
      · simp [Reply.ok]
      · exact ⟨.inr ⟨_, rfl⟩, by simp, by simp [Reply.ok]⟩
      · exact ⟨.inr ⟨_, rfl⟩, by simp, by simp⟩

/-- A preload that is answered without an error has succeeded. -/
theorem success_of_preload_ok {adapter_id : AdapterId} {to_gpu : Bool}
    (h : (worker.handle failure (.preload_adapter adapter_id to_gpu)).1.ok = true) :
    (worker.handle failure (.preload_adapter adapter_id to_gpu)).1.success = true :=
  (worker.preload_adapter_spec failure adapter_id to_gpu).2.2 h

/-- An offload changes the entry of the adapter that is read off its artifact, or nothing. -/
theorem offload_adapter_spec (artifact_id : ArtifactId) (keep_in_container : Bool) :
    let next := worker.offload_adapter failure artifact_id keep_in_container
    (next.2 = worker ∨ ∃ on_gpu, next.2 = worker.set_entry (adapter_id_of artifact_id) on_gpu) ∧
      (next.1.success = true → next.2.entry (adapter_id_of artifact_id) =
        if keep_in_container then some false else none) := by
  unfold offload_adapter
  simp only
  split
  · simp
  · split
    next => simp
    next =>
      split
      · simp
      · exact ⟨.inr ⟨_, rfl⟩, by simp⟩
      · exact ⟨.inr ⟨_, rfl⟩, by simp⟩

end AdapterWorker

namespace Request

/-- A request touches no entry but that of its adapter. -/
theorem actsOn_of_entry {request : Request} {adapter_id : AdapterId}
    (hEntry : ∀ (worker : AdapterWorker) (failure : Option Failure),
      (worker.handle failure request).2 = worker ∨
        ∃ on_gpu, (worker.handle failure request).2 = worker.set_entry adapter_id on_gpu)
    (hDone : ∀ (worker : AdapterWorker) (failure : Option Failure),
      (worker.handle failure request).1.success = true →
        request.Done adapter_id (worker.handle failure request).2) :
    request.ActsOn adapter_id where
  others worker failure other hOther := by
    rcases hEntry worker failure with hSame | ⟨on_gpu, hSet⟩
    · rw [hSame]
    · rw [hSet, AdapterWorker.entry_set_entry, if_neg hOther]
  active worker failure hChanged := by
    refine absurd ?_ hChanged
    rcases hEntry worker failure with hSame | ⟨on_gpu, hSet⟩
    · rw [hSame]
    · rw [hSet, AdapterWorker.lora_id_set_entry]
  done := hDone

/-- A request acts on the adapter that the worker understands. -/
theorem actsOn_adapter_id (request : Request) : request.ActsOn request.adapter_id := by
  cases request with
  | swap_adapter adapter_id function_id =>
      constructor
      · intro worker failure other _
        exact congrArg (Option.bind · _) (worker.swap_adapter_spec failure _ _).1
      · intro worker failure hChanged
        exact (worker.swap_adapter_spec failure _ _).2.1.resolve_left hChanged
      · intro worker failure hSuccess
        exact (worker.swap_adapter_spec failure _ _).2.2 hSuccess
  | preload_adapter adapter_id to_gpu =>
      exact actsOn_of_entry (fun worker failure => (worker.preload_adapter_spec failure _ _).1)
        fun worker failure => (worker.preload_adapter_spec failure _ _).2.1
  | offload_adapter artifact_id keep_in_container =>
      exact actsOn_of_entry (fun worker failure => (worker.offload_adapter_spec failure _ _).1)
        fun worker failure => (worker.offload_adapter_spec failure _ _).2

end Request

/-- What the agent sees when it selects a container for a swap: rates, the containers, and when each
was swapped last. -/
structure Glance where
  now : ℚ
  get_request_rate : FunctionId → ℚ
  container : ContainerId → Container
  last_swap_time : ContainerId → ℚ
  swap_busy_cooldown : ContainerId → ℚ

namespace Glance

variable (glance : Glance) (target_function_id : Option FunctionId)

/-- No id and the empty one have no demand. -/
def rate (function_id : Option FunctionId) : ℚ :=
  match function_id.filter (· ≠ "") with
  | some function_id => glance.get_request_rate function_id
  | none => 0

/-- Idle, of another function, out of both cooldowns and of clearly lower demand. -/
def swappable (container_id : ContainerId) : Bool :=
  let c := glance.container container_id
  let src_rate := glance.rate c.function_id
  c.pending_requests = 0 && c.function_id ≠ target_function_id &&
    30 ≤ glance.now - glance.last_swap_time container_id &&
    glance.swap_busy_cooldown container_id ≤ glance.now &&
    !(0 < src_rate && glance.rate target_function_id < src_rate * 2)

/-- The first of those with the lowest demand. -/
def select_swap_candidate (containers : List ContainerId) : Option ContainerId :=
  (containers.filter (glance.swappable target_function_id)).argmin fun container_id =>
    glance.rate (glance.container container_id).function_id

/-- The candidate is one of the containers that were given. -/
theorem mem_of_select_swap_candidate {containers : List ContainerId} {best : ContainerId}
    (h : glance.select_swap_candidate target_function_id containers = some best) :
    best ∈ containers :=
  (List.mem_filter.mp (List.argmin_mem h)).1

end Glance

/-- A decision of the scheduler, as the agent gets it. -/
structure Decision where
  artifact_id : ArtifactId
  target_location : PreloadTarget := .container
  target_container_id : Option ContainerId := none
  function_id : Option FunctionId := none

/-- The agent with what it finds in the registry and at the workers. A worker may have changed in
any way when a request arrives, its reply may be lost, and a look at the containers is taken anew
for those that are left. -/
structure PreloadAgent where
  registry : Registry
  get_container : ContainerId → Option Container
  loaded_at_container : ArtifactId → Option ContainerId
  local_containers : List (ContainerId × Container)
  glance : List ContainerId → Glance
  worker : ContainerId → Request → AdapterWorker
  failure : ContainerId → Request → Option Failure
  answered : ContainerId → Request → Bool

/-- What a method of the agent returns and the requests that it has sent. -/
structure Execution where
  success : Bool
  requests : List (ContainerId × Request) := []

namespace PreloadAgent

variable (agent : PreloadAgent)

/-- The worker's reply and what it is after the request. -/
def handled (container_id : ContainerId) (request : Request) : Reply × AdapterWorker :=
  (agent.worker container_id request).handle (agent.failure container_id request) request

/-- A request to the worker of a container, which may be gone. -/
def post (container_id : ContainerId) (request : Request) : Option Reply :=
  if agent.answered container_id request then some (agent.handled container_id request).1 else none

/-- `_swap_container_adapter`. -/
def swap_container_adapter (container_id : ContainerId) (new_adapter_id : AdapterId)
    (new_function_id : Option FunctionId) : Execution :=
  let request := .swap_adapter new_adapter_id (new_function_id.getD "")
  ⟨(agent.post container_id request).any fun resp => resp.ok && resp.success,
    [(container_id, request)]⟩

/-- Without a container id it goes to the container with the fewest pending requests. -/
def preload_adapter (artifact : Artifact) (target_location : PreloadTarget)
    (container_id : Option ContainerId) : Execution :=
  let container : Option ContainerId := match container_id.filter (· ≠ "") with
    | some container_id => (agent.get_container container_id).map fun _ => container_id
    | none => (agent.local_containers.argmin fun x : ContainerId × Container =>
        x.2.pending_requests).map (·.1)
  match container with
  | none => ⟨false, []⟩
  | some container_id =>
      let request :=
        Request.preload_adapter (adapter_id_of artifact.artifact_id) (target_location = .gpu)
      ⟨(agent.post container_id request).any Reply.ok, [(container_id, request)]⟩

/-- Backbones are shared, and libraries and kernels belong to the container. -/
def preload_artifact (artifact_id : ArtifactId) (target_location : PreloadTarget)
    (container_id : Option ContainerId) : Execution :=
  match agent.registry.get_artifact artifact_id with
  | none => ⟨false, []⟩
  | some artifact =>
      if artifact.artifact_type = .adapter then
        agent.preload_adapter artifact target_location container_id
      else ⟨true, []⟩

/-- `_offload_artifact`. -/
def offload_artifact (artifact_id : ArtifactId) (to_container : Bool) : Execution :=
  match agent.registry.get_artifact artifact_id with
  | none => ⟨false, []⟩
  | some _ =>
      match agent.loaded_at_container artifact_id with
      | none => ⟨false, []⟩
      | some container_id =>
          if (agent.get_container container_id).isNone then ⟨false, []⟩
          else
            let request := .offload_adapter artifact_id to_container
            ⟨(agent.post container_id request).any Reply.ok, [(container_id, request)]⟩

/-- The containers that are left when one has been tried. -/
def untried (containers : List ContainerId) (best : ContainerId) : List ContainerId :=
  containers.filter (· ≠ best)

/-- Every try leaves fewer containers. -/
theorem length_untried_lt {containers : List ContainerId} {best : ContainerId}
    (h : best ∈ containers) : (untried containers best).length < containers.length :=
  List.length_filter_lt_length_iff_exists.mpr ⟨best, h, by simp⟩

/-- The best candidate is tried, and the next one when the swap has failed. -/
def swap_any (adapter_id : AdapterId) (function_id : Option FunctionId)
    (containers : List ContainerId) : Execution :=
  match _h : (agent.glance containers).select_swap_candidate function_id containers with
  | none => ⟨false, []⟩
  | some best =>
      let swap := agent.swap_container_adapter best adapter_id function_id
      if swap.success then swap
      else
        let rest := swap_any adapter_id function_id (untried containers best)
        ⟨rest.success, swap.requests ++ rest.requests⟩
termination_by containers.length
decreasing_by exact length_untried_lt (Glance.mem_of_select_swap_candidate _ _ _h)

/-- What the agent does for a decision. -/
def execute_decision (decision : Decision) : Execution :=
  let adapter_id := adapter_id_of decision.artifact_id
  match decision.target_container_id.filter (· ≠ "") with
  | some container_id =>
      match (agent.get_container container_id).bind fun c => c.lora_id.filter (· ≠ "") with
      | some lora_id =>
          if lora_id ≠ adapter_id then
            agent.swap_container_adapter container_id adapter_id decision.function_id
          else ⟨true, []⟩
      | none =>
          agent.preload_artifact decision.artifact_id decision.target_location (some container_id)
  | none =>
      if agent.local_containers.isEmpty then ⟨false, []⟩
      else
        match agent.local_containers.find? fun x => x.2.function_id = decision.function_id with
        | some x =>
            agent.preload_artifact decision.artifact_id decision.target_location (some x.1)
        | none =>
            agent.swap_any adapter_id decision.function_id (agent.local_containers.map (·.1))

/-- A request has done to the adapter what it was sent for. -/
def Loaded (execution : Execution) (adapter_id : AdapterId) : Prop :=
  ∃ x ∈ execution.requests, x.2.Done adapter_id (agent.handled x.1 x.2).2

/-- All requests are about the adapter, and a success is a load of it. -/
structure Loads (execution : Execution) (adapter_id : AdapterId) : Prop where
  requests : ∀ x ∈ execution.requests, x.2.adapter_id = adapter_id
  loaded : execution.success = true → agent.Loaded execution adapter_id

variable {agent}

/-- A reply that is taken for a success is the worker's own. -/
theorem handled_of_post {container_id : ContainerId} {request : Request} {ok : Reply → Bool}
    (h : (agent.post container_id request).any ok = true) :
    ok (agent.handled container_id request).1 = true := by
  unfold post at h
  split at h
  · exact h
  · cases h

/-- Where nothing is asked nothing is loaded. -/
theorem loads_nothing (adapter_id : AdapterId) : agent.Loads ⟨false, []⟩ adapter_id where
  requests := by simp
  loaded := by simp

/-- A single request. -/
theorem loads_one {container_id : ContainerId} {request : Request} {ok : Reply → Bool}
    {adapter_id : AdapterId} (hAbout : request.adapter_id = adapter_id)
    (hOk : ∀ worker failure, ok (AdapterWorker.handle worker failure request).1 = true →
      (AdapterWorker.handle worker failure request).1.success = true) :
    agent.Loads ⟨(agent.post container_id request).any ok, [(container_id, request)]⟩
      adapter_id where
  requests := by
    intro x hx
    rw [List.mem_singleton.mp hx, hAbout]
  loaded := by
    intro hSuccess
    refine ⟨(container_id, request), List.mem_singleton_self _, ?_⟩
    have hDone := request.actsOn_adapter_id.done _ _ (hOk _ _ (handled_of_post hSuccess))
    rwa [hAbout] at hDone

/-- A swap loads the adapter that it names, or none. -/
theorem loads_swap_container_adapter (container_id : ContainerId) (adapter_id : AdapterId)
    (function_id : Option FunctionId) :
    agent.Loads (agent.swap_container_adapter container_id adapter_id function_id) adapter_id :=
  loads_one rfl fun _ _ hOk => (Bool.and_eq_true_iff.mp hOk).2

/-- A preload loads the adapter of its artifact, or none. -/
theorem loads_preload_adapter (artifact : Artifact) (target_location : PreloadTarget)
    (container_id : Option ContainerId) :
    agent.Loads (agent.preload_adapter artifact target_location container_id)
      (adapter_id_of artifact.artifact_id) := by
  unfold preload_adapter
  simp only
  split
  · exact loads_nothing _
  · exact loads_one rfl fun worker failure => worker.success_of_preload_ok failure

/-- An artifact is registered under its own id. -/
theorem artifact_id_of_get_artifact {registry : Registry} {artifact_id : ArtifactId}
    {artifact : Artifact} (h : registry.get_artifact artifact_id = some artifact) :
    artifact.artifact_id = artifact_id := by
  simpa using List.find?_some h

/-- The next candidate is tried for the same adapter. -/
theorem loads_swap_any (adapter_id : AdapterId) (function_id : Option FunctionId)
    (containers : List ContainerId) :
    agent.Loads (agent.swap_any adapter_id function_id containers) adapter_id := by
  fun_induction agent.swap_any adapter_id function_id containers with
  | case1 containers hNone => exact loads_nothing _
  | case2 containers best hBest swap hSuccess =>
      exact loads_swap_container_adapter best adapter_id function_id
  | case3 containers best hBest swap hFailed rest ih =>
      have hSwap : agent.Loads swap adapter_id :=
        loads_swap_container_adapter best adapter_id function_id
      constructor
      · intro x hx
        rcases List.mem_append.mp hx with hx | hx
        · exact hSwap.requests x hx
        · exact ih.requests x hx
      · intro hSuccess
        obtain ⟨x, hx, hDone⟩ := ih.loaded hSuccess
        exact ⟨x, List.mem_append_right _ hx, hDone⟩

variable (agent) in
/-- What is registered under the id is not an adapter, so there is nothing to load. -/
def NoAdapter (artifact_id : ArtifactId) : Prop :=
  ∃ artifact, agent.registry.get_artifact artifact_id = some artifact ∧
    artifact.artifact_type ≠ .adapter

variable (agent) in
/-- The container of the decision has the adapter already. -/
def Serves (decision : Decision) (adapter_id : AdapterId) : Prop :=
  ∃ container_id c, decision.target_container_id = some container_id ∧
    agent.get_container container_id = some c ∧ c.lora_id = some adapter_id

/-- What is preloaded for an artifact is the adapter that is read back from its id. -/
theorem loads_preload_artifact (artifact_id : ArtifactId) (target_location : PreloadTarget)
    (container_id : Option ContainerId) :
    agent.Loads (agent.preload_artifact artifact_id target_location container_id)
        (adapter_id_of artifact_id) ∨
      agent.NoAdapter artifact_id ∧
        agent.preload_artifact artifact_id target_location container_id = ⟨true, []⟩ := by
  unfold preload_artifact
  split
  next => exact .inl (loads_nothing _)
  next artifact hArtifact =>
    split
    next =>
      have hLoads := @loads_preload_adapter agent artifact target_location container_id
      rw [artifact_id_of_get_artifact hArtifact] at hLoads
      exact .inl hLoads
    next hType => exact .inr ⟨⟨artifact, hArtifact, hType⟩, rfl⟩

/-- Whatever a decision leads to is about the adapter that is read off its artifact. -/
theorem loads_execute_decision (decision : Decision) :
    agent.Loads (agent.execute_decision decision) (adapter_id_of decision.artifact_id) ∨
      (agent.NoAdapter decision.artifact_id ∨
          agent.Serves decision (adapter_id_of decision.artifact_id)) ∧
        agent.execute_decision decision = ⟨true, []⟩ := by
  have hPreload : ∀ container_id, agent.Loads (agent.preload_artifact decision.artifact_id
      decision.target_location container_id) (adapter_id_of decision.artifact_id) ∨
      (agent.NoAdapter decision.artifact_id ∨
          agent.Serves decision (adapter_id_of decision.artifact_id)) ∧
        agent.preload_artifact decision.artifact_id decision.target_location container_id =
          ⟨true, []⟩ := fun container_id =>
    (loads_preload_artifact _ _ _).imp_right fun h => ⟨.inl h.1, h.2⟩
  unfold execute_decision
  simp only
  split
  next container_id hTarget =>
    split
    next lora_id hLora =>
      split
      next => exact .inl (loads_swap_container_adapter _ _ _)
      next hSame =>
        refine .inr ⟨.inr ?_, rfl⟩
        obtain ⟨c, hContainer, hLoaded⟩ := Option.bind_eq_some_iff.mp hLora
        rw [not_not] at hSame
        exact ⟨container_id, c, (Option.filter_eq_some_iff.mp hTarget).1, hContainer,
          hSame ▸ (Option.filter_eq_some_iff.mp hLoaded).1⟩
    next => exact hPreload _
  next =>
    split
    next => exact .inl (loads_nothing _)
    next =>
      split
      next => exact hPreload _
      next => exact .inl (loads_swap_any _ _ _)

/-- What is offloaded is asked for under the same id. -/
theorem requests_offload_artifact (artifact_id : ArtifactId) (to_container : Bool) :
    ∀ x ∈ (agent.offload_artifact artifact_id to_container).requests,
      x.2.adapter_id = adapter_id_of artifact_id := by
  unfold offload_artifact
  split
  next => simp
  next =>
    split
    next => simp
    next =>
      split
      next => simp
      next =>
        intro x hx
        rw [List.mem_singleton.mp hx]
        rfl

end PreloadAgent

/-- The names of these adapters do what they are for: an adapter is read back from its artifact, no
two have an artifact in common, and what the agent sends for the artifact of an adapter loads or
offloads that adapter and no other. -/
structure NamesRoundTrip (adapters : Set AdapterId) : Prop where
  recovered : ∀ a ∈ adapters, ∀ backbone_id size_mb loading_delay_ms hSize,
    adapter_id_of (create_adapter_artifact a backbone_id size_mb loading_delay_ms
      hSize).artifact_id = a
  distinct : ∀ a ∈ adapters, ∀ b ∈ adapters, adapter_artifact_id a = adapter_artifact_id b → a = b
  executed : ∀ a ∈ adapters, ∀ (agent : PreloadAgent) (decision : Decision),
    decision.artifact_id = adapter_artifact_id a →
      (∀ x ∈ (agent.execute_decision decision).requests, x.2.ActsOn a) ∧
      ((agent.execute_decision decision).success = true →
        agent.Loaded (agent.execute_decision decision) a ∨ agent.Serves decision a ∨
          agent.NoAdapter decision.artifact_id)
  preloaded : ∀ a ∈ adapters, ∀ (agent : PreloadAgent) (target : PreloadTarget)
    (container_id : Option ContainerId),
      (∀ x ∈ (agent.preload_artifact (adapter_artifact_id a) target container_id).requests,
        x.2.ActsOn a) ∧
      ((agent.preload_artifact (adapter_artifact_id a) target container_id).success = true →
        agent.Loaded (agent.preload_artifact (adapter_artifact_id a) target container_id) a ∨
          agent.NoAdapter (adapter_artifact_id a))
  offloaded : ∀ a ∈ adapters, ∀ (agent : PreloadAgent) (to_container : Bool),
    ∀ x ∈ (agent.offload_artifact (adapter_artifact_id a) to_container).requests, x.2.ActsOn a
  found : ∀ a ∈ adapters, ∀ (worker : AdapterWorker) (keep_in_container : Bool),
    (worker.entry a).isSome = true →
      (worker.offload_adapter none (adapter_artifact_id a) keep_in_container).1.success = true

/-- A worker offloads an adapter that it has. -/
theorem AdapterWorker.offload_adapter_found {worker : AdapterWorker} {artifact_id : ArtifactId}
    (h : (worker.entry (adapter_id_of artifact_id)).isSome = true) (keep_in_container : Bool) :
    (worker.offload_adapter none artifact_id keep_in_container).1.success = true := by
  have hSome : worker.preloaded_adapters.isNone = false := by
    unfold entry at h
    cases hPreloaded : worker.preloaded_adapters with
    | none => simp [hPreloaded] at h
    | some preloaded => rfl
  have hEntry : (worker.entry (adapter_id_of artifact_id)).isNone = false := by
    rw [← Option.not_isSome, h]
    rfl
  unfold offload_adapter
  simp only [hSome, hEntry]
  cases keep_in_container <;> rfl

/-- The names do what they are for exactly if every id is free of underscores and has no component
but the last that ends in `adapter`. -/
theorem names_round_trip_iff (adapters : Set AdapterId) :
    NamesRoundTrip adapters ↔ ∀ a ∈ adapters, Readable a := by
  constructor
  · intro h a ha
    exact (adapter_id_of_artifact_iff a).mp (h.recovered a ha "" 0 0 (le_refl 0))
  · intro h
    have hRecovered : ∀ a ∈ adapters, adapter_id_of (adapter_artifact_id a) = a := fun a ha =>
      (adapter_id_of_artifact_iff a).mpr (h a ha)
    constructor
    · intro a ha _ _ _ _
      exact hRecovered a ha
    · intro a ha b hb hSame
      rw [← hRecovered a ha, hSame, hRecovered b hb]
    · intro a ha agent decision hArtifact
      have hDecision := agent.loads_execute_decision decision
      rw [hArtifact, hRecovered a ha] at hDecision
      rcases hDecision with hLoads | ⟨hIdle, hNothing⟩
      · exact ⟨fun x hx => hLoads.requests x hx ▸ x.2.actsOn_adapter_id,
          fun hSuccess => .inl (hLoads.loaded hSuccess)⟩
      · rw [hNothing]
        refine ⟨fun x hx => absurd hx List.not_mem_nil, fun _ => .inr ?_⟩
        rw [hArtifact]
        exact hIdle.symm
    · intro a ha agent target container_id
      have hPreload := agent.loads_preload_artifact (adapter_artifact_id a) target container_id
      rw [hRecovered a ha] at hPreload
      rcases hPreload with hLoads | ⟨hIdle, hNothing⟩
      · exact ⟨fun x hx => hLoads.requests x hx ▸ x.2.actsOn_adapter_id,
          fun hSuccess => .inl (hLoads.loaded hSuccess)⟩
      · rw [hNothing]
        exact ⟨fun x hx => absurd hx List.not_mem_nil, fun _ => .inr hIdle⟩
    · intro a ha agent to_container x hx
      have hAbout := agent.requests_offload_artifact _ to_container x hx
      rw [hRecovered a ha] at hAbout
      exact hAbout ▸ x.2.actsOn_adapter_id
    · intro a ha worker keep_in_container hEntry
      refine AdapterWorker.offload_adapter_found ?_ keep_in_container
      rw [hRecovered a ha]
      exact hEntry

/-- An underscore comes back as a slash, and two adapters have one artifact. -/
theorem underscore_names_another :
    adapter_id_of (adapter_artifact_id "org/my_lora") = "org/my/lora" ∧
      adapter_artifact_id "org/my_lora" = adapter_artifact_id "org/my/lora" ∧
      adapter_id_of (adapter_artifact_id "my-adapter/x") = "my-x" ∧
      ¬ NamesRoundTrip {"org/my_lora", "org/my/lora"} ∧ ¬ NamesRoundTrip {"my-adapter/x"} := by
  have hUnderscore : adapter_id_of (adapter_artifact_id "org/my_lora") = "org/my/lora" := by
    decide +kernel
  have hPrefix : adapter_id_of (adapter_artifact_id "my-adapter/x") = "my-x" := by decide +kernel
  refine ⟨hUnderscore, by decide +kernel, hPrefix, fun h => ?_, fun h => ?_⟩
  · have hSame := h.recovered "org/my_lora" (by simp) "" 0 0 (le_refl 0)
    exact absurd (hUnderscore.symm.trans hSame) (by decide)
  · have hSame := h.recovered "my-adapter/x" (by simp) "" 0 0 (le_refl 0)
    exact absurd (hPrefix.symm.trans hSame) (by decide)

end Serverless
