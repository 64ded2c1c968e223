import SwarmLoRA.Controller.Identity

namespace Controller

open Machine State

/-- The load balancer with the adapter that each worker has loaded, a history variable. The balancer
itself only knows what it has asked for and what was reported. -/
structure Fleet where
  balancer : State
  loaded : WorkerRef → AdapterId

/-- A true value in Python. -/
def named : AdapterId → Bool
  | some name => name ≠ ""
  | none => false

namespace Task

/-- The worker that a request has for its adapter, or will have when its future resumes it. A
worker that starts up is counted in, with the adapter that it is to be registered with. -/
def assigned (futures : FutureId → Future) : Task → Option (WorkerRef × AdapterId)
  | .inferring o a _ | .polling _ o a => some (o, a)
  | .waiting f a _ =>
      match (futures f).state with
      | .resolved o => some (o, a)
      | _ => none
  | _ => none

/-- The worker on which a swap is under way, and its adapter. -/
def target : Task → Option (WorkerRef × AdapterId)
  | .swapping _ o a => some (o, a)
  | _ => none

/-- The future of a request, and the adapter that the request is for. -/
def asked : Task → Option (FutureId × AdapterId)
  | .swapNew (.resolve f) _ a | .swapping (.resolve f) _ a | .waiting f a _ => some (f, a)
  | _ => none

end Task

namespace State

/-- The swap that has come back with success. -/
def swapped (s : State) (l : Label) : Option (WorkerRef × AdapterId) :=
  match s.resumed l with
  | some (.swapping _ o a, .succeeded) => some (o, a)
  | _ => none

/-- The swap that the step begins. -/
def begun (cfg : Config) (s : State) (l : Label) : Option (WorkerRef × AdapterId) :=
  match s.resumed l, l with
  | some (.swapNew _ o a, .resumed), _ => some (o, a)
  | _, .request _ a best_wid =>
      match s.decide_route cfg a best_wid with
      | some (_, .route _ true _, some o) => some (o, a)
      | _ => none
  | _, .swapEndpoint worker_id a => (s.workers.lookup worker_id).map fun o => (o, a)
  | _, _ => none

/-- The worker that a health check makes ready again. -/
def revived (s : State) (l : Label) : Option WorkerRef :=
  match s.resumed l with
  | some (.health o, .healthReady) =>
      if (s.infos o).status = .unhealthy ∨ (s.infos o).status = .starting then some o else none
  | _ => none

/-- The adapter that a worker says it has. -/
def reported (s : State) (l : Label) : Option (WorkerRef × AdapterId) :=
  match s.resumed l with
  | some (.adapterInfo o, .adapterInfo a _) => if named a then some (o, a) else none
  | _ => none

/-- The worker that the step registers for an adapter. -/
def registers (s : State) (l : Label) : Option (WorkerRef × AdapterId) :=
  match s.resumed l with
  | some (.polling _ o a, .ready _) => some (o, a)
  | _ => s.swapped l <|> s.reported l

/-- No other swap is under way on the worker, and whoever is to use the worker has it for the
same adapter. -/
def vacant (s : State) (o : WorkerRef) (a : AdapterId) : Prop :=
  ∀ task ∈ s.tasks, (∀ p ∈ task.target, p.1 ≠ o) ∧
    ∀ p ∈ task.assigned s.futures, p.1 = o → p.2 = a

instance (s : State) (o : WorkerRef) (a : AdapterId) : Decidable (s.vacant o a) :=
  inferInstanceAs (Decidable (∀ _ ∈ s.tasks, _ ∧ _))

end State

namespace Fleet

/-- What the workers have loaded after the step to `s`. -/
def load (fleet : Fleet) (l : Label) (s : State) : WorkerRef → AdapterId := fun o =>
  if o < fleet.balancer.nextRef then
    match fleet.balancer.swapped l with
    | some p => if o = p.1 then p.2 else fleet.loaded o
    | none => fleet.loaded o
  else (s.procs o).adapter_id

def machine (cfg : Config) : System Fleet Label where
  initial fleet := Initial fleet.balancer
  step fleet l := (step cfg fleet.balancer l).map fun s => ⟨s, fleet.load l s⟩

/-- A request in flight on a worker is for the adapter that is loaded there. -/
def Faithful (fleet : Fleet) : Prop :=
  ∀ o a retry, .inferring o a retry ∈ fleet.balancer.tasks → fleet.loaded o = a

/-- A swap begins on a worker that nobody else needs with another adapter, and no health check
makes a worker ready before its swap is over. What is registered is the worker of the pool that
has the id, for an adapter with a name, and a worker that names an adapter has it loaded. -/
def Coordinated (cfg : Config) (fleet : Fleet) (l : Label) : Prop :=
  let s := fleet.balancer
  (∀ p ∈ s.begun cfg l, s.vacant p.1 p.2) ∧
    (∀ o ∈ s.revived l, ∀ task ∈ s.tasks, ∀ p ∈ task.target, p.1 = o → fleet.loaded o = p.2) ∧
    (∀ p ∈ s.registers l, s.workers.lookup (s.infos p.1).worker_id = some p.1 ∧ named p.2) ∧
    ∀ p ∈ s.reported l, fleet.loaded p.1 = p.2

instance (cfg : Config) (fleet : Fleet) (l : Label) : Decidable (Coordinated cfg fleet l) :=
  inferInstanceAs (Decidable (_ ∧ _))

end Fleet

/-- The registry knows workers of the pool only, by the adapters that they have loaded. The ids in
`stale` are on their way out. -/
def Recorded (loaded : WorkerRef → AdapterId) (stale : List WorkerId) (s : State) : Prop :=
  ∀ a wid, wid ∈ s.registry.adapter_to_workers a →
    (s.registry.worker_to_adapter wid = some a ∧ named a) ∧
      (wid ∈ stale ∨ ∃ o, s.workers.lookup wid = some o ∧ loaded o = a)

section Recorded

variable {cfg : Config} {s s' : State} {loaded loaded' : WorkerRef → AdapterId}
  {stale stale' : List WorkerId} {o : WorkerRef} {wid : WorkerId} {a : AdapterId}

theorem mem_of_mem_discard {r : AdapterRegistry} {old : Option AdapterId} {w : WorkerId}
    (hMem : w ∈ (r.discard wid old).adapter_to_workers a) : w ∈ r.adapter_to_workers a := by
  unfold AdapterRegistry.discard at hMem
  split at hMem
  next name =>
    split at hMem
    next => exact hMem
    next =>
      simp only [Function.update_apply] at hMem
      split at hMem
      next ha => exact ha ▸ Finset.mem_of_mem_erase hMem
      next => exact hMem
  next => exact hMem

/-- An adapter with a name is forgotten for a worker that takes another. -/
theorem not_mem_discard {r : AdapterRegistry} (hOld : r.worker_to_adapter wid = some a)
    (hNamed : named a) : wid ∉ (r.discard wid (r.worker_to_adapter wid)).adapter_to_workers a := by
  rw [hOld]
  cases a with
  | none => cases hNamed
  | some name =>
      have hName : name ≠ "" := of_decide_eq_true hNamed
      simp [AdapterRegistry.discard, hName]

theorem Recorded.of_same (h : Recorded loaded stale s) (hRegistry : s'.registry = s.registry)
    (hWorkers : s'.workers = s.workers) : Recorded loaded stale s' := by
  unfold Recorded
  rw [hRegistry, hWorkers]
  exact h

theorem Recorded.mono (h : Recorded loaded stale s) (hSub : stale ⊆ stale') :
    Recorded loaded stale' s := by
  intro a wid hMem
  obtain ⟨hKnown, hPlace⟩ := h a wid hMem
  exact ⟨hKnown, hPlace.imp_left fun hStale => hSub hStale⟩

theorem Recorded.congr (h : Recorded loaded stale s) (hPool : PoolScoped s)
    (hSame : ∀ o < s.nextRef, loaded o = loaded' o) : Recorded loaded' stale s := by
  intro a wid hMem
  obtain ⟨hKnown, hStale | ⟨o, hLookup, hLoaded⟩⟩ := h a wid hMem
  · exact ⟨hKnown, .inl hStale⟩
  · exact ⟨hKnown, .inr ⟨o, hLookup, (hSame o (hPool wid o hLookup).1).symm.trans hLoaded⟩⟩

/-- A worker is registered for what it has loaded, whatever it had before. -/
theorem Recorded.register (h : Recorded loaded stale s) (hLookup : s.workers.lookup wid = some o)
    (hOthers : ∀ w p, w ≠ wid → s.workers.lookup w = some p → loaded p = loaded' p)
    (hLoaded : loaded' o = a) (hNamed : named a) : Recorded loaded' stale (s.register wid a) := by
  intro b w hMem
  have hCases : w = wid ∧ b = a ∨ w ≠ wid ∧ w ∈ s.registry.adapter_to_workers b := by
    by_cases hw : w = wid
    · subst hw
      refine .inl ⟨rfl, ?_⟩
      by_contra hb
      have hOld : w ∈ (s.registry.discard w (s.registry.worker_to_adapter w)).adapter_to_workers b := by
        simpa [State.register, AdapterRegistry.register, hb] using hMem
      obtain ⟨⟨hAdapter, hName⟩, -⟩ := h b w (mem_of_mem_discard hOld)
      exact not_mem_discard hAdapter hName hOld
    · refine .inr ⟨hw, ?_⟩
      simp only [State.register, AdapterRegistry.register, Function.update_apply] at hMem
      split at hMem
      next hb => exact hb ▸ mem_of_mem_discard (Finset.mem_of_mem_insert_of_ne hMem hw)
      next => exact mem_of_mem_discard hMem
  rcases hCases with ⟨rfl, rfl⟩ | ⟨hw, hOld⟩
  · refine ⟨⟨?_, hNamed⟩, .inr ⟨o, hLookup, hLoaded⟩⟩
    simp [State.register, AdapterRegistry.register]
  · obtain ⟨⟨hAdapter, hName⟩, hPlace⟩ := h b w hOld
    refine ⟨⟨?_, hName⟩, hPlace.imp_right ?_⟩
    · simpa [State.register, AdapterRegistry.register, hw,
        AdapterRegistry.worker_to_adapter_discard] using hAdapter
    · rintro ⟨p, hOther, hHas⟩
      exact ⟨p, hOther, (hOthers w p hw hOther).symm.trans hHas⟩

theorem Recorded.unregister (h : Recorded loaded stale s)
    (hStale : ∀ w ∈ stale, w = wid ∨ w ∈ stale') : Recorded loaded stale' (s.unregister wid) := by
  intro b w hMem
  obtain ⟨⟨hAdapter, hName⟩, hPlace⟩ := h b w (mem_of_mem_discard hMem)
  have hw : w ≠ wid := by
    rintro rfl
    exact not_mem_discard hAdapter hName hMem
  refine ⟨⟨?_, hName⟩, hPlace.imp_left fun hOld => (hStale w hOld).resolve_left hw⟩
  simpa [State.unregister, AdapterRegistry.unregister, hw] using hAdapter

theorem Recorded.pop_worker (h : Recorded loaded stale s) :
    Recorded loaded (wid :: stale) (s.pop_worker wid o) := by
  intro b w hMem
  obtain ⟨hKnown, hPlace⟩ := h b w hMem
  refine ⟨hKnown, ?_⟩
  by_cases hw : w = wid
  · exact .inl (hw ▸ List.mem_cons_self ..)
  · refine hPlace.imp (List.mem_cons_of_mem _) ?_
    rintro ⟨p, hLookup, hLoaded⟩
    exact ⟨p, (AList.lookup_erase_ne hw).trans hLookup, hLoaded⟩

theorem Recorded.add_worker {dev : Device} (h : Recorded loaded [] s) (hFree : wid ∉ s.workers) :
    Recorded loaded [] (s.add_worker cfg wid dev a) := by
  intro b w hMem
  obtain ⟨hKnown, hStale | ⟨p, hLookup, hLoaded⟩⟩ := h b w hMem
  · cases hStale
  · have hw : w ≠ wid := by
      rintro rfl
      exact hFree (AList.lookup_isSome.mp (hLookup ▸ rfl))
    exact ⟨hKnown, .inr ⟨p, (AList.lookup_insert_ne hw).trans hLookup, hLoaded⟩⟩

end Recorded

end Controller
