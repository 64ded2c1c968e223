import SwarmLoRA.Controller.Rounds

/-! Worker ids are used again as soon as they are free, while some operations on a worker go by
its id long after they have begun. What they find under the id by then is their own worker only
if nobody has taken the id over. -/
namespace Controller

open Machine State Holding

namespace AdapterRegistry

variable {r : AdapterRegistry} {wid worker_id : WorkerId} {adapter_id : AdapterId}

/-- The registry finds the worker by its adapter, and the adapter by the worker. -/
def Registered (r : AdapterRegistry) (wid : WorkerId) : Prop :=
  ∃ a, r.worker_to_adapter wid = some a ∧ wid ∈ r.adapter_to_workers a

theorem worker_to_adapter_discard (r : AdapterRegistry) (worker_id : WorkerId)
    (old : Option AdapterId) : (r.discard worker_id old).worker_to_adapter = r.worker_to_adapter := by
  unfold discard
  split
  next name => split <;> rfl
  next => rfl

theorem mem_discard (hOther : wid ≠ worker_id) (old : Option AdapterId) {a : AdapterId}
    (hMem : wid ∈ r.adapter_to_workers a) : wid ∈ (r.discard worker_id old).adapter_to_workers a := by
  unfold discard
  split
  next name =>
    split
    next => exact hMem
    next =>
      show wid ∈ Function.update r.adapter_to_workers (some name) _ a
      rw [Function.update_apply]
      split
      next ha => exact Finset.mem_erase.mpr ⟨hOther, ha ▸ hMem⟩
      next => exact hMem
  next => exact hMem

theorem registered_register (r : AdapterRegistry) (wid : WorkerId) (adapter_id : AdapterId) :
    (r.register wid adapter_id).Registered wid :=
  ⟨adapter_id, by simp [register], by simp [register]⟩

theorem Registered.register (hRegistered : r.Registered wid) :
    (r.register worker_id adapter_id).Registered wid := by
  by_cases hw : wid = worker_id
  · subst hw
    exact registered_register r wid adapter_id
  · obtain ⟨a, hAdapter, hMem⟩ := hRegistered
    have hOld := mem_discard hw (r.worker_to_adapter worker_id) hMem
    refine ⟨a, ?_, ?_⟩
    · simp [AdapterRegistry.register, hw, worker_to_adapter_discard, hAdapter]
    · simp only [AdapterRegistry.register, Function.update_apply]
      split
      next ha => exact Finset.mem_insert_of_mem (ha ▸ hOld)
      next => exact hOld

theorem Registered.unregister (hRegistered : r.Registered wid) (hOther : wid ≠ worker_id) :
    (r.unregister worker_id).Registered wid := by
  obtain ⟨a, hAdapter, hMem⟩ := hRegistered
  refine ⟨a, ?_, mem_discard hOther (r.worker_to_adapter worker_id) hMem⟩
  simp [AdapterRegistry.unregister, hOther, hAdapter]

end AdapterRegistry

namespace State

/-- The process of the worker has been launched, runs and has not been asked to stop. -/
def Live (s : State) (o : WorkerRef) : Prop :=
  o < s.nextRef ∧ (s.procs o).exited = false ∧ (s.procs o).asked_to_stop = false

/-- The step belongs to an operation on this very worker. -/
def operatesOn (s : State) (l : Label) (o : WorkerRef) : Prop :=
  s.removesFor l = some o ∨ ∃ worker_ids, l = .reap worker_ids ∧ (s.infos o).worker_id ∈ worker_ids

end State

/-- An operation that removes the id of its worker finds its worker under it or nobody, and a
worker is not removed while its process runs and is not to stop. -/
def RemovesOwn (s : State) (l : Label) : Prop :=
  ∀ b ∈ s.removesFor l, (∀ o ∈ s.workers.lookup (s.infos b).worker_id, o = b) ∧
    ((s.procs b).exited = true ∨ (s.procs b).asked_to_stop = true)

instance (s : State) (l : Label) : Decidable (RemovesOwn s l) :=
  inferInstanceAs (Decidable (∀ b ∈ s.removesFor l, _ ∧ _))

variable {cfg : Config} {s₀ s s' : State} {l : Label} {h h' : Multiset Holding} {x y : Held}
  {o : WorkerRef} {wid : WorkerId}

/-- Every live process is in the pool under its own id. -/
def Pooled (s : State) : Prop :=
  ∀ o, s.Live o → s.workers.lookup (s.infos o).worker_id = some o

/-- A worker that was live before the effect was so already. -/
theorem Effect.live (hEffect : Effect cfg s₀ l (s, h) (s', h')) (hWorker : o < s.nextRef)
    (hLive : s'.Live o) : s.Live o := by
  obtain ⟨-, hExited, hAsked⟩ := hEffect.process_keeps hWorker
  refine ⟨hWorker, ?_, ?_⟩
  · apply Bool.eq_false_of_not_eq_true
    exact fun hOld => absurd (hExited hOld) (by simp [hLive.2.1])
  · apply Bool.eq_false_of_not_eq_true
    exact fun hOld => absurd (hAsked hOld) (by simp [hLive.2.2])

/-- Who is taken out of the pool is not live. -/
theorem RemovesOwn.not_live (hGuard : RemovesOwn s₀ l)
    (hLookup : s.workers.lookup wid = some o)
    (hRemoves : s₀.removes l wid ∧ s.workers = s₀.workers ∧ s.procs = s₀.procs ∨
      ∃ worker_ids, l = .reap worker_ids ∧ wid ∈ worker_ids ∧ (s.procs o).asked_to_stop = true) :
    ¬ s.Live o := by
  intro hLive
  rcases hRemoves with ⟨⟨b, hFor, rfl⟩, hWorkers, hProcs⟩ | ⟨-, -, -, hAsked⟩
  · obtain ⟨hOwn, hGone⟩ := hGuard b hFor
    obtain rfl := hOwn o (hWorkers ▸ hLookup)
    rw [← hProcs, hLive.2.1, hLive.2.2] at hGone
    simp at hGone
  · rw [hLive.2.2] at hAsked
    simp at hAsked

theorem Pooled.effect (hPooled : Pooled s) (hGuard : RemovesOwn s₀ l)
    (hEffect : Effect cfg s₀ l (s, h) (s', h')) : Pooled s' := by
  intro o hLive
  have hOld : o < s.nextRef → s.workers.lookup (s'.infos o).worker_id = some o := by
    intro hWorker
    rw [(hEffect.keeps hWorker).2.worker_id]
    exact hPooled o (hEffect.live hWorker hLive)
  cases hEffect with
  | @launch _ _ d wid a hFree =>
      by_cases ho : o = s.nextRef
      · subst ho
        show (s.workers.insert wid s.nextRef).lookup
          (Function.update s.infos s.nextRef _ s.nextRef).worker_id = some s.nextRef
        rw [Function.update_self]
        exact AList.lookup_insert s.workers
      · have hWorker : o < s.nextRef := Nat.lt_of_le_of_ne (Nat.lt_succ_iff.mp hLive.1) ho
        have hLookup := hOld hWorker
        have hOther : ((s.add_worker cfg wid d a).infos o).worker_id ≠ wid := by
          intro hSame
          rw [hSame] at hLookup
          exact hFree (AList.lookup_isSome.mp (by simp [hLookup]))
        show (s.workers.insert wid s.nextRef).lookup _ = some o
        rw [AList.lookup_insert_ne hOther]
        exact hLookup
  | @pop _ _ wid p hLookup hRemoves =>
      have hKept := hOld hLive.1
      have hOther : (s.infos o).worker_id ≠ wid := by
        intro hSame
        have hFound : s.workers.lookup wid = some o := hSame ▸ hKept
        exact hGuard.not_live hLookup hRemoves (Option.some.inj (hLookup.symm.trans hFound) ▸ hLive)
      show (s.workers.erase wid).lookup (s.infos o).worker_id = some o
      rw [AList.lookup_erase_ne hOther]
      exact hKept
  | _ => exact hOld hLive.1

theorem pooled_of_reach (run : (machine cfg).Reach RemovesOwn s) : Pooled s := by
  refine run.invariant_of_effects (I := fun x => Pooled x.1) (madeOf_effects RemovesOwn) ?_ ?_
  · intro s hInitial o hLive
    exact absurd hLive.1 (by rw [hInitial.nextRef]; exact Nat.not_lt_zero o)
  · exact fun s l x y _ _ hGuard hOld hEffect => hOld.effect hGuard hEffect

/-- Within a step that began in `s₀` with worker `o` under its id: either the step operates on
that worker, and if it is the reaper then it has asked it to stop, or the worker is still there
and as registered as before. -/
def Kept (s₀ : State) (l : Label) (wid : WorkerId) (o : WorkerRef) (s : State) : Prop :=
  o < s.nextRef ∧ (s₀.removesFor l = some o ∨
    (∃ worker_ids, l = .reap worker_ids ∧ wid ∈ worker_ids ∧ (s.procs o).asked_to_stop = true) ∨
    s.workers.lookup wid = some o ∧ (s₀.registry.Registered wid → s.registry.Registered wid))

theorem Kept.effect (hKept : Kept s₀ l wid o s) (hFound : s₀.workers.lookup wid = some o)
    (hGuard : RemovesOwn s₀ l) (hEffect : Effect cfg s₀ l (s, h) (s', h')) :
    Kept s₀ l wid o s' := by
  obtain ⟨hWorker, hCases⟩ := hKept
  have hMade := (hEffect.keeps hWorker).1
  have hOwner : ∀ w, s₀.removes l w → w = wid → s₀.removesFor l = some o := by
    rintro w ⟨b, hFor, hId⟩ rfl
    have hSame := (hGuard b hFor).1 o (hId ▸ hFound)
    rw [hFor, hSame]
  refine ⟨hMade, ?_⟩
  rcases hCases with hFor | ⟨ids, hReap, hMem, hAsked⟩ | ⟨hLookup, hRegistry⟩
  · exact .inl hFor
  · exact .inr (.inl ⟨ids, hReap, hMem, (hEffect.process_keeps hWorker).2.2 hAsked⟩)
  · cases hEffect with
    | @launch _ _ d w a hFree =>
        refine .inr (.inr ⟨?_, hRegistry⟩)
        have hOther : wid ≠ w := by
          rintro rfl
          exact hFree (AList.lookup_isSome.mp (by simp [hLookup]))
        exact (AList.lookup_insert_ne hOther).trans hLookup
    | @pop _ _ w p hPopped hRemoves =>
        by_cases hw : wid = w
        · subst hw
          rcases hRemoves with ⟨hBy, -, -⟩ | ⟨ids, hReap, hMem, hAsked⟩
          · exact .inl (hOwner wid hBy rfl)
          · obtain rfl := Option.some.inj (hPopped.symm.trans hLookup)
            exact .inr (.inl ⟨ids, hReap, hMem, hAsked⟩)
        · exact .inr (.inr ⟨(AList.lookup_erase_ne hw).trans hLookup, hRegistry⟩)
    | @unregister _ _ w hRemoves =>
        by_cases hw : wid = w
        · subst hw
          rcases hRemoves with hBy | ⟨ids, -, -, hGone⟩
          · exact .inl (hOwner wid hBy rfl)
          · exact absurd (AList.lookup_isSome.mp (by simp [hLookup])) hGone
        · exact .inr (.inr ⟨hLookup, fun hOld => (hRegistry hOld).unregister hw⟩)
    | register => exact .inr (.inr ⟨hLookup, fun hOld => (hRegistry hOld).register⟩)
    | _ => exact .inr (.inr ⟨hLookup, hRegistry⟩)

theorem kept_of_step (hScoped : Scoped cfg s) (hGuard : RemovesOwn s l)
    (hStep : step cfg s l = some s') (hLookup : s.workers.lookup wid = some o) :
    Kept s l wid o s' :=
  preserved_of_path (I := fun x : Held => Kept s l wid o x.1)
    (fun _ _ hOld hEffect => hOld.effect hLookup hGuard hEffect) (path_of_step hScoped hStep)
    ⟨(hScoped.pool wid o hLookup).1, .inr (.inr ⟨hLookup, id⟩)⟩

/-- Worker ids are not confused: every live process is in the pool under its own id, its entry
in the registry is kept as long as it lives, and a step that takes a worker out of the pool or
the registry belongs to an operation on that worker. -/
structure IdsKept (cfg : Config) (s : State) : Prop where
  pool : ∀ o, s.Live o → s.workers.lookup (s.infos o).worker_id = some o
  registry : ∀ s', (machine cfg).Steps RemovesOwn s s' → ∀ o, o < s.nextRef → s'.Live o →
    s.registry.Registered (s.infos o).worker_id → s'.registry.Registered (s'.infos o).worker_id
  own : ∀ l s', RemovesOwn s l → step cfg s l = some s' → ∀ wid o,
    s.workers.lookup wid = some o → s'.workers.lookup wid ≠ some o ∨
      s.registry.Registered wid ∧ ¬ s'.registry.Registered wid → s.operatesOn l o

/-- What a step leaves of a worker that there was before it. -/
theorem keeps_of_step (hScoped : Scoped cfg s) (hStep : step cfg s l = some s')
    (hWorker : o < s.nextRef) :
    o < s'.nextRef ∧ (s.infos o).Keeps (s'.infos o) ∧ (s'.Live o → s.Live o) := by
  refine preserved_of_path (I := fun x : Held =>
    o < x.1.nextRef ∧ (s.infos o).Keeps (x.1.infos o) ∧ (x.1.Live o → s.Live o)) ?_
    (path_of_step hScoped hStep) ⟨hWorker, .refl _, id⟩
  intro x y hOld hEffect
  obtain ⟨hMade, hKeeps, hLive⟩ := hOld
  obtain ⟨hNext, hMore⟩ := hEffect.keeps hMade
  exact ⟨hNext, hKeeps.trans hMore, fun hNew => hLive (hEffect.live hMade hNew)⟩

theorem registered_of_step (run : (machine cfg).Reach RemovesOwn s) (hGuard : RemovesOwn s l)
    (hStep : step cfg s l = some s') (hWorker : o < s.nextRef) (hLive : s'.Live o)
    (hRegistered : s.registry.Registered (s.infos o).worker_id) :
    s'.registry.Registered (s'.infos o).worker_id := by
  have hScoped := scoped_of_reach run
  obtain ⟨-, hKeeps, hOld⟩ := keeps_of_step hScoped hStep hWorker
  have hLookup := pooled_of_reach run o (hOld hLive)
  rw [hKeeps.worker_id]
  obtain ⟨-, hFor | ⟨ids, -, -, hAsked⟩ | ⟨-, hRegistry⟩⟩ :=
    kept_of_step hScoped hGuard hStep hLookup
  · have hGone := (hGuard o hFor).2
    rw [(hOld hLive).2.1, (hOld hLive).2.2] at hGone
    simp at hGone
  · rw [hLive.2.2] at hAsked
    simp at hAsked
  · exact hRegistry hRegistered

/-- Worker ids are not confused as long as each operation that takes an id out of the pool finds its
own worker under the id, or nobody, and takes it out only when the process has ended or been asked
to stop. -/
theorem ids_kept_of_reach (run : (machine cfg).Reach RemovesOwn s) : IdsKept cfg s where
  pool := pooled_of_reach run
  registry s' more o hWorker := by
    -- Along the run, the worker stays what it is and is live as long as it is at the end.
    have hRun : o < s'.nextRef ∧ (s'.Live o → s.registry.Registered (s.infos o).worker_id →
        s'.registry.Registered (s'.infos o).worker_id) := by
      induction more with
      | refl => exact ⟨hWorker, fun _ => id⟩
      | tail prior hLast ih =>
          obtain ⟨l, hGuard, hStep⟩ := hLast
          have hReach := run.steps prior
          obtain ⟨hMade, hRegistry⟩ := ih
          obtain ⟨hNext, -, hOld⟩ := keeps_of_step (scoped_of_reach hReach) hStep hMade
          exact ⟨hNext, fun hLive hRegistered =>
            registered_of_step hReach hGuard hStep hMade hLive (hRegistry (hOld hLive) hRegistered)⟩
    exact hRun.2
  own l s' hGuard hStep wid o hLookup hChanged := by
    have hScoped := scoped_of_reach run
    obtain ⟨-, hFor | ⟨ids, hReap, hMem, -⟩ | ⟨hFound, hRegistry⟩⟩ :=
      kept_of_step hScoped hGuard hStep hLookup
    · exact .inl hFor
    · exact .inr ⟨ids, hReap, (hScoped.pool wid o hLookup).2.symm ▸ hMem⟩
    · rcases hChanged with hGone | ⟨hOld, hNew⟩
      · exact absurd hFound hGone
      · exact absurd (hRegistry hOld) hNew

/-- An idle worker is reaped, its process exits, and then its id is given to a new worker. -/
theorem ids_kept_of_reap : ∃ s, (machine twoWorkers).Reach RemovesOwn s ∧ s.Live 1 ∧
    (s.infos 1).worker_id = 0 ∧ IdsKept twoWorkers s := by
  have hRun : ((machine twoWorkers).replayUnder RemovesOwn built
      (launched 0 (some "a") ++ [.reap [0], .exits 0, .run 0 {} .resumed] ++
        launched 1 (some "b"))).map
      (fun s => (s.nextRef, (s.procs 1).exited, (s.procs 1).asked_to_stop,
        (s.infos 1).worker_id)) = some (2, false, false, 0) := by decide +kernel
  obtain ⟨s, hReplay, hEnd⟩ := Option.map_eq_some_iff.mp hRun
  simp only [Prod.mk.injEq] at hEnd
  obtain ⟨hRef, hExited, hAsked, hId⟩ := hEnd
  have run := System.reach_of_replayUnder (.start built_initial) hReplay
  exact ⟨s, run, ⟨by rw [hRef]; decide, hExited, hAsked⟩, hId, ids_kept_of_reach run⟩

/-- While the endpoint waits for the exit of a worker, a health check removes the worker, and a
new one is launched under its id. When the endpoint goes on it removes the new one. -/
theorem stop_removes_successor : ∃ s, (machine twoWorkers).Reachable s ∧ s.Live 1 ∧
    s.workers.entries = [] ∧ ¬ IdsKept twoWorkers s := by
  have hRun : ((machine twoWorkers).replay built
      (launched 0 (some "a") ++ [.checkAll, .stopEndpoint 0, .exits 0, .run 0 {} .failed,
        .spawnEndpoint {} (some "b") false, .run 0 {} .resumed])).map
      (fun s => (s.nextRef, (s.procs 1).exited, (s.procs 1).asked_to_stop, s.workers.entries)) =
      some (2, false, false, []) := by decide +kernel
  obtain ⟨s, hReplay, hEnd⟩ := Option.map_eq_some_iff.mp hRun
  simp only [Prod.mk.injEq] at hEnd
  obtain ⟨hRef, hExited, hAsked, hEntries⟩ := hEnd
  have hLive : s.Live 1 := ⟨by rw [hRef]; decide, hExited, hAsked⟩
  refine ⟨s, System.reachable_of_replay (.start built_initial) hReplay, hLive, hEntries, ?_⟩
  intro hKept
  have hMem := AList.mem_lookup_iff.mp (hKept.pool 1 hLive)
  rw [hEntries] at hMem
  simp at hMem

end Controller
