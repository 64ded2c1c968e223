import SwarmLoRA.Controller.Rounds

/-! The port of a worker follows from its id, and a process keeps its port until it exits. Who
answers on the port of a worker is the worker's own process if no two processes that run have
the same port. -/
namespace Controller

open Machine State Holding

/-- The coroutine waits for the process of the worker to become ready. -/
def Task.polls (o : WorkerRef) : Task → Bool
  | .polling _ p _ => p = o
  | _ => false

namespace State

/-- The worker that the step finds to be ready. -/
def declaresReady (s : State) (l : Label) : Option WorkerRef :=
  match s.resumed l with
  | some (.polling _ o _, .ready _) => some o
  | _ => none

/-- The process that loads another adapter. -/
def reloads : Label → Option WorkerRef
  | .loads _ p => some p
  | _ => none

end State

/-- A process is launched only on a port that no running process has, no process loads another
adapter while it is waited for, and a worker is found ready only while its own process runs. -/
def PortFree (cfg : Config) (s : State) (l : Label) : Prop :=
  (∀ launch ∈ s.launches cfg l, launch.2 = true → ∀ p < s.nextRef, (s.procs p).exited = false →
      (s.procs p).port ≠ cfg.base_port + launch.1 * 10) ∧
    (∀ p ∈ reloads l, ∀ task ∈ s.tasks, task.polls p = false) ∧
    ∀ o ∈ s.declaresReady l, (s.procs o).exited = false

instance (cfg : Config) (s : State) (l : Label) : Decidable (PortFree cfg s l) :=
  inferInstanceAs (Decidable ((∀ launch ∈ s.launches cfg l, _) ∧ (∀ p ∈ reloads l, _) ∧
    ∀ o ∈ s.declaresReady l, _))

variable {cfg : Config} {s₀ s s' : State} {l : Label} {x y : Held} {o p : WorkerRef}

/-- Running processes have different ports, a worker has the port of its process, and a process
that is waited for has the adapter it was launched with. -/
structure Launched (s : State) : Prop where
  unique : ∀ o p, o < s.nextRef → p < s.nextRef → (s.procs o).exited = false →
    (s.procs p).exited = false → (s.procs o).port = (s.procs p).port → o = p
  port : ∀ o < s.nextRef, (s.procs o).port = (s.infos o).http_port
  adapter : ∀ caller o a, .polling caller o a ∈ s.tasks → o < s.nextRef ∧ (s.procs o).adapter_id = a

/-- An effect that launches no process and neither lets one poll nor load an adapter. -/
theorem Launched.of_same (hLaunched : Launched s) (hRef : s'.nextRef = s.nextRef)
    (hProcs : ∀ o < s.nextRef, (s'.procs o).port = (s.procs o).port ∧
      ((s.procs o).exited = true → (s'.procs o).exited = true))
    (hInfos : ∀ o < s.nextRef, (s.infos o).Keeps (s'.infos o))
    (hAdapter : ∀ caller o a, .polling caller o a ∈ s'.tasks →
      o < s.nextRef ∧ (s'.procs o).adapter_id = a) : Launched s' := by
  have hRuns : ∀ o < s.nextRef, (s'.procs o).exited = false → (s.procs o).exited = false := by
    intro o hWorker hNew
    apply Bool.eq_false_of_not_eq_true
    exact fun hOld => absurd ((hProcs o hWorker).2 hOld) (by simp [hNew])
  refine ⟨fun o p ho hp hRunsO hRunsP hPort => ?_, fun o ho => ?_, fun caller o a hTask => ?_⟩
  · rw [hRef] at ho hp
    rw [(hProcs o ho).1, (hProcs p hp).1] at hPort
    exact hLaunched.unique o p ho hp (hRuns o ho hRunsO) (hRuns p hp hRunsP) hPort
  · rw [hRef] at ho
    rw [(hProcs o ho).1, (hInfos o ho).http_port]
    exact hLaunched.port o ho
  · rw [hRef]
    exact hAdapter caller o a hTask

/-- A process is launched on a port that no running one has. -/
theorem Launched.add_worker {wid : WorkerId} {dev : Device} {a : AdapterId}
    (hLaunched : Launched s) (hNew : ∀ p < s.nextRef, (s.procs p).exited = false →
      (s.procs p).port ≠ cfg.base_port + wid * 10) : Launched (s.add_worker cfg wid dev a) := by
  have hOld : ∀ o < s.nextRef, (s.add_worker cfg wid dev a).procs o = s.procs o ∧
      (s.add_worker cfg wid dev a).infos o = s.infos o := by
    intro o ho
    simp only [State.add_worker, Function.update_of_ne ho.ne, and_self]
  have hPort : ((s.add_worker cfg wid dev a).procs s.nextRef).port = cfg.base_port + wid * 10 := by
    simp [State.add_worker]
  have hCases : ∀ o < s.nextRef + 1, o < s.nextRef ∨ o = s.nextRef :=
    fun o ho => Nat.lt_or_eq_of_le (Nat.lt_succ_iff.mp ho)
  refine ⟨fun o p ho hp hRunsO hRunsP hSame => ?_, fun o ho => ?_, fun caller o b hTask => ?_⟩
  · rcases hCases o ho with hO | rfl <;> rcases hCases p hp with hP | rfl
    · rw [(hOld o hO).1] at hRunsO hSame
      rw [(hOld p hP).1] at hRunsP hSame
      exact hLaunched.unique o p hO hP hRunsO hRunsP hSame
    · rw [(hOld o hO).1] at hRunsO hSame
      exact absurd (hSame.trans hPort) (hNew o hO hRunsO)
    · rw [(hOld p hP).1] at hRunsP hSame
      exact absurd (hSame.symm.trans hPort) (hNew p hP hRunsP)
    · rfl
  · rcases hCases o ho with hO | rfl
    · rw [(hOld o hO).1, (hOld o hO).2]
      exact hLaunched.port o hO
    · simp [State.add_worker]
  · obtain ⟨hWorker, hAdapter⟩ := hLaunched.adapter caller o b hTask
    exact ⟨hWorker.trans (Nat.lt_succ_self _), (hOld o hWorker).1 ▸ hAdapter⟩

theorem Launched.effect (hLaunched : Launched x.1) (hGuard : PortFree cfg s₀ l)
    (hEffect : Effect cfg s₀ l x y) : Launched y.1 := by
  have hInfos : ∀ o < x.1.nextRef, (x.1.infos o).Keeps (y.1.infos o) :=
    fun o hWorker => (hEffect.keeps hWorker).2
  have hProcs : ∀ o < x.1.nextRef, (y.1.procs o).port = (x.1.procs o).port ∧
      ((x.1.procs o).exited = true → (y.1.procs o).exited = true) :=
    fun o hWorker => (hEffect.process_keeps hWorker).imp_right And.left
  cases hEffect with
  | take hTask =>
      exact hLaunched.of_same rfl hProcs hInfos fun caller o a hMem =>
        hLaunched.adapter caller o a (List.mem_of_mem_eraseIdx hMem)
  | put hHolds hScoped hBegun =>
      refine hLaunched.of_same rfl hProcs hInfos fun caller o a hMem => ?_
      rcases List.mem_append.mp hMem with hOld | hNew
      · exact hLaunched.adapter caller o a hOld
      · obtain rfl := List.mem_singleton.mp hNew
        exact ⟨hScoped.worker o rfl, hBegun⟩
  | queue =>
      refine hLaunched.of_same rfl hProcs hInfos fun caller o a hMem => ?_
      rcases List.mem_append.mp hMem with hOld | hNew
      · exact hLaunched.adapter caller o a hOld
      · simp at hNew
  | @launch s h d wid a hFree hId hLaunches hSameProcs hSameRef =>
      have hNew : ∀ p < s.nextRef, (s.procs p).exited = false →
          (s.procs p).port ≠ cfg.base_port + wid * 10 := by
        rw [hSameProcs, hSameRef]
        exact hGuard.1 (wid, true) hLaunches rfl
      exact hLaunched.add_worker hNew
  | @markStopping s h o =>
      refine hLaunched.of_same rfl hProcs hInfos fun caller p a hMem => ?_
      obtain ⟨hWorker, hAdapter⟩ := hLaunched.adapter caller p a hMem
      refine ⟨hWorker, ?_⟩
      show (Function.update s.procs o _ p).adapter_id = a
      rw [Function.update_apply]
      split
      next hp => exact hp ▸ hAdapter
      next => exact hAdapter
  | @process s h o proc hWorker hPort hExited hAsked hAdapter =>
      refine hLaunched.of_same rfl hProcs hInfos fun caller p a hMem => ?_
      obtain ⟨hMade, hOld⟩ := hLaunched.adapter caller p a hMem
      refine ⟨hMade, ?_⟩
      show (Function.update s.procs o proc p).adapter_id = a
      rw [Function.update_apply]
      split
      next hp =>
        subst hp
        rcases hAdapter with hSame | ⟨⟨i, rfl⟩, hTasks⟩
        · exact hSame.trans hOld
        · have hNot := hGuard.2.1 p rfl _ (hTasks ▸ hMem)
          simp [Task.polls] at hNot
      next => exact hOld
  | _ => exact hLaunched.of_same rfl hProcs hInfos hLaunched.adapter

theorem launched_of_reach (run : (machine cfg).Reach (PortFree cfg) s) : Launched s := by
  refine run.invariant_of_effects (I := fun x => Launched x.1) (madeOf_effects (PortFree cfg)) ?_ ?_
  · intro s hInitial
    refine ⟨fun o p ho => ?_, fun o ho => ?_, fun caller o a hTask => ?_⟩
    · exact absurd ho (by rw [hInitial.nextRef]; exact Nat.not_lt_zero o)
    · exact absurd ho (by rw [hInitial.nextRef]; exact Nat.not_lt_zero o)
    · rw [hInitial.tasks] at hTask
      simp at hTask
  · exact fun s l x y _ _ hGuard hOld hEffect => hOld.effect hGuard hEffect

/-- Requests reach the process they are meant for: running processes have different ports, and
whoever is found ready is the worker's own process, with the adapter it was launched with. -/
structure Addressed (cfg : Config) (s : State) : Prop where
  unique : ∀ o p, o < s.nextRef → p < s.nextRef → (s.procs o).exited = false →
    (s.procs p).exited = false → (s.procs o).port = (s.procs p).port → o = p
  ready : ∀ i env caller o a p s', s.tasks[i]? = some (.polling caller o a) →
    PortFree cfg s (.run i env (.ready p)) → step cfg s (.run i env (.ready p)) = some s' →
      p = o ∧ (s.procs p).adapter_id = a

/-- Requests reach the process they are meant for as long as no process is launched on the port of a
running one, none loads another adapter while it is waited for, and a worker is found ready only by
an answer of its own process. -/
theorem addressed_of_reach (run : (machine cfg).Reach (PortFree cfg) s) : Addressed cfg s := by
  have hLaunched := launched_of_reach run
  refine ⟨hLaunched.unique, ?_⟩
  intro i env caller o a p s' hTask hGuard hStep
  obtain ⟨hWorker, hAdapter⟩ := hLaunched.adapter caller o a (List.mem_of_getElem? hTask)
  have hRuns : (s.procs o).exited = false :=
    hGuard.2.2 o (by simp [declaresReady, resumed, hTask])
  simp only [step, hTask, resume, Option.ite_none_right_eq_some] at hStep
  obtain ⟨⟨⟨hMade, -, hExited, hPort⟩, -⟩, -⟩ := hStep
  have hSame : p = o :=
    hLaunched.unique p o hMade hWorker hExited hRuns (hPort.trans (hLaunched.port o hWorker).symm)
  exact ⟨hSame, hSame ▸ hAdapter⟩

/-- The process of a reaped worker has exited before the next one is launched on its port. -/
theorem addressed_of_reap : ∃ s, (machine twoWorkers).Reach (PortFree twoWorkers) s ∧
    (s.procs 0).port = (s.procs 1).port ∧ s.answers 1 1 ∧ Addressed twoWorkers s := by
  have hRun : ((machine twoWorkers).replayUnder (PortFree twoWorkers) built
      (launched 0 (some "a") ++ [.reap [0], .exits 0, .run 0 {} .resumed,
        .spawnEndpoint {} (some "b") false, .listens 1])).map
      (fun s => ((s.procs 0).port, (s.procs 1).port, decide (s.answers 1 1))) =
      some (9000, 9000, true) := by decide +kernel
  obtain ⟨s, hReplay, hEnd⟩ := Option.map_eq_some_iff.mp hRun
  simp only [Prod.mk.injEq, decide_eq_true_eq] at hEnd
  obtain ⟨hFirst, hSecond, hAnswers⟩ := hEnd
  have run := System.reach_of_replayUnder (.start built_initial) hReplay
  exact ⟨s, run, hFirst.trans hSecond.symm, hAnswers, addressed_of_reach run⟩

/-- The process of a reaped worker drains, still listening, when the next worker gets its id
and port, and it is found to be that worker, with an adapter of its own. -/
theorem draining_process_answers : ∃ s s', (machine twoWorkers).Reachable s ∧
    step twoWorkers s (.run 1 {} (.ready 0)) = some s' ∧ (s'.infos 1).status = .ready ∧
    (s'.procs 0).adapter_id = some "a" ∧ (s'.infos 1).adapter_id = some "b" ∧
    ¬ Addressed twoWorkers s := by
  have hRun : ((machine twoWorkers).replay built
      (launched 0 (some "a") ++ [.reap [0], .spawnEndpoint {} (some "b") false])).map
      (fun s => ((s.nextRef, (s.procs 0).exited, (s.procs 1).exited),
        ((s.procs 0).port, (s.procs 1).port), (step twoWorkers s (.run 1 {} (.ready 0))).map
          fun s' => decide ((s'.infos 1).status = .ready ∧ (s'.procs 0).adapter_id = some "a" ∧
            (s'.infos 1).adapter_id = some "b"))) =
      some ((2, false, false), (9000, 9000), some true) := by decide +kernel
  obtain ⟨s, hReplay, hEnd⟩ := Option.map_eq_some_iff.mp hRun
  simp only [Prod.mk.injEq, Option.map_eq_some_iff, decide_eq_true_eq] at hEnd
  obtain ⟨⟨hRef, hFirst, hSecond⟩, ⟨hPort, hPort'⟩, s', hStep, hStatus, hOld, hNew⟩ := hEnd
  refine ⟨s, s', System.reachable_of_replay (.start built_initial) hReplay, hStep, hStatus, hOld,
    hNew, fun hAddressed => ?_⟩
  have hSame := hAddressed.unique 0 1 (by rw [hRef]; decide) (by rw [hRef]; decide) hFirst hSecond
    (hPort.trans hPort'.symm)
  exact absurd hSame (by decide)

end Controller
