import SwarmLoRA.Barrier.Drain
import SwarmLoRA.Barrier.Membership

namespace Barrier

open Ipc Aggregator Machine

/-- The worker has still to wait, within its token, for an epoch not yet published. -/
def WorkerPc.bound (ops epoch : Nat) : WorkerPc → Bool
  | .op _ k (.wait e _) => decide (epoch ≤ e) || k + 1 != ops
  | .op _ k (.fetch _ _) => k + 1 != ops
  | .op _ _ _ => true
  | _ => false

namespace State

/-- No slot is active and no join is pending. -/
def idle (s : State) : Prop :=
  ∀ i, s.agg.active_mask.test_bit i = false ∧ s.joinPending i = false

/-- A step that takes slots out of the active set, while every active slot has a leave
pending or, for the timeout, none is ready. -/
def empties (s : State) : Label → Bool
  | .aggregate _ _ =>
      match s.agg.pc with
      | .exchangeLeaves 1 => (s.agg.active_mask &&&
          ~~~s.agg.leaves.copyWord 1 s.ctrl.pending_slot_leaves).is_zero
      | .loadMidLeaves 1 => (s.agg.active_mask &&&
          ~~~s.agg.load 1 s.ctrl.pending_slot_leaves).is_zero
      | .loadStuck 1 => (s.agg.active_mask &&& s.agg.load 1 s.ctrl.per_slot_ready_mask).is_zero
      | _ => false
  | _ => false

/-- The step lets a worker past its check of the eviction bit, into a token. -/
def begins (s : State) : Label → Bool
  | .work p _ _ =>
      match (s.workers p).pc with
      | .tokenStart i => !s.ctrl.is_slot_evicted i
      | _ => false
  | _ => false

end State

/-- The condition on a step: the last slots leave the active set only when a join is
pending or no live worker is in the middle of a token, and a worker begins a token only
while a slot is active or a join is pending. -/
structure Attended (c : Config) (s : State) (l : Label) : Prop where
  emptied : s.empties l = true → (∀ i, s.joinPending i = false) → ∀ p,
    (s.workers p).crashed = false →
    (s.workers p).pc.bound c.ops_per_token s.ctrl.barrier_done_epoch = false
  begun : s.begins l = true → ¬s.idle

/-- Worker `p` of slot `i` waits for an epoch while no slot is active and no join is
pending. -/
structure Stranded (s : State) (p : Nat) (i : Slot) : Prop where
  live : (s.workers p).crashed = false
  running : s.ctrl.quit_flag = false
  waits : ∃ k e x, (s.workers p).pc = .op i k (.wait e x) ∧ s.ctrl.barrier_done_epoch ≤ e
  idle : s.idle

variable {c : Config} {s s' : State} {p : Nat} {i : Slot} {timer : Bool} {sample : Slot → Nat}

/-- While no slot is active, no worker has still to wait within its token. -/
def NoneBound (c : Config) (s : State) : Prop :=
  s.idle → ∀ p, (s.workers p).crashed = false →
    (s.workers p).pc.bound c.ops_per_token s.ctrl.barrier_done_epoch = false

/-- A step of the main loop after which nothing is active or pending, was taken where
nothing was, or has emptied the active set. -/
theorem AggregateMove.idle (hLocals : Locals s) (hMove : AggregateMove c s timer sample s')
    (hIdle : s'.idle) : s.idle ∨
      (s.empties (.aggregate timer sample) = true ∧ ∀ i, s.joinPending i = false) := by
  have hJoins : ∀ i, s.joinPending i = false := by
    intro i
    by_contra hPending
    rcases hMove.join_kept hLocals (by simpa using hPending) with hKept | hIn
    · simp [(hIdle i).2] at hKept
    · simp [(hIdle i).1] at hIn
  by_cases hEmpty : ∀ i, s.agg.active_mask.test_bit i = false
  · exact .inl fun i => ⟨hEmpty i, hJoins i⟩
  · right
    refine ⟨?_, hJoins⟩
    rw [not_forall] at hEmpty
    obtain ⟨j, hj⟩ := hEmpty
    have hSame : s'.agg.active_mask ≠ s.agg.active_mask := by
      intro hSame
      rw [← hSame, (hIdle j).1] at hj
      exact hj rfl
    have hZero : s'.agg.active_mask.is_zero = true :=
      (SlotMask.is_zero_iff _).mpr fun i => (hIdle i).1
    cases hMove with
    | applyLeaves hPc =>
        simp only [State.empties, hPc]
        exact hZero
    | applyJoins hPc _ =>
        have := (hIdle j).1
        simp only [SlotMask.test_bit_or, Bool.or_eq_false_iff] at this
        exact absurd this.1 hj
    | midLeaves hPc hLeaving =>
        simp only [State.empties, hPc, SlotMask.is_zero_iff] at hZero ⊢
        intro i
        have := hZero i
        simp only [hLeaving, SlotMask.test_bit_and, SlotMask.test_bit_not] at this ⊢
        revert this
        cases s.agg.active_mask.test_bit i <;> simp
    | evict hPc hStuck =>
        simp only [State.empties, hPc, SlotMask.is_zero_iff] at hZero ⊢
        intro i
        have := hZero i
        simp only [hStuck, SlotMask.test_bit_and, SlotMask.test_bit_not] at this ⊢
        revert this
        cases s.agg.active_mask.test_bit i <;> simp
    | droppedEmpty hPc _ _ | advanceEpoch hPc _ =>
        refine absurd ?_ hSame
        simp only [AggregatorState.nextOp]
        split <;> rfl
    | _ => exact absurd rfl hSame

/-- A worker that is bound to wait was so before its step, or has begun a token. -/
theorem Advance.bound {l : Label} {pc : WorkerPc}
    (hMove : Advance c s p l (s.workers p).pc pc)
    (h : pc.bound c.ops_per_token s.ctrl.barrier_done_epoch = true) :
    (s.workers p).pc.bound c.ops_per_token s.ctrl.barrier_done_epoch = true ∨
      s.begins l = true := by
  generalize hPc : (s.workers p).pc = old at hMove
  cases hMove with
  | begin hEvicted =>
      right
      simp [State.begins, hPc, hEvicted]
  | @published i k e x v b hEpoch =>
      left
      simp only [WorkerPc.bound] at h ⊢
      simp [h]
  | @fetched i k e x v b hMore =>
      left
      simpa [WorkerPc.bound] using hMore
  | capture => exact .inl rfl
  | _ => simp [WorkerPc.bound] at h

theorem WorkerMove.bound {l : Label} (hMove : WorkerMove c s p l s')
    (h : (s'.workers p).pc.bound c.ops_per_token s.ctrl.barrier_done_epoch = true) :
    (s.workers p).pc.bound c.ops_per_token s.ctrl.barrier_done_epoch = true ∨
      s.begins l = true := by
  cases hMove with
  | advance hMove => exact hMove.bound (by simpa using h)
  | prepare hPc | submit hPc | signal hPc =>
      left
      rw [hPc]
      rfl
  | @leave i f _ _ hPc => cases f <;> simp [WorkerPc.bound] at h
  | _ => simp [WorkerPc.bound] at h

theorem WorkerMove.others {l : Label} (hMove : WorkerMove c s p l s') :
    s'.agg = s.agg ∧ s'.ctrl.barrier_done_epoch = s.ctrl.barrier_done_epoch ∧
      ∀ q, q ≠ p → s'.workers q = s.workers q := by
  cases hMove <;> refine ⟨rfl, rfl, fun q hq => ?_⟩ <;> simp [State.setPc, State.signalLeave, hq]

/-- A connection thread leaves its worker at no position within a token. -/
theorem CallMove.workers (hMove : CallMove s p s') (q : Nat) :
    (s'.workers q).crashed = (s.workers q).crashed ∧
      ((s'.workers q).pc = (s.workers q).pc ∨ (∃ i, (s'.workers q).pc = .claimed i) ∨
        ∃ f, (s'.workers q).pc = .released f) := by
  cases hMove with
  | own hCall =>
      refine ⟨by simp, ?_⟩
      simp only [State.setPc_pc]
      split
      · exact .inr (.inl ⟨_, rfl⟩)
      · exact .inl rfl
  | giveUp hCall _ =>
      refine ⟨by simp, ?_⟩
      simp only [State.setPc_pc]
      split
      · exact .inr (.inr ⟨_, rfl⟩)
      · exact .inl rfl
  | _ => exact ⟨rfl, .inl rfl⟩

theorem NoneBound.aggregate (h : NoneBound c s) (hLocals : Locals s)
    (hMove : AggregateMove c s timer sample s')
    (hGuard : Attended c s (.aggregate timer sample)) : NoneBound c s' := by
  intro hIdle q hq
  obtain ⟨evicted, hSame⟩ := hMove.frame.workers q
  have hOld : (s.workers q).pc.bound c.ops_per_token s.ctrl.barrier_done_epoch = false := by
    rw [hSame] at hq
    rcases hMove.idle hLocals hIdle with hIdle | ⟨hEmpties, hNone⟩
    · exact h hIdle q hq
    · exact hGuard.emptied hEmpties hNone q hq
  have hEpoch : s.ctrl.barrier_done_epoch ≤ s'.ctrl.barrier_done_epoch := by
    cases hMove <;> simp
  rw [hSame]
  revert hOld
  cases (s.workers q).pc with
  | op j k stage =>
      cases stage with
      | wait e x =>
          simp only [WorkerPc.bound, Bool.or_eq_false_iff, decide_eq_false_iff_not]
          exact fun hOld => ⟨by omega, hOld.2⟩
      | _ => exact id
  | _ => exact id

theorem NoneBound.move {l : Label} (h : NoneBound c s) (hLocals : Locals s)
    (hMove : Move c s l s') (hGuard : Attended c s l) : NoneBound c s' := by
  have hUpdate : ∀ q w, (w.crashed = false → (s.workers q).crashed = false) →
      w.pc.bound c.ops_per_token s.ctrl.barrier_done_epoch = false ∨ w.pc = (s.workers q).pc →
      NoneBound c { s with workers := Function.update s.workers q w } := by
    intro q w hLive hPc hIdle r hr
    by_cases hrq : r = q
    · subst hrq
      simp only [Function.update_self] at hr ⊢
      rcases hPc with hPc | hPc
      · exact hPc
      · rw [hPc]
        exact h hIdle r (hLive hr)
    · simp only [Function.update_of_ne hrq] at hr ⊢
      exact h hIdle r hr
  cases hMove with
  | @worker _ q _ hLive hMove =>
      intro hIdle r hr
      obtain ⟨hAgg, hEpoch, hOther⟩ := hMove.others
      have hBefore : s.idle := by
        intro i
        refine ⟨by rw [← hAgg]; exact (hIdle i).1, ?_⟩
        have hAfter : s'.ctrl.pending_slot_joins.test_bit i = false ∧
            s.agg.joins.test_bit i = false := by
          simpa [State.joinPending, hAgg] using (hIdle i).2
        rw [State.joinPending, hAfter.2, Bool.or_false]
        by_contra hPending
        have hKept := (hMove.pending i).1 (by simpa using hPending)
        simp [hKept] at hAfter
      rw [hEpoch]
      by_cases hrq : r = q
      · subst hrq
        by_contra hBound
        rcases hMove.bound (by simpa using hBound) with hOld | hBegins
        · simp [h hBefore r hLive] at hOld
        · exact hGuard.begun hBegins hBefore
      · rw [hOther r hrq] at hr ⊢
        exact h hBefore r hr
  | call hMove =>
      intro hIdle r hr
      obtain ⟨hCrashed, hPc⟩ := hMove.workers r
      have hBefore : s.idle ∧ s'.ctrl.barrier_done_epoch = s.ctrl.barrier_done_epoch := by
        cases hMove <;> exact ⟨hIdle, rfl⟩
      rw [hBefore.2]
      rcases hPc with hPc | ⟨i, hPc⟩ | ⟨f, hPc⟩ <;> rw [hPc]
      · exact h hBefore.1 r (by rw [← hCrashed, hr])
      · rfl
      · rfl
  | aggregate hMove => exact h.aggregate hLocals hMove hGuard
  | @request q _ _ w hPc hLive hWorker =>
      exact hUpdate q w (fun _ => hLive) (.inl (by rw [hWorker]; rfl))
  | @crash q hLive => exact hUpdate q { s.workers q with crashed := true } (by simp) (.inr rfl)
  | @disconnect q i hCrashed _ _ _ =>
      exact hUpdate q { s.workers q with handler := .sleeping i } id (.inr rfl)
  | @deferredRelease q i _ =>
      exact hUpdate q { s.workers q with handler := .done } id (.inr rfl)

theorem NoneBound.initial (h : Initial s) : NoneBound c s := by
  intro _ p _
  rw [(h.workers p).1]
  rfl

/-- In every run whose steps meet the condition, no live worker ever waits for an epoch that nobody
is left to publish. Slots may be evicted and workers may crash; the last slots must not go while a
live worker is in the middle of a token and no join is pending, and no token begins while all is
idle. -/
theorem not_stranded_of_attended (run : (machine c).Reach (Attended c) s) (p : Nat) (i : Slot) :
    ¬Stranded s p i := by
  intro hStranded
  have h : NoneBound c s :=
    run.invariant_of_reach (NoneBound c) (fun _ => NoneBound.initial)
      fun _ _ _ prior h hMeets hStep =>
        h.move (locals_of_reach prior) (move_of_step hStep) hMeets
  obtain ⟨k, e, x, hPc, hEpoch⟩ := hStranded.waits
  have hFree := h hStranded.idle p hStranded.live
  simp [hPc, WorkerPc.bound, hEpoch] at hFree

/-- A stranded worker stays stranded until it crashes or another worker signals a join: no
step of its own is enabled, and the main loop publishes no epoch. -/
theorem Stranded.stays {l : Label} (h : Stranded s p i) (hTenancy : Tenancy s)
    (hCounts : Counts c s) (hStep : step c s l = some s') (hCrash : l ≠ .crash p)
    (hTenant : ∀ j, s'.joinPending j = false) : Stranded s' p i := by
  obtain ⟨hLive, hQuit, ⟨k, e, x, hPc, hEpoch⟩, hIdle⟩ := h
  have hSlot : (s.workers p).pc.slot = some i := by rw [hPc]; rfl
  have hQuiet : s.agg.pc.busy = false := by
    by_contra hBusy
    have hN := hCounts.nonempty (by simpa using hBusy)
    rw [hCounts.count (by
      revert hBusy
      cases s.agg.pc <;> simp [AggregatorPc.busy, AggregatorPc.counted])] at hN
    exact hN ((SlotMask.popcount_eq_zero_iff _).mpr fun j => (hIdle j).1)
  have hSame : (s'.workers p).crashed = false → s'.ctrl.quit_flag = s.ctrl.quit_flag →
      s'.ctrl.barrier_done_epoch = s.ctrl.barrier_done_epoch →
      (s'.workers p).pc = (s.workers p).pc →
      (∀ j, s'.agg.active_mask.test_bit j = false) → Stranded s' p i :=
    fun hLive' hQuit' hEpoch' hPc' hNone =>
      ⟨hLive', by rw [hQuit', hQuit], ⟨k, e, x, by rw [hPc', hPc], by rw [hEpoch']; exact hEpoch⟩,
        fun j => ⟨hNone j, hTenant j⟩⟩
  cases move_of_step hStep with
  | @worker _ q _ hLiveQ hMove =>
      obtain ⟨hAgg, hEpoch', hOther⟩ := hMove.others
      have hqp : p ≠ q := by
        rintro rfl
        cases hMove with
        | advance hMove =>
            generalize (s.workers p).pc = old at hMove hPc
            subst hPc
            cases hMove with
            | published hLt => omega
            | quit hSet => simp [hQuit] at hSet
            | failPending hPending => simp at hPending
            | failActive hRunning =>
                rcases hRunning with hOld | hOld | ⟨_, stage, hOld, hStage⟩
                · simp at hOld
                · simp at hOld
                · simp only [WorkerPc.op.injEq] at hOld
                  exact (hStage e x .loadHead).2 hOld.2.2.symm
        | _ => simp_all
      have hQuit' : s'.ctrl.quit_flag = s.ctrl.quit_flag := by cases hMove <;> rfl
      exact hSame (by rw [hOther p hqp, hLive]) hQuit' hEpoch' (by rw [hOther p hqp])
        fun j => by rw [hAgg, (hIdle j).1]
  | @call q _ _ hMove =>
      have hqp : p ≠ q := by
        rintro rfl
        have hIdleCall := hTenancy.call_idle hLive hSlot (by simp [hPc]) (by simp [hPc])
        cases hMove <;> simp_all
      have hFrame : s'.agg = s.agg ∧ s'.ctrl.quit_flag = s.ctrl.quit_flag ∧
          s'.ctrl.barrier_done_epoch = s.ctrl.barrier_done_epoch ∧
          s'.workers p = s.workers p := by
        cases hMove <;> refine ⟨rfl, rfl, rfl, ?_⟩ <;> simp [State.setPc, hqp]
      obtain ⟨hAgg, hQuit', hEpoch', hOther⟩ := hFrame
      exact hSame (by rw [hOther, hLive]) hQuit' hEpoch' (by rw [hOther])
        fun j => by rw [hAgg, (hIdle j).1]
  | aggregate hMove =>
      obtain ⟨evicted, hOther⟩ := hMove.frame.workers p
      have hCtrl : s'.ctrl.quit_flag = s.ctrl.quit_flag ∧
          s'.ctrl.barrier_done_epoch = s.ctrl.barrier_done_epoch := by
        cases hMove with
        | spinTimeout hAt _ _ | advanceBreaking hAt _ | advanceEpoch hAt _ =>
            rw [hAt] at hQuiet
            simp [AggregatorPc.busy] at hQuiet
        | _ => exact ⟨rfl, rfl⟩
      refine hSame (by rw [hOther]; exact hLive) hCtrl.1 hCtrl.2 (by rw [hOther]) fun j => ?_
      rcases hMove.active j with hActive | ⟨-, hPending⟩ | ⟨hGone, -⟩
      · rw [hActive, (hIdle j).1]
      · simp [(hIdle j).2] at hPending
      · exact hGone
  | @request q _ _ _ hIdlePc _ _ =>
      have hqp : p ≠ q := by
        rintro rfl
        simp [hPc] at hIdlePc
      exact hSame (by simp [hqp, hLive]) rfl rfl (by simp [hqp]) fun j => (hIdle j).1
  | @crash q _ =>
      have hqp : p ≠ q := by
        rintro rfl
        exact hCrash rfl
      exact hSame (by simp [hqp, hLive]) rfl rfl (by simp [hqp]) fun j => (hIdle j).1
  | @disconnect q _ hCrashed _ _ _ =>
      have hqp : p ≠ q := by
        rintro rfl
        simp [hLive] at hCrashed
      exact hSame (by simp [hqp, hLive]) rfl rfl (by simp [hqp]) fun j => (hIdle j).1
  | @deferredRelease q _ hSleeping =>
      have hqp : p ≠ q := by
        rintro rfl
        simp [(hTenancy.sleeping p _ hSleeping).1] at hLive
      exact hSame (by simp [hqp, hLive]) rfl rfl (by simp [hqp]) fun j => (hIdle j).1

/-- Two workers wait for the first round of a token. -/
theorem not_stranded_of_two_workers : ∃ s, (machine oneLayer).Reach (Attended oneLayer) s ∧
    (s.workers 0).pc = .op 0 0 (.wait 0 7) ∧ (s.workers 1).pc = .op 1 0 (.wait 0 7) ∧
    ¬Stranded s 0 0 ∧ ¬Stranded s 1 1 := by
  have hRun : ((machine oneLayer).replayUnder
      (fun s l => s.empties l = false ∧ (s.begins l = true → s.agg.active_mask.test_bit 0 = true))
      twoSlotStart (joinSchedule 0 1 ++ joinSchedule 1 1 ++ rounds 9 ++ works 0 10 ++
        works 1 10)).map (fun s => ((s.workers 0).pc, (s.workers 1).pc)) =
      some (.op 0 0 (.wait 0 7), .op 1 0 (.wait 0 7)) := by decide +kernel
  obtain ⟨s, hReplay, hBoth⟩ := Option.map_eq_some_iff.mp hRun
  obtain ⟨hFirst, hSecond⟩ := Prod.mk.inj hBoth
  have run := System.reach_of_replayUnder (.start (twoSlotStart_initial oneLayer)) hReplay
  have run' : (machine oneLayer).Reach (Attended oneLayer) s :=
    run.transfer fun r l _ _ hMeets _ => ⟨by simp [hMeets.1], fun hBegins hIdle => by
      have hActive := hMeets.2 hBegins
      simp [(hIdle 0).1] at hActive⟩
  exact ⟨s, run', hFirst, hSecond, not_stranded_of_attended run' 0 0,
    not_stranded_of_attended run' 1 1⟩

/-- Worker 0 is past its check of the eviction bit and is slow; its slot is evicted, and no
other slot is active. It then submits its command, signals ready and waits. -/
theorem evicted_worker_is_stranded : ¬ ∀ s p i, (machine oneLayer).Reachable s →
    ¬Stranded s p i := by
  intro hAll
  have hRun : ((machine oneLayer).replay twoSlotStart
      (joinSchedule 0 1 ++ rounds 9 ++ works 0 2 ++
        rounds 3 ++ .aggregate true (fun _ => 1) :: rounds 7 ++ works 0 8)).map
      (fun s => ((s.workers 0).pc, (s.workers 0).crashed, s.ctrl.quit_flag,
        s.ctrl.barrier_done_epoch, [s.agg.active_mask, s.agg.joins, s.ctrl.pending_slot_joins])) =
      some (.op 0 0 (.wait 0 7), false, false, 0, [.zero, .zero, .zero]) := by decide +kernel
  obtain ⟨s, hReplay, hAt⟩ := Option.map_eq_some_iff.mp hRun
  simp only [Prod.mk.injEq, List.cons.injEq] at hAt
  obtain ⟨hPc, hLive, hQuit, hEpoch, hActive, hJoins, hPending, -⟩ := hAt
  have run := System.reachable_of_replay (.start (twoSlotStart_initial oneLayer)) hReplay
  refine hAll s 0 0 run ⟨hLive, hQuit, ⟨0, 0, 7, hPc, by rw [hEpoch]⟩, fun i => ?_⟩
  simp [hActive, State.joinPending, hJoins, hPending]

end Barrier
