import SwarmLoRA.Barrier.Orderly

namespace Barrier

open Ipc Aggregator Machine

/-- What a step of the main loop does to the round: it goes on with it, executes its
batch, or publishes it. -/
inductive Turn (s s' : State) : Prop where
  | goesOn (hEpoch : s'.ctrl.barrier_done_epoch = s.ctrl.barrier_done_epoch)
      (hFinished : s'.agg.finished = s.agg.finished)
      (hClearing : s'.agg.pc.clearing = s.agg.pc.clearing)
  | executes (hPc : s.agg.pc = .execute) (hPc' : s'.agg.pc = .loadActive 0)
      (hEpoch : s'.ctrl.barrier_done_epoch = s.ctrl.barrier_done_epoch)
      (hFinished : s'.agg.finished = s.agg.taken)
  | publishes (hPc : s.agg.pc = .advanceEpoch) (hOpen : s'.agg.pc.clearing = false)
      (hEpoch : s'.ctrl.barrier_done_epoch = s.ctrl.barrier_done_epoch + 1)
      (hFinished : s'.agg.finished = s.agg.finished)

/-- The command that the worker has submitted for its present operation. -/
def WorkerPc.handed (c : Config) (p : Nat) : WorkerPc → Option Submission
  | .op i k (.signal e _) | .op i k (.wait e _) | .op i k (.fetch e _) =>
      some (c.submission k i p e)
  | _ => none

/-- The commands on the ring and those that are done with. Those that are not are backed by a worker
that waits for their round, those that are belong to rounds that were executed, and no slot has two
for one round. -/
structure Ledger (c : Config) (s : State) : Prop where
  backed : ∀ ticket cmd, s.agg.finished ≤ ticket → s.ring.log[ticket]? = some cmd →
    ∃ p, (s.workers p).pc.slot = some cmd.slot_id ∧
      (s.workers p).pc.reserved s.ctrl.barrier_done_epoch = true
  rounds : ∀ (ticket : Nat) (cmd : Submission), s.ring.log[ticket]? = some cmd →
    cmd.round ≤ s.ctrl.barrier_done_epoch
  past : ∀ ticket cmd, ticket < s.agg.finished → s.ring.log[ticket]? = some cmd →
    s.executed cmd.round
  once : ∀ (ticket ticket' : Nat) (cmd cmd' : Submission), s.ring.log[ticket]? = some cmd →
    s.ring.log[ticket']? = some cmd' → cmd.slot_id = cmd'.slot_id → cmd.round = cmd'.round →
    ticket = ticket'
  handed : ∀ p cmd, (s.workers p).pc.handed c p = some cmd → cmd ∈ s.ring.log

variable {c : Config} {s s' : State} {p : Nat} {i : Slot} {timer : Bool} {sample : Slot → Nat}

theorem Running.turn (h : Running c s) (hMove : AggregateMove c s timer sample s') : Turn s s' := by
  have hWord : ∀ k : Fin 2, k = 0 ∨ k = 1 := by decide
  have hQuit := h.quit
  cases hMove with
  | tick hTick =>
      refine .goesOn rfl rfl ?_
      generalize s.agg.pc = old at hTick
      cases hTick <;> rfl
  | execute hPc _ => exact .executes hPc rfl rfl rfl
  | advanceEpoch hPc _ =>
      obtain ⟨-, -, hFinished, -, hAt⟩ := nextOp_frame
        (a := { s.agg with commands := [], tickets := [] }) (h.counts.op_idx (by rw [hPc]; rfl))
      refine .publishes hPc ?_ rfl hFinished
      rcases hAt with hAt | hAt <;> simp [hAt, AggregatorPc.clearing]
  | advanceBreaking hPc hSet => simp [h.counts.breaking] at hSet
  | droppedQuit hPc hSet | decideQuit hPc hSet => simp [hQuit] at hSet
  | droppedEmpty hPc _ hNone => exact absurd hNone (h.round.commands_ne_nil h.drain h.counts hPc)
  | @clearMidLeaves k hPc | @storeEvicted k hPc | @clearReady k hPc =>
      refine .goesOn rfl rfl ?_
      rw [hPc]
      rcases hWord k with rfl | rfl <;> rfl
  | @storeMidLeaves k hPc =>
      refine .goesOn rfl rfl ?_
      rw [hPc]
      dsimp only
      split <;> (try split) <;> rfl
  | fetch hPc _ =>
      refine .goesOn rfl rfl ?_
      rw [hPc]
      rcases drainNext_cases (s.agg.beginDrain s.ring) with hNext | hNext <;> rw [hNext] <;> rfl
  | take hPc =>
      refine .goesOn rfl rfl ?_
      rw [hPc]
      rcases drainNext_cases (s.agg.takeEntry s.ring) with hNext | hNext <;> rw [hNext] <;> rfl
  | exchangeLeaves hPc | applyLeaves hPc | noJoins hPc | exchangeJoins hPc | applyJoins hPc _
  | storeActive hPc | storedNone hPc _ | storedActive hPc _ | midLeaves hPc _ | evict hPc _
  | spinTimeout hPc _ _ | batched hPc _ _ | throw hPc _ =>
      exact .goesOn rfl rfl (by rw [hPc]; rfl)
  | signalEvicted hPc _ => exact .goesOn rfl rfl (by rw [hPc])

/-- In an orderly run the worker of a slot that is within an operation is active. -/
theorem Marks.active {k : Nat} {stage : Stage} (h : Marks s)
    (hPc : (s.workers p).pc = .op i k stage) :
    s.joinPending i = false ∧ s.agg.active_mask.test_bit i = true ∧ s.leavePending i = false := by
  have hFits := h.fits i p (by rw [hPc]; rfl)
  rw [hPc] at hFits
  exact ⟨hFits.1, hFits.2.1, hFits.2.2.2⟩

theorem WorkerPc.op_of_reserved {pc : WorkerPc} {epoch : Nat} (hSlot : pc.slot = some i)
    (h : pc.reserved epoch = true) : ∃ k stage, pc = .op i k stage := by
  cases pc with
  | op j k stage =>
      obtain rfl := Option.some.inj hSlot
      exact ⟨k, stage, rfl⟩
  | _ => simp [WorkerPc.reserved] at h

/-- A command that is not done with is of an active slot. -/
theorem Ledger.active {ticket : Nat} {cmd : Submission} (h : Ledger c s) (hMarks : Marks s)
    (hFrom : s.agg.finished ≤ ticket) (hCmd : s.ring.log[ticket]? = some cmd) :
    s.agg.active_mask.test_bit cmd.slot_id = true := by
  obtain ⟨q, hSlot, hReserved⟩ := h.backed ticket cmd hFrom hCmd
  obtain ⟨k, stage, hPc⟩ := WorkerPc.op_of_reserved hSlot hReserved
  exact (hMarks.active hPc).2.1

theorem Ledger.setPc (h : Ledger c s) (pc : WorkerPc)
    (hBacked : (s.workers p).pc.reserved s.ctrl.barrier_done_epoch = true →
      pc.reserved s.ctrl.barrier_done_epoch = true ∧ pc.slot = (s.workers p).pc.slot)
    (hHanded : ∀ cmd, pc.handed c p = some cmd → cmd ∈ s.ring.log) : Ledger c (s.setPc p pc) := by
  refine ⟨fun ticket cmd hFrom hCmd => ?_, h.rounds, h.past, h.once, fun q cmd hq => ?_⟩
  · obtain ⟨q, hSlot, hReserved⟩ := h.backed ticket cmd hFrom hCmd
    refine ⟨q, ?_⟩
    rw [State.setPc_pc]
    split
    next hqp =>
      subst hqp
      obtain ⟨hNow, hSame⟩ := hBacked hReserved
      exact ⟨hSame.trans hSlot, hNow⟩
    next => exact ⟨hSlot, hReserved⟩
  · rw [State.setPc_pc] at hq
    split at hq
    next hqp =>
      subst hqp
      exact hHanded cmd hq
    next => exact h.handed q cmd hq

theorem Ledger.withWorkers (h : Ledger c s) (workers : Nat → Worker)
    (hPc : ∀ q, (workers q).pc = (s.workers q).pc) : Ledger c { s with workers } := by
  refine ⟨?_, h.rounds, h.past, h.once, ?_⟩
  · simpa only [hPc] using h.backed
  · simpa only [hPc] using h.handed

theorem Ledger.advance {l : Label} {pc : WorkerPc} (h : Ledger c s)
    (hQuit : s.ctrl.quit_flag = false) (hOrderly : Orderly s l)
    (hMove : Advance c s p l (s.workers p).pc pc) : Ledger c (s.setPc p pc) := by
  have hUnbroken := hOrderly.unbroken
  have hSet := h.setPc (p := p) pc
  have hHanded := h.handed p
  generalize hPc : (s.workers p).pc = old at hMove hSet hHanded
  cases hMove with
  | quit hOn => simp [hQuit] at hOn
  | @published i k e x v b hEpoch =>
      refine hSet (fun hReserved => ?_) hHanded
      simp only [WorkerPc.reserved, beq_iff_eq] at hReserved
      omega
  | failPending hPending =>
      rcases hPending with rfl | rfl <;>
        exact hSet (by simp [WorkerPc.reserved]) (by simp [WorkerPc.handed])
  | failActive hRunning =>
      rcases hRunning with rfl | rfl | ⟨k, stage, rfl, -⟩
      · exact hSet (by simp [WorkerPc.reserved]) (by simp [WorkerPc.handed])
      · exact hSet (by simp [WorkerPc.reserved]) (by simp [WorkerPc.handed])
      · simp [State.breaks, hPc] at hUnbroken
  | _ => exact hSet (by simp [WorkerPc.reserved]) (by simp [WorkerPc.handed])

/-- A worker that has just reserved an entry appears in the ledger. -/
theorem Ledger.append {cmd : Submission} {ring : CommandRing Submission} (h : Ledger c s)
    (hSlot : (s.workers p).pc.slot = some cmd.slot_id)
    (hReserved : (s.workers p).pc.reserved s.ctrl.barrier_done_epoch = true)
    (hRound : cmd.round = s.ctrl.barrier_done_epoch)
    (hFresh : ∀ (ticket : Nat) (old : Submission), s.ring.log[ticket]? = some old →
      old.slot_id = cmd.slot_id → old.round ≠ cmd.round)
    (hFinished : s.agg.finished ≤ s.ring.log.length) (hLog : ring.log = s.ring.log ++ [cmd]) :
    Ledger c { s with ring } := by
  have hSplit : ∀ {ticket old}, ring.log[ticket]? = some old →
      s.ring.log[ticket]? = some old ∨ (ticket = s.ring.log.length ∧ old = cmd) := by
    intro ticket old hOld
    rw [hLog, List.getElem?_append] at hOld
    split at hOld
    next => exact .inl hOld
    next hGe =>
      rw [List.getElem?_singleton] at hOld
      split at hOld
      next hZero => exact .inr ⟨by omega, (Option.some.inj hOld).symm⟩
      next => simp at hOld
  refine ⟨fun ticket old hFrom hOld => ?_, fun ticket old hOld => ?_, fun ticket old hTo hOld => ?_,
    fun t t' old old' hOld hOld' hSame hSameRound => ?_, fun q old hq => ?_⟩
  · rcases hSplit hOld with hOld | ⟨-, rfl⟩
    · exact h.backed ticket old hFrom hOld
    · exact ⟨p, hSlot, hReserved⟩
  · rcases hSplit hOld with hOld | ⟨-, rfl⟩
    · exact h.rounds ticket old hOld
    · exact hRound.le
  · rcases hSplit hOld with hOld | ⟨rfl, -⟩
    · exact h.past ticket old hTo hOld
    · exact absurd hTo (Nat.not_lt.mpr hFinished)
  · rcases hSplit hOld with hOld | ⟨rfl, rfl⟩ <;> rcases hSplit hOld' with hOld' | ⟨rfl, rfl⟩
    · exact h.once t t' old old' hOld hOld' hSame hSameRound
    · exact absurd hSameRound (hFresh t old hOld hSame)
    · exact absurd hSameRound.symm (hFresh t' old' hOld' hSame.symm)
    · rfl
  · rw [hLog]
    exact List.mem_append_left _ (h.handed q old hq)

/-- A worker that has reserved no entry in the present round has no command of it on the
ring, taken or not. -/
theorem Ledger.fresh {ticket : Nat} {cmd : Submission} (h : Ledger c s) (hTenancy : Tenancy s)
    (hOpen : s.agg.pc.clearing = false) (hSlot : (s.workers p).pc.slot = some i)
    (hNone : (s.workers p).pc.reserved s.ctrl.barrier_done_epoch = false)
    (hCmd : s.ring.log[ticket]? = some cmd) (hSame : cmd.slot_id = i) :
    cmd.round ≠ s.ctrl.barrier_done_epoch := by
  intro hRound
  rcases Nat.lt_or_ge ticket s.agg.finished with hTo | hFrom
  · rcases h.past ticket cmd hTo hCmd with hLt | hClearing
    · exact absurd hRound hLt.ne
    · simp [hOpen] at hClearing
  · obtain ⟨q, hq, hReserved⟩ := h.backed ticket cmd hFrom hCmd
    rw [hSame] at hq
    obtain rfl := hTenancy.holder_unique hSlot hq
    simp [hNone] at hReserved

/-- One step of a `submit_slot_command` call. -/
theorem Ledger.submit {k e x : Nat} {b : Bool} {spc : SubmitPc} (h : Ledger c s)
    (hTenancy : Tenancy s) (hMarks : Marks s) (hRunning : Running c s)
    (hPc : (s.workers p).pc = .op i k (.submit e x spc)) :
    Ledger c { s.setPc p
        (.submitted i k e x (s.ring.submit Submission.layout (c.submission k i p e) b spc).2) with
      ring := (s.ring.submit Submission.layout (c.submission k i p e) b spc).1 } := by
  have hRound := hRunning.round
  have hSlot : (s.workers p).pc.slot = some i := by rw [hPc]; rfl
  have hActive := (hMarks.active hPc).2.1
  have hMoves : ∀ k' x', (s.workers p).pc ≠ .op i k' (.wait s.ctrl.barrier_done_epoch x') := by
    simp [hPc]
  have hOp := hRound.op p
  obtain ⟨filling, hConsistent, hFilling⟩ := hRunning.drain.ring
  have hSet := fun spc' => h.setPc (p := p) (.submitted i k e x spc')
  rw [hPc] at hOp hSet
  cases spc with
  | loadHead => exact { hSet (.checkFull s.ring.head) (by simp [WorkerPc.reserved])
      (by simp [WorkerPc.submitted, WorkerPc.handed]) with }
  | checkFull head =>
      simp only [CommandRing.submit]
      split
      · exact { hSet .full (by simp [WorkerPc.reserved])
          (by simp [WorkerPc.submitted, WorkerPc.handed]) with }
      · exact { hSet (.casHead head) (by simp [WorkerPc.reserved])
          (by simp [WorkerPc.submitted, WorkerPc.handed]) with }
  | casHead head =>
      simp only [CommandRing.submit]
      split
      next =>
        have hIn := hRound.in_step i p hActive hSlot
        rw [hPc] at hIn
        obtain ⟨rfl, -⟩ := hIn
        have hOpen := AggregatorPc.clearing_of_committed
          (hRound.not_committed hTenancy hActive hSlot hMoves)
        have hMoved := hSet (.write head s.ring.log.length 0) (by simp [WorkerPc.reserved])
          (by simp [WorkerPc.submitted, WorkerPc.handed])
        have hHolds : ((s.setPc p (.submitted i k s.ctrl.barrier_done_epoch x
            (.write head s.ring.log.length 0))).workers p).pc.slot =
            some (c.submission k i p s.ctrl.barrier_done_epoch).slot_id := by
          simp [WorkerPc.submitted, WorkerPc.slot, Config.submission]
        refine hMoved.append hHolds ?_ rfl (fun ticket old hOld hSame hSameRound => ?_) ?_ rfl
        · simp [WorkerPc.submitted, WorkerPc.reserved]
        · exact h.fresh hTenancy hOpen hSlot (by rw [hPc]; rfl) hOld hSame hSameRound
        · exact hConsistent.finished_le.trans hConsistent.taken_le
      next => exact { hSet .loadHead (by simp [WorkerPc.reserved])
          (by simp [WorkerPc.submitted, WorkerPc.handed]) with }
  | write index ticket written =>
      simp only [CommandRing.submit]
      split
      next =>
        exact { hSet (.write index ticket (written + 1)) (fun hReserved => ⟨hReserved, rfl⟩)
          (by simp [WorkerPc.submitted, WorkerPc.handed]) with }
      next =>
        refine { hSet .returned (fun hReserved => ⟨hReserved, rfl⟩) fun cmd hCmd => ?_ with }
        obtain rfl := Option.some.inj hCmd
        have hFills := hFilling p (hMarks.unharmed p).live
        rw [hPc] at hFills
        exact List.mem_of_getElem? (hConsistent.filled p _ hFills).2.1
  | returned => exact hOp.elim
  | full => exact { hSet .full (by simp [WorkerPc.reserved])
      (by simp [WorkerPc.submitted, WorkerPc.handed]) with }

theorem Ledger.worker {l : Label} (h : Ledger c s) (hTenancy : Tenancy s) (hMarks : Marks s)
    (hRunning : Running c s) (hOrderly : Orderly s l) (hMove : WorkerMove c s p l s') :
    Ledger c s' := by
  have hSet := h.setPc (p := p)
  cases hMove with
  | advance hMove => exact h.advance hRunning.quit hOrderly hMove
  | submit hPc => exact h.submit hTenancy hMarks hRunning hPc
  | @signal i k e x _ _ hPc =>
      have hHanded := h.handed p
      rw [hPc] at hSet hHanded
      exact { hSet (.op i k (.wait e x)) (fun hReserved => ⟨hReserved, rfl⟩) hHanded with }
  | @sample i k e x _ _ hPc hLast =>
      have hMoved := hSet (.tokenEnd i) (by simp [hPc, WorkerPc.reserved])
        (by simp [WorkerPc.handed])
      exact hMoved.withWorkers _ fun q => by by_cases hq : q = p <;> simp [hq]
  | @prepare i k e v _ hPc =>
      exact { hSet (.op i k (.submit e v .loadHead)) (by simp [hPc, WorkerPc.reserved])
        (by simp [WorkerPc.handed]) with }
  | claimThrew hPc _ | finish hPc _ =>
      exact { hSet .idle (by simp [hPc, WorkerPc.reserved]) (by simp [WorkerPc.handed]) with }
  | @claimReturned i _ _ hPc _ =>
      exact { hSet (.prepared i) (by simp [hPc, WorkerPc.reserved])
        (by simp [WorkerPc.handed]) with }
  | @join i _ _ hPc =>
      exact { hSet (.polling i) (by simp [hPc, WorkerPc.reserved])
        (by simp [WorkerPc.handed]) with }
  | @evicted i _ _ hPc _ =>
      exact { hSet (.leave i false) (by simp [hPc, WorkerPc.reserved])
        (by simp [WorkerPc.handed]) with }
  | @leave i f _ _ hPc =>
      exact { hSet (if f then .awaitLeave i else .release i false)
        (by simp [hPc, WorkerPc.reserved]) (by cases f <;> simp [WorkerPc.handed]) with }
  | @release i f _ _ hPc =>
      exact { hSet (.releasing i f) (by simp [hPc, WorkerPc.reserved])
        (by simp [WorkerPc.handed]) with }
  | @releaseThrew i f _ _ hPc _ =>
      exact { hSet (.released f) (by simp [hPc, WorkerPc.reserved])
        (by simp [WorkerPc.handed]) with }

/-- A connection thread moves only workers that have nothing on the ring. -/
theorem Ledger.call (h : Ledger c s) (hTenancy : Tenancy s) (hMarks : Marks s)
    (hMove : CallMove s p s') : Ledger c s' := by
  have hc := hTenancy.coherent p
  have hSet := h.setPc (p := p)
  cases hMove with
  | @own w i hCall =>
      rw [hCall] at hc
      have hPc : (s.workers p).pc = .claiming := hc.2
      exact { hSet (.claimed i) (by simp [hPc, WorkerPc.reserved])
        (by simp [WorkerPc.handed]) with }
  | @giveUp w i hCall _ =>
      rw [hCall] at hc
      obtain ⟨f, hPc⟩ := hc.2.2.resolve_left (by simp [(hMarks.unharmed p).live])
      exact { hSet (.released (s.workers p).pc.succeeded) (by simp [hPc, WorkerPc.reserved])
        (by simp [WorkerPc.handed]) with }
  | _ => exact { h with }

theorem Ledger.aggregate (h : Ledger c s) (hMarks : Marks s) (hRunning : Running c s)
    (hMove : AggregateMove c s timer sample s') : Ledger c s' := by
  have hFrame := hMove.frame
  have hPcs := hMove.worker_pc
  have hLog := hFrame.log
  have hOnce := h.once
  have hHanded := h.handed
  have hTurn := hRunning.turn hMove
  rw [← hLog] at hOnce hHanded
  refine ⟨fun ticket cmd hFrom hCmd => ?_, fun ticket cmd hCmd => ?_,
    fun ticket cmd hTo hCmd => ?_, hOnce, by simpa only [hPcs] using hHanded⟩ <;> rw [hLog] at hCmd
  · simp only [hPcs]
    cases hTurn with
    | goesOn hEpoch hFinished _ =>
        rw [hEpoch]
        exact h.backed ticket cmd (hFinished ▸ hFrom) hCmd
    | executes _ _ hEpoch hFinished =>
        obtain ⟨_, hConsistent, -⟩ := hRunning.drain.ring
        rw [hEpoch]
        exact h.backed ticket cmd (hConsistent.finished_le.trans (hFinished ▸ hFrom)) hCmd
    | publishes hPc _ _ hFinished =>
        -- every command of the round has been executed
        have hFrom := hFinished ▸ hFrom
        have hPhase := hRunning.round.phase
        simp only [Phase, hPc] at hPhase
        have hNone := hPhase.2.1 ticket cmd hFrom hCmd
        simp [h.active hMarks hFrom hCmd] at hNone
  · have hOld := h.rounds ticket cmd hCmd
    cases hTurn with
    | goesOn hEpoch _ _ | executes _ _ hEpoch _ => exact hEpoch ▸ hOld
    | publishes _ _ hEpoch _ => omega
  · cases hTurn with
    | goesOn hEpoch hFinished hClearing =>
        unfold State.executed
        rw [hEpoch, hClearing]
        exact h.past ticket cmd (hFinished ▸ hTo) hCmd
    | executes _ hPc' _ _ => exact .inr (by rw [hPc']; rfl)
    | publishes _ _ hEpoch _ =>
        have hOld := h.rounds ticket cmd hCmd
        exact .inl (by omega)

theorem Ledger.move {l : Label} (h : Ledger c s) (hTenancy : Tenancy s) (hMarks : Marks s)
    (hRunning : Running c s) (hOrderly : Orderly s l) (hMove : Move c s l s') : Ledger c s' := by
  cases hMove with
  | worker hLive hMove => exact h.worker hTenancy hMarks hRunning hOrderly hMove
  | call hMove => exact h.call hTenancy hMarks hMove
  | aggregate hMove => exact h.aggregate hMarks hRunning hMove
  | @request q _ _ w hPc hLive hWorker =>
      have hMoved := h.setPc (p := q) .claiming (by simp [hPc, WorkerPc.reserved])
        (by simp [WorkerPc.handed])
      have hCalled := hMoved.withWorkers (Function.update s.workers q w) fun r => by
        by_cases hrq : r = q <;> simp [hrq, hWorker]
      exact { hCalled with }
  | crash hLive => exact absurd hOrderly.unbroken (by simp [State.breaks])
  | @disconnect q i hCrashed _ _ _ => simp [(hMarks.unharmed q).live] at hCrashed
  | deferredRelease hSleeping => exact (hMarks.awake hTenancy _ _ hSleeping).elim

theorem Ledger.initial (h : Initial s) : Ledger c s := by
  have hPc : ∀ p, (s.workers p).pc = .idle := fun p => (h.workers p).1
  obtain ⟨-, -, -, hLog, -⟩ := h.ring
  refine ⟨?_, ?_, ?_, ?_, ?_⟩ <;> simp [hLog, hPc, WorkerPc.handed]

/-- A worker whose ready bit is set waits in the present round, and the bit of a worker
that waits stays set until its command has been executed. -/
structure Raised (s : State) : Prop where
  active : ∀ i, s.ctrl.per_slot_ready_mask.test_bit i = true →
    s.agg.active_mask.test_bit i = true
  kept : s.agg.pc.clearing = false → ∀ p i k x,
    (s.workers p).pc = .op i k (.wait s.ctrl.barrier_done_epoch x) →
    s.ctrl.per_slot_ready_mask.test_bit i = true

/-- No worker begins to wait. -/
theorem setPc_waits {pc : WorkerPc} (hNot : ∀ i k e x, pc ≠ .op i k (.wait e x)) :
    ∀ q i k e x, ((s.setPc p pc).workers q).pc = .op i k (.wait e x) →
      (s.workers q).pc = .op i k (.wait e x) := by
  intro q i k e x hq
  rw [State.setPc_pc] at hq
  split at hq
  next => exact absurd hq (hNot i k e x)
  next => exact hq

/-- A worker begins to wait only when it sets its ready bit. -/
theorem WorkerMove.waits {l : Label} (hMove : WorkerMove c s p l s') :
    (s'.ctrl.per_slot_ready_mask = s.ctrl.per_slot_ready_mask ∧
      ∀ q i k e x, (s'.workers q).pc = .op i k (.wait e x) →
        (s.workers q).pc = .op i k (.wait e x)) ∨
    ∃ i k e x, (s.workers p).pc = .op i k (.signal e x) ∧
      s' = { s.setPc p (.op i k (.wait e x)) with ctrl := s.ctrl.slot_signal_ready i } := by
  cases hMove with
  | @signal i k e x _ _ hPc => exact .inr ⟨i, k, e, x, hPc, rfl⟩
  | @advance l pc' hMove =>
      refine .inl ⟨rfl, setPc_waits fun i k e x hNew => ?_⟩
      generalize (s.workers p).pc = old at hMove
      cases hMove <;> simp at hNew
  | @submit i k e x spc _ b hPc =>
      refine .inl ⟨rfl, setPc_waits fun j k' e' x' hNew => ?_⟩
      revert hNew
      cases (s.ring.submit Submission.layout (c.submission k i p e) b spc).2 <;>
        simp [WorkerPc.submitted]
  | @sample i k e x _ _ hPc hLast =>
      refine .inl ⟨rfl, fun q j k' e' x' hq => ?_⟩
      by_cases hqp : q = p
      · subst hqp
        simp at hq
      · simpa [hqp] using hq
  | @leave i f _ _ hPc => exact .inl ⟨rfl, setPc_waits (by cases f <;> simp)⟩
  | claimThrew _ _ | claimReturned _ _ | join _ | evicted _ _ | prepare _ | release _
  | releaseThrew _ _ | finish _ _ => exact .inl ⟨rfl, setPc_waits (by simp)⟩

theorem Raised.of_same (h : Raised s) (hAgg : s'.agg = s.agg)
    (hEpoch : s'.ctrl.barrier_done_epoch = s.ctrl.barrier_done_epoch)
    (hReady : s'.ctrl.per_slot_ready_mask = s.ctrl.per_slot_ready_mask)
    (hWaits : ∀ q i k e x, (s'.workers q).pc = .op i k (.wait e x) →
      (s.workers q).pc = .op i k (.wait e x)) : Raised s' := by
  refine ⟨?_, ?_⟩
  · rw [hAgg, hReady]
    exact h.active
  · rw [hAgg, hReady, hEpoch]
    exact fun hOpen q i k x hq => h.kept hOpen q i k x (hWaits q i k _ x hq)

theorem Raised.worker {l : Label} (h : Raised s) (hMarks : Marks s)
    (hMove : WorkerMove c s p l s') (hAgg : s'.agg = s.agg)
    (hEpoch : s'.ctrl.barrier_done_epoch = s.ctrl.barrier_done_epoch) : Raised s' := by
  rcases hMove.waits with ⟨hReady, hWaits⟩ | ⟨i, k, e, x, hPc, rfl⟩
  · exact h.of_same hAgg hEpoch hReady hWaits
  · have hBits : ∀ j, (s.ctrl.slot_signal_ready i).per_slot_ready_mask.test_bit j = true ↔
        j = i ∨ s.ctrl.per_slot_ready_mask.test_bit j = true := by
      intro j
      simp [ControlBlock.slot_signal_ready]
    refine ⟨fun j hj => ?_, fun hOpen q j k' x' hq => ?_⟩
    · rcases (hBits j).mp hj with rfl | hOld
      · exact (hMarks.active hPc).2.1
      · exact h.active j hOld
    · refine (hBits j).mpr ?_
      rw [State.setPc_pc] at hq
      split at hq
      next => exact .inl (by simp only [WorkerPc.op.injEq] at hq; exact hq.1.symm)
      next => exact .inr (h.kept hOpen q j k' x' hq)

/-- The bit that a connection thread clears is of a slot whose worker has not joined. -/
theorem Raised.call (h : Raised s) (hTenancy : Tenancy s) (hMove : CallMove s p s') :
    Raised s' := by
  have hc := hTenancy.coherent p
  cases hMove with
  | own hCall => exact h.of_same rfl rfl rfl (setPc_waits (by simp))
  | giveUp hCall _ => exact h.of_same rfl rfl rfl (setPc_waits (by simp))
  | @scrubReady w i k hCall =>
      rw [hCall] at hc
      have hPc : (s.workers p).pc = .claimed i := hc.2
      refine ⟨fun j hj => h.active j ?_, fun hOpen q j k' x hq => ?_⟩
      · simp only [claim_slot_scrub, SlotMask.test_bit_andWord] at hj
        split at hj <;> simp_all
      · have hji : j ≠ i := by
          rintro rfl
          have hq : (s.workers q).pc = .op j k' (.wait s.ctrl.barrier_done_epoch x) := hq
          obtain rfl := hTenancy.holder_unique (i := j) (p := p) (q := q) (by rw [hPc]; rfl)
            (by rw [hq]; rfl)
          simp [hPc] at hq
        have hOld := h.kept hOpen q j k' x hq
        simp only [claim_slot_scrub, SlotMask.test_bit_andWord, SlotMask.test_bit_not,
          SlotMask.test_bit_from_bit, hOld, hji]
        simp
  | search _ _ | scrubEvicted _ | refuse _ _ | free _ | cleanUp _ =>
      exact h.of_same rfl rfl rfl fun _ _ _ _ _ hq => hq

/-- The main loop clears ready bits only while it closes a round. -/
theorem AggregateMove.ready (hMove : AggregateMove c s timer sample s') :
    s'.ctrl.per_slot_ready_mask = s.ctrl.per_slot_ready_mask ∨
    (s.agg.pc.clearing = true ∧ ∀ i, s'.ctrl.per_slot_ready_mask.test_bit i = true →
      s.ctrl.per_slot_ready_mask.test_bit i = true) := by
  cases hMove with
  | @clearReady k hPc =>
      refine .inr ⟨by rw [hPc]; rfl, fun i hi => ?_⟩
      simp only [SlotMask.test_bit_andWord] at hi
      split at hi <;> simp_all
  | _ => exact .inl rfl

/-- The worker of an active slot whose ready bit is set is within an operation. -/
theorem Raised.op (h : Raised s) (hMarks : Marks s) (hRound : Round c s)
    (hi : s.ctrl.per_slot_ready_mask.test_bit i = true) :
    ∃ q k stage, (s.workers q).pc = .op i k stage := by
  have hActive := h.active i hi
  cases hClearing : s.agg.pc.clearing with
  | false =>
      obtain ⟨q, k, x, hq⟩ := hRound.ready hClearing i hActive hi
      exact ⟨q, k, _, hq⟩
  | true =>
      have hCommitted : s.agg.pc.committed = true := by
        revert hClearing
        cases s.agg.pc <;> simp [AggregatorPc.clearing, AggregatorPc.committed]
      obtain ⟨q, hq⟩ : ∃ q, (s.workers q).pc.slot = some i := by
        by_contra hNobody
        push Not at hNobody
        have hFree := (hMarks.free i hNobody).2.1
        simp [hActive] at hFree
      rcases hRound.phase.committed hCommitted with ⟨-, hOpen⟩ | ⟨hWaiting, -⟩
      · simp [hClearing] at hOpen
      · obtain ⟨k, x, hWait⟩ := hWaiting i q hActive hq
        exact ⟨q, k, _, hWait⟩

theorem Raised.aggregate (h : Raised s) (hLocals : Locals s) (hMarks : Marks s)
    (hRunning : Running c s) (hOrderly : Orderly s (.aggregate timer sample))
    (hMove : AggregateMove c s timer sample s') : Raised s' := by
  have hRound := hRunning.round
  have hPcs := hMove.worker_pc
  have hReady := hMove.ready
  refine ⟨fun i hi => ?_, fun hOpen q i k x hq => ?_⟩
  · have hOld : s.ctrl.per_slot_ready_mask.test_bit i = true := by
      rcases hReady with hSame | ⟨-, hShrinks⟩
      · rwa [hSame] at hi
      · exact hShrinks i hi
    obtain ⟨q, k, stage, hPc⟩ := h.op hMarks hRound hOld
    exact hMove.stays hLocals hOrderly.unevicted (h.active i hOld) (hMarks.active hPc).2.2
  · rw [hPcs] at hq
    cases hRunning.turn hMove with
    | goesOn hEpoch _ hClearing =>
        rw [hClearing] at hOpen
        rw [hEpoch] at hq
        rcases hReady with hSame | ⟨hClosing, -⟩
        · rw [hSame]
          exact h.kept hOpen q i k x hq
        · simp [hOpen] at hClosing
    | executes _ hPc' _ _ => simp [hPc', AggregatorPc.clearing] at hOpen
    | publishes _ _ hEpoch _ =>
        -- nobody has captured the epoch that has just begun
        have hIn := hRound.in_step i q (hMarks.active hq).2.1 (by rw [hq]; rfl)
        rw [hq, hEpoch] at hIn
        simp only [WorkerPc.InStep] at hIn
        omega

theorem Raised.move {l : Label} (h : Raised s) (hTenancy : Tenancy s) (hLocals : Locals s)
    (hMarks : Marks s) (hRunning : Running c s) (hOrderly : Orderly s l) (hMove : Move c s l s') :
    Raised s' := by
  cases hMove with
  | worker hLive hMove =>
      refine h.worker hMarks hMove ?_ ?_ <;> cases hMove <;> rfl
  | call hMove => exact h.call hTenancy hMove
  | aggregate hMove => exact h.aggregate hLocals hMarks hRunning hOrderly hMove
  | @request q _ _ w hPc hLive hWorker =>
      refine h.of_same rfl rfl rfl fun r j k e x hr => ?_
      by_cases hrq : r = q
      · subst hrq
        simp [hWorker] at hr
      · simpa [hrq] using hr
  | crash hLive => exact absurd hOrderly.unbroken (by simp [State.breaks])
  | @disconnect q i hCrashed _ _ _ => simp [(hMarks.unharmed q).live] at hCrashed
  | deferredRelease hSleeping => exact (hMarks.awake hTenancy _ _ hSleeping).elim

theorem Raised.initial (h : Initial s) : Raised s := by
  have hPc : ∀ p, (s.workers p).pc = .idle := fun p => (h.workers p).1
  refine ⟨fun i hi => ?_, by simp [hPc]⟩
  rw [h.ctrl] at hi
  have hi : SlotMask.zero.test_bit i = true := hi
  simp at hi

end Barrier
