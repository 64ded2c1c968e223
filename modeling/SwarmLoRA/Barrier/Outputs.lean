import SwarmLoRA.Barrier.Batch

namespace Barrier

open Ipc Aggregator Machine

/-- The input that the worker has written for its present operation. -/
def WorkerPc.operand : WorkerPc → Option Nat
  | .op _ _ (.submit _ x _) | .op _ _ (.signal _ x) | .op _ _ (.wait _ x) | .op _ _ (.fetch _ x) =>
      some x
  | _ => none

/-- The round that the worker has waited for, or is waiting for, with the operation and
its input. -/
def WorkerPc.awaited : WorkerPc → Option (Nat × Nat × Nat)
  | .op _ k (.wait e x) | .op _ k (.fetch e x) => some (k, e, x)
  | _ => none

/-- The output of the operation with this index on the input `x` in round `e`. -/
def Config.result (c : Config) (k x e token : Nat) : Output :=
  ⟨(c.opAt k).1, (c.opAt k).2, x, e, token⟩

/-- The main loop gives up on a command that has not been marked ready, and quits. -/
def State.spinsOut (s : State) : Label → Bool
  | .aggregate timerExpired _ =>
      timerExpired && decide (s.agg.pc = .spin) && !(s.ring.entries s.agg.tail).ready
  | _ => false

/-- The round of epoch `e` has been executed. -/
def State.executed (s : State) (e : Nat) : Prop :=
  e < s.ctrl.barrier_done_epoch ∨ s.agg.pc.clearing = true

structure Produced (c : Config) (s : State) : Prop where
  input : ∀ p i x, (s.workers p).pc.slot = some i → (s.workers p).pc.operand = some x →
    s.input i = x
  output : ∀ p i k e x, s.agg.active_mask.test_bit i = true →
    (s.workers p).pc.slot = some i → (s.workers p).pc.awaited = some (k, e, x) →
    s.executed e → ∃ token, s.output i = c.result k x e token

variable {c : Config} {s s' : State} {p : Nat} {i : Slot} {timer : Bool} {sample : Slot → Nat}

/-- A worker moves on to another position, with no new operand and no new round to wait
for unless the output is there. -/
theorem Produced.setPc (h : Produced c s) (pc : WorkerPc)
    (hInput : ∀ i x, pc.slot = some i → pc.operand = some x → s.input i = x)
    (hOutput : ∀ i k e x, s.agg.active_mask.test_bit i = true → pc.slot = some i →
      pc.awaited = some (k, e, x) → s.executed e → ∃ token, s.output i = c.result k x e token) :
    Produced c (s.setPc p pc) := by
  refine ⟨fun q i x hq hx => ?_, fun q i k e x hA hq hx hDone => ?_⟩
  · rw [State.setPc_pc] at hq hx
    split at hq
    next hqp =>
      rw [if_pos hqp] at hx
      exact hInput i x hq hx
    next hqp =>
      rw [if_neg hqp] at hx
      exact h.input q i x hq hx
  · rw [State.setPc_pc] at hq hx
    split at hq
    next hqp =>
      rw [if_pos hqp] at hx
      exact hOutput i k e x hA hq hx hDone
    next hqp =>
      rw [if_neg hqp] at hx
      exact h.output q i k e x hA hq hx hDone

theorem Produced.withWorkers (h : Produced c s) (workers : Nat → Worker)
    (hPc : ∀ q, (workers q).pc = (s.workers q).pc) : Produced c { s with workers } := by
  refine ⟨fun q i x hq hx => ?_, fun q i k e x hA hq hx hDone => ?_⟩
  · rw [hPc] at hq hx
    exact h.input q i x hq hx
  · rw [hPc] at hq hx
    exact h.output q i k e x hA hq hx hDone

theorem Produced.worker {l : Label} (h : Produced c s) (hTenancy : Tenancy s) (hRound : Round c s)
    (hMove : WorkerMove c s p l s') : Produced c s' := by
  -- most moves lead to a position without an operand
  have hStill : ∀ pc : WorkerPc, pc.operand = none → pc.awaited = none →
      Produced c (s.setPc p pc) := fun pc hNone hNone' =>
    h.setPc pc (by simp [hNone]) (by simp [hNone'])
  cases hMove with
  | @advance l pc' hMove =>
      have hOld := h.output p
      have hOldInput := h.input p
      generalize (s.workers p).pc = old at hMove hOld hOldInput
      cases hMove with
      | @published i k e x v b hEpoch =>
          refine h.setPc _ (fun j y hj hy => hOldInput j y hj hy) fun j k' e' x' hA hj hx hDone => ?_
          exact hOld j k' e' x' hA hj hx hDone
      | _ => exact hStill _ rfl rfl
  | @prepare i k e v _ hPc =>
      have hSlot : (s.workers p).pc.slot = some i := by rw [hPc]; rfl
      refine ⟨fun q j x hq hx => ?_, fun q j k' e' x hA hq hx hDone => ?_⟩
      · by_cases hqp : q = p
        · subst hqp
          simp only [State.setPc_pc, if_pos, WorkerPc.slot, WorkerPc.operand,
            Option.some.injEq] at hq hx
          rw [← hq, ← hx]
          exact Function.update_self ..
        · simp only [State.setPc_pc, if_neg hqp] at hq hx
          have hji : j ≠ i := by
            rintro rfl
            exact hqp (hTenancy.holder_unique hq hSlot)
          exact (Function.update_of_ne hji _ _).trans (h.input q j x hq hx)
      · by_cases hqp : q = p
        · subst hqp
          simp [WorkerPc.awaited] at hx
        · simp only [State.setPc_pc, if_neg hqp] at hq hx
          exact h.output q j k' e' x hA hq hx hDone
  | @submit i k e x spc _ b hPc =>
      have hMoved := h.setPc (p := p)
        (.submitted i k e x (s.ring.submit Submission.layout (c.submission k i p e) b spc).2)
        (fun j y hj hy => ?_) (fun j k' e' y _ _ hy => ?_)
      · exact { hMoved with }
      · refine h.input p j y ?_ ?_ <;> rw [hPc]
        · rwa [WorkerPc.submitted_slot] at hj
        · revert hy
          cases (s.ring.submit Submission.layout (c.submission k i p e) b spc).2 <;>
            simp [WorkerPc.submitted, WorkerPc.operand]
      · revert hy
        cases (s.ring.submit Submission.layout (c.submission k i p e) b spc).2 <;>
          simp [WorkerPc.submitted, WorkerPc.awaited]
  | @signal i k e x _ _ hPc =>
      have hMoved := h.setPc (p := p) (.op i k (.wait e x)) (fun j y hj hy => ?_)
        (fun j k' e' y hA hj hy hDone => ?_)
      · exact { hMoved with }
      · exact h.input p j y (by rw [hPc]; exact hj) (by rw [hPc]; exact hy)
      · -- the round that it begins to wait for has not been executed
        have hSlot : (s.workers p).pc.slot = some j := by rw [hPc]; exact hj
        have hIn := hRound.in_step j p hA hSlot
        rw [hPc] at hIn
        have hOpen := AggregatorPc.clearing_of_committed
          (hRound.not_committed hTenancy hA hSlot (by simp [hPc]))
        simp only [WorkerPc.awaited, Option.some.injEq, Prod.mk.injEq] at hy
        rcases hDone with hLt | hClearing
        · have := hIn.1
          omega
        · simp [hOpen] at hClearing
  | @sample i k e x _ _ hPc hLast =>
      have hMoved := hStill (.tokenEnd i) rfl rfl
      exact hMoved.withWorkers _ fun q => by by_cases hq : q = p <;> simp [hq]
  | claimThrew hPc _ => exact { hStill .idle rfl rfl with }
  | @claimReturned i _ _ hPc _ => exact { hStill (.prepared i) rfl rfl with }
  | @join i _ _ hPc => exact { hStill (.polling i) rfl rfl with }
  | @evicted i _ _ hPc _ => exact { hStill (.leave i false) rfl rfl with }
  | @leave i f _ _ hPc =>
      exact { hStill (if f then .awaitLeave i else .release i false) (by cases f <;> rfl)
        (by cases f <;> rfl) with }
  | @release i f _ _ hPc => exact { hStill (.releasing i f) rfl rfl with }
  | @releaseThrew i f _ _ hPc _ => exact { hStill (.released f) rfl rfl with }
  | finish hPc _ => exact { hStill .idle rfl rfl with }

theorem Produced.call (h : Produced c s) (hTenancy : Tenancy s) (hMove : CallMove s p s') :
    Produced c s' := by
  have hc := hTenancy.coherent p
  have hStill : ∀ pc : WorkerPc, pc.operand = none → pc.awaited = none →
      Produced c (s.setPc p pc) := fun pc hNone hNone' =>
    h.setPc pc (by simp [hNone]) (by simp [hNone'])
  cases hMove with
  | @own w i hCall => exact { hStill (.claimed i) rfl rfl with }
  | @giveUp w i hCall hOwner =>
      rw [hCall] at hc
      have hMoved := hStill (.released (s.workers p).pc.succeeded) rfl rfl
      -- nobody else has the slot whose buffers are zeroed
      have hOther : ∀ {q j}, ((s.setPc p (.released (s.workers p).pc.succeeded)).workers q).pc.slot =
          some j → j ≠ i := by
        rintro q j hq rfl
        rw [State.setPc_pc] at hq
        split at hq
        next => simp [WorkerPc.slot] at hq
        next hqp => exact hqp (hTenancy.holder_unique hq hc.2.1)
      refine ⟨fun q j x hq hx => ?_, fun q j k e x hA hq hx hDone => ?_⟩
      · simp only [Function.update_of_ne (hOther hq)]
        exact hMoved.input q j x hq hx
      · simp only [Function.update_of_ne (hOther hq)]
        exact hMoved.output q j k e x hA hq hx hDone
  | _ => exact { h with }

/-- The main loop leaves the outputs alone and begins no new round. -/
theorem Produced.of_same (h : Produced c s) (hTenancy : Tenancy s)
    (hMove : AggregateMove c s timer sample s') (hOutput : s'.output = s.output)
    (hDone : ∀ e, s'.executed e → s.executed e) : Produced c s' := by
  have hFrame := hMove.frame
  have hPcs := hMove.worker_pc
  refine ⟨fun q i x hq hx => ?_, fun q i k e x hA hq hx hExecuted => ?_⟩
  · rw [hPcs] at hq hx
    rw [hFrame.input]
    exact h.input q i x hq hx
  · rw [hPcs] at hq hx
    rw [hOutput]
    rcases hMove.active i with hSame | ⟨-, hPending⟩ | ⟨hGone, -⟩
    · exact h.output q i k e x (by rw [← hSame, hA]) hq hx (hDone e hExecuted)
    · have hJoining := hTenancy.joining i q hPending hq
      revert hx hJoining
      cases (s.workers q).pc <;> simp [WorkerPc.awaited, WorkerPc.joining]
    · simp [hGone] at hA

/-- The batch computes the outputs of the round. -/
theorem Produced.execute (h : Produced c s) (hTenancy : Tenancy s) (hRunning : Running c s)
    (hPc : s.agg.pc = .execute) :
    Produced c { s with
      agg := { s.agg with pc := .loadActive 0, finished := s.agg.taken }
      output := s.computed sample } := by
  have hRound := hRunning.round
  have hPhase := hRound.phase
  simp only [Phase, hPc] at hPhase
  have hWaiting := hRound.waiting hTenancy (by rw [hPc]; rfl) hPhase.1
  have hIntact := hRound.batchIntact hTenancy hRunning.drain hPc
  refine ⟨h.input, fun q i k e x hA hq hx hDone => ?_⟩
  obtain ⟨k', x', hWait⟩ := hWaiting i q hA hq
  have hIn := hRound.in_step i q hA hq
  have hInput := h.input q i x' hq
  change (s.workers q).pc.awaited = _ at hx
  rw [hWait] at hx hIn hInput
  obtain ⟨rfl, rfl, rfl⟩ : k' = k ∧ s.ctrl.barrier_done_epoch = e ∧ x' = x := by
    simpa [WorkerPc.awaited] using hx
  have hDue : s.agg.op_idx = k' := by
    have hDue : s.agg.due = s.agg.op_idx := by
      simp [AggregatorState.due, hPc, AggregatorPc.boundary]
    rcases hIn with ⟨-, hk⟩ | ⟨hLt, -⟩
    · rw [← hDue, hk]
    · omega
  obtain ⟨cmd, hCmd, hSlot⟩ := (hIntact.covers i).mp hA
  refine ⟨sample i, ?_⟩
  change s.computed sample i = _
  rw [State.computed]
  cases hHead : s.batch.head? with
  | none =>
      rw [List.head?_eq_none_iff] at hHead
      simp [hHead] at hCmd
  | some first =>
      obtain ⟨-, r, -, -, -, hFirst⟩ := hRound.batch hRunning.drain hPc (List.mem_of_mem_head? hHead)
      have hAny : (s.batch.any fun cmd => cmd.slot_id == i) = true :=
        List.any_eq_true.mpr ⟨cmd, hCmd, by simp [hSlot]⟩
      simp only [hAny, if_true]
      rw [hFirst, hInput rfl, hDue]
      rfl

theorem Produced.aggregate (h : Produced c s) (hTenancy : Tenancy s) (hRunning : Running c s)
    (hMove : AggregateMove c s timer sample s') (hStill : s'.ctrl.quit_flag = false) :
    Produced c s' := by
  have hWord : ∀ k : Fin 2, k = 0 ∨ k = 1 := by decide
  have hQuit := hRunning.quit
  have hSame := h.of_same hTenancy hMove
  cases hMove with
  | execute hPc _ => exact h.execute hTenancy hRunning hPc
  | tick hTick =>
      refine hSame rfl fun e hDone => hDone.imp id fun hClearing => ?_
      generalize s.agg.pc = old at hTick
      cases hTick <;> first | rfl | simp [AggregatorPc.clearing] at hClearing
  | @clearReady k hPc =>
      exact hSame rfl fun e hDone => .inr (by rw [hPc]; rfl)
  | advanceEpoch hPc _ =>
      exact hSame rfl fun e hDone => .inr (by rw [hPc]; rfl)
  | advanceBreaking hPc _ =>
      exact hSame rfl fun e hDone => .inr (by rw [hPc]; rfl)
  | droppedQuit hPc hSet | decideQuit hPc hSet => simp [hQuit] at hSet
  | spinTimeout hPc _ _ => simp at hStill
  | droppedEmpty hPc _ hNone =>
      exact absurd hNone (hRunning.round.commands_ne_nil hRunning.drain hRunning.counts hPc)
  | @clearMidLeaves k hPc | @storeEvicted k hPc =>
      refine hSame rfl fun e hDone => hDone.imp id fun hClearing => ?_
      rcases hWord k with rfl | rfl <;> simp [AggregatorPc.clearing] at hClearing
  | @storeMidLeaves k hPc =>
      refine hSame rfl fun e hDone => hDone.imp id fun hClearing => ?_
      dsimp only at hClearing
      split at hClearing <;> (try split at hClearing) <;> simp [AggregatorPc.clearing] at hClearing
  | fetch hPc _ =>
      refine hSame rfl fun e hDone => hDone.imp id fun hClearing => ?_
      rcases drainNext_cases (s.agg.beginDrain s.ring) with hNext | hNext <;>
        simp [hNext, AggregatorPc.clearing] at hClearing
  | take hPc =>
      refine hSame rfl fun e hDone => hDone.imp id fun hClearing => ?_
      rcases drainNext_cases (s.agg.takeEntry s.ring) with hNext | hNext <;>
        simp [hNext, AggregatorPc.clearing] at hClearing
  | _ => exact hSame rfl fun e hDone => hDone.imp id (by simp [AggregatorPc.clearing])

theorem Produced.move {l : Label} (h : Produced c s) (hTenancy : Tenancy s)
    (hRunning : Running c s) (hMove : Move c s l s') (hStill : s'.ctrl.quit_flag = false) :
    Produced c s' := by
  have hUpdate : ∀ q w, w.pc = (s.workers q).pc →
      Produced c { s with workers := Function.update s.workers q w } := fun q w hPc =>
    h.withWorkers _ fun r => by by_cases hrq : r = q <;> simp [hrq, hPc]
  cases hMove with
  | worker hLive hMove => exact h.worker hTenancy hRunning.round hMove
  | call hMove => exact h.call hTenancy hMove
  | aggregate hMove => exact h.aggregate hTenancy hRunning hMove hStill
  | @request q _ _ w hPc hLive hWorker =>
      have hMoved := h.setPc (p := q) .claiming (by simp [WorkerPc.slot]) (by simp [WorkerPc.slot])
      have hCalled := hMoved.withWorkers (Function.update s.workers q w) fun r => by
        by_cases hrq : r = q <;> simp [hrq, hWorker]
      exact { hCalled with }
  | @crash q hLive => exact hUpdate q { s.workers q with crashed := true } rfl
  | @disconnect q i _ _ _ _ =>
      have hMoved := hUpdate q { s.workers q with handler := .sleeping i } rfl
      exact { hMoved with }
  | @deferredRelease q i _ =>
      have hMoved := hUpdate q { s.workers q with handler := .done } rfl
      exact { hMoved with }

theorem Produced.initial (h : Initial s) : Produced c s := by
  have hPc : ∀ p, (s.workers p).pc = .idle := fun p => (h.workers p).1
  refine ⟨?_, ?_⟩ <;> simp [hPc, WorkerPc.slot]

/-- Without the spin limit the main loop never quits. -/
theorem Running.stays {l : Label} (h : Running c s) (hTenancy : Tenancy s) (hMove : Move c s l s')
    (hGuard : Undisturbed s l) (hSpins : s.spinsOut l = false) : Running c s' := by
  rcases h.move hTenancy hMove hGuard with hRunning | hStopping
  · exact hRunning
  · have hOff := h.quit
    have hQuit := hStopping.quit
    rcases hMove.others with ⟨-, hSame, -⟩ | ⟨_, _, rfl, hAggregate⟩
    · simp [hSame, hOff] at hQuit
    · cases hAggregate with
      | spinTimeout hPc hTimer hEntry => simp [State.spinsOut, hPc, hTimer, hEntry] at hSpins
      | _ => simp [hOff] at hQuit

theorem produced_of_reach {guard : State → Label → Prop}
    (hGuard : ∀ s l, guard s l → Undisturbed s l ∧ s.spinsOut l = false)
    (run : (machine c).Reach guard s) : Running c s ∧ Produced c s :=
  run.invariant_of_reach (fun s => Running c s ∧ Produced c s) (fun _ h => ⟨.initial h, .initial h⟩)
    fun _ _ _ prior h hMeets hStep => by
      have hTenancy := tenancy_of_reach (fun s l hs => (hGuard s l hs).1.claimed) prior
      have hMove := move_of_step hStep
      have hRunning := h.1.stays hTenancy hMove (hGuard _ _ hMeets).1 (hGuard _ _ hMeets).2
      exact ⟨hRunning, h.2.move hTenancy h.1 hMove hRunning.quit⟩

end Barrier
