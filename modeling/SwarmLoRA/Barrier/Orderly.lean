import SwarmLoRA.Barrier.Evicted

/-! Runs without evictions, crashes and timeouts, in which a slot is given back only when its
leave has been acknowledged. In such a run the masks tell at any time where the worker of a slot
stands. -/
namespace Barrier

open Ipc Aggregator Machine

namespace State

/-- The step is a crash, a timeout, or an exception elsewhere than between two tokens
or before the join. -/
def breaks (s : State) : Label → Bool
  | .crash _ | .timeout _ => true
  | .fail p =>
      match (s.workers p).pc with
      | .prepared _ | .tokenStart _ | .tokenEnd _ => false
      | _ => true
  | _ => false

/-- The slot that the worker begins to give back. -/
def givesBack (s : State) : Label → Option Slot
  | .work p _ _ =>
      match (s.workers p).pc with
      | .release i _ => some i
      | _ => none
  | _ => none

/-- The main loop is about to clear the leave bit of the slot that it has removed. -/
def leaveCleared (s : State) (i : Slot) : Prop :=
  ∃ k, s.agg.pc = .clearMidLeaves k ∧ s.agg.stuck.test_bit i = true ∧ (k = 1 → wordIndex i = 1)

end State

/-- The condition on a step: no crash, no timeout, no eviction, no exception within a
token, every leave acknowledged before its slot is given back, and a ring with more
entries than there are slots. -/
structure Orderly (s : State) (l : Label) : Prop where
  unbroken : s.breaks l = false
  unevicted : ∀ i, (s.evicts l).test_bit i = false
  patient : s.spinsOut l = false
  acknowledged : ∀ i ∈ s.givesBack l, s.ctrl.slot_is_active i = false
  room : s.pool.num_slots < s.ring.capacity

/-- What the masks say of a slot fits the position of its worker. A worker without the
slot, or one that has not joined or has left, finds no mark of it. -/
def WorkerPc.Fits (s : State) (i : Slot) : WorkerPc → Prop
  | .polling _ => s.leavePending i = false
  | .tokenStart _ | .op _ _ _ | .tokenEnd _ | .leave _ _ =>
      s.joinPending i = false ∧ s.agg.active_mask.test_bit i = true ∧
        s.ctrl.active_slot_mask.test_bit i = true ∧ s.leavePending i = false
  | .awaitLeave _ | .release _ _ =>
      s.joinPending i = false ∧
        (s.agg.active_mask.test_bit i = true →
          s.ctrl.active_slot_mask.test_bit i = true ∧ s.leavePending i = true) ∧
        (s.leavePending i = true → s.agg.active_mask.test_bit i = true ∨ s.leaveCleared i) ∧
        (s.ctrl.active_slot_mask.test_bit i = false →
          s.agg.active_mask.test_bit i = false ∧ s.leavePending i = false)
  | _ =>
      s.joinPending i = false ∧ s.agg.active_mask.test_bit i = false ∧
        s.ctrl.active_slot_mask.test_bit i = false ∧ s.leavePending i = false

/-- The worker has not crashed, and its present request has not been evicted. -/
structure Worker.Unharmed (w : Worker) : Prop where
  live : w.crashed = false
  kept : w.pc ≠ .idle → w.evicted = false

structure Marks (s : State) : Prop where
  unharmed : ∀ p, (s.workers p).Unharmed
  once : ∀ i, s.agg.leaves.test_bit i = true → s.ctrl.pending_slot_leaves.test_bit i = false
  fits : ∀ i p, (s.workers p).pc.slot = some i → (s.workers p).pc.Fits s i
  free : ∀ i, (∀ p, (s.workers p).pc.slot ≠ some i) → WorkerPc.idle.Fits s i

variable {c : Config} {s s' : State} {p : Nat} {i : Slot} {timer : Bool} {sample : Slot → Nat}

/-- The masks that the positions of the workers are compared with. -/
structure SameMarks (s s' : State) (i : Slot) : Prop where
  joins : s'.joinPending i = s.joinPending i
  active : s'.agg.active_mask.test_bit i = s.agg.active_mask.test_bit i
  shown : s'.ctrl.active_slot_mask.test_bit i = s.ctrl.active_slot_mask.test_bit i
  leaves : s'.leavePending i = s.leavePending i
  cleared : s.leaveCleared i → s'.leaveCleared i

theorem WorkerPc.Fits.same {pc : WorkerPc} (h : pc.Fits s i) (hSame : SameMarks s s' i) :
    pc.Fits s' i := by
  obtain ⟨hJoins, hActive, hShown, hLeaves, hCleared⟩ := hSame
  cases pc with
  | awaitLeave _ | release _ _ =>
      simp only [WorkerPc.Fits, hJoins, hActive, hShown, hLeaves] at h ⊢
      exact ⟨h.1, h.2.1, fun hi => (h.2.2.1 hi).imp id hCleared, h.2.2.2⟩
  | _ =>
      simp only [WorkerPc.Fits, hJoins, hActive, hShown, hLeaves] at h ⊢
      exact h

/-- A worker moves on with the slot it has, and no mark of another slot changes. -/
theorem Marks.of_worker (h : Marks s) (hTenancy : Tenancy s) (pc : WorkerPc)
    (hPc : (s'.workers p).pc = pc)
    (hOthers : ∀ q, q ≠ p → (s'.workers q).pc = (s.workers q).pc)
    (hUnharmed : ∀ q, (s'.workers q).Unharmed)
    (hSlot : pc.slot = (s.workers p).pc.slot)
    (hOnce : ∀ i, s'.agg.leaves.test_bit i = true → s'.ctrl.pending_slot_leaves.test_bit i = false)
    (hSame : ∀ i, (s.workers p).pc.slot ≠ some i → SameMarks s s' i)
    (hFits : ∀ i, (s.workers p).pc.slot = some i → pc.Fits s' i) : Marks s' := by
  rw [← hPc] at hSlot hFits
  refine ⟨hUnharmed, hOnce, fun i q hq => ?_, fun i hFree => ?_⟩
  · by_cases hqp : q = p
    · rw [hqp] at hq ⊢
      exact hFits i (hSlot ▸ hq)
    · rw [hOthers q hqp] at hq ⊢
      refine (h.fits i q hq).same (hSame i fun hp => ?_)
      exact hqp (hTenancy.holder_unique hq hp)
  · have hNot : (s.workers p).pc.slot ≠ some i := hSlot ▸ hFree p
    refine (h.free i fun q => ?_).same (hSame i hNot)
    by_cases hqp : q = p
    · rw [hqp]
      exact hNot
    · rw [← hOthers q hqp]
      exact hFree q

theorem Worker.Unharmed.setPc {w : Worker} (h : w.Unharmed) (hBusy : w.pc ≠ .idle)
    (pc : WorkerPc) : Worker.Unharmed { w with pc } :=
  ⟨h.live, fun _ => h.kept hBusy⟩

theorem unharmed_update {w : Worker} (h : ∀ q, (s.workers q).Unharmed) (hNew : w.Unharmed)
    (q : Nat) : (Function.update s.workers p w q).Unharmed := by
  by_cases hq : q = p
  · subst hq
    simpa using hNew
  · simpa [hq] using h q

/-- No disconnect handler is at work, since no worker has crashed. -/
theorem Marks.awake (h : Marks s) (hTenancy : Tenancy s) (q : Nat) (i : Slot) :
    (s.workers q).handler ≠ .sleeping i := fun hSleeping => by
  have hCrashed := (hTenancy.sleeping q i hSleeping).1
  simp [(h.unharmed q).live] at hCrashed

theorem Marks.setPc (h : Marks s) (hTenancy : Tenancy s) (hBusy : (s.workers p).pc ≠ .idle)
    (pc : WorkerPc) (hSlot : pc.slot = (s.workers p).pc.slot)
    (hFits : ∀ i, (s.workers p).pc.slot = some i → pc.Fits s i) : Marks (s.setPc p pc) := by
  refine h.of_worker (p := p) hTenancy pc (by simp) (fun q hq => by simp [hq])
    (unharmed_update h.unharmed ((h.unharmed p).setPc hBusy pc)) hSlot
    h.once (fun j _ => ⟨rfl, rfl, rfl, rfl, id⟩) fun j hj => ?_
  have hSame : SameMarks s (s.setPc p pc) j := ⟨rfl, rfl, rfl, rfl, id⟩
  exact (hFits j hj).same hSame

/-- Nothing but the positions of the workers, their marks and the masks matters. -/
theorem Marks.of_same (h : Marks s) (hWorkers : s'.workers = s.workers) (hAgg : s'.agg = s.agg)
    (hJoins : s'.ctrl.pending_slot_joins = s.ctrl.pending_slot_joins)
    (hLeaves : s'.ctrl.pending_slot_leaves = s.ctrl.pending_slot_leaves)
    (hActive : s'.ctrl.active_slot_mask = s.ctrl.active_slot_mask) : Marks s' := by
  have hSame : ∀ i, SameMarks s s' i := fun i =>
    ⟨by simp only [State.joinPending, hAgg, hJoins], by rw [hAgg], by rw [hActive],
      by simp only [State.leavePending, hAgg, hLeaves], by
        unfold State.leaveCleared
        rw [hAgg]
        exact id⟩
  refine ⟨?_, ?_, fun i q hq => ?_, fun i hFree => ?_⟩
  · rw [hWorkers]
    exact h.unharmed
  · rw [hAgg, hLeaves]
    exact h.once
  · rw [hWorkers] at hq ⊢
    exact (h.fits i q hq).same (hSame i)
  · rw [hWorkers] at hFree
    exact (h.free i hFree).same (hSame i)

theorem Marks.advance {l : Label} {pc : WorkerPc} (h : Marks s) (hTenancy : Tenancy s)
    (hMembership : Membership s) (hOrderly : Orderly s l)
    (hMove : Advance c s p l (s.workers p).pc pc) : Marks (s.setPc p pc) := by
  have hUnbroken := hOrderly.unbroken
  have hFits := fun i => h.fits i p
  have hWaiting := fun i => hMembership.waiting i p (h.unharmed p).live
  have hSet := h.setPc (p := p) hTenancy hMove.busy pc
  generalize hPc : (s.workers p).pc = old at hMove hFits hWaiting hSet
  cases hMove with
  | @activated i v b hActive =>
      refine hSet rfl fun j hj => ?_
      obtain rfl := Option.some.inj hj
      have hShown : s.ctrl.active_slot_mask.test_bit i = true := hActive
      have hJoins : s.joinPending i = false := by
        apply Bool.eq_false_iff.mpr
        intro hPending
        have hInactive := (hTenancy.pending i hPending).1
        simp [State.isActive, hShown] at hInactive
      have hIn : s.agg.active_mask.test_bit i = true := by
        rcases hWaiting i rfl with hPending | hIn | hEvicted
        · simp [hJoins] at hPending
        · exact hIn
        · simp [(h.unharmed p).kept (by simp [hPc])] at hEvicted
      exact ⟨hJoins, hIn, hShown, hFits i rfl⟩
  | notActivated | notAcknowledged => simp [State.breaks] at hUnbroken
  | @failPending i _ hPending =>
      rcases hPending with rfl | rfl
      · refine hSet rfl fun j hj => ?_
        obtain rfl := Option.some.inj hj
        obtain ⟨hJoins, hOut, hHidden, hLeaves⟩ := hFits i rfl
        simp [WorkerPc.Fits, hJoins, hOut, hHidden, hLeaves]
      · simp [State.breaks, hPc] at hUnbroken
  | @failActive i _ hRunning =>
      rcases hRunning with rfl | rfl | ⟨k, stage, rfl, -⟩ <;> exact hSet rfl hFits
  | _ => exact hSet rfl hFits

/-- Whoever leaves a token to give its slot back finds no leave of it pending. -/
theorem Marks.worker {l : Label} (h : Marks s) (hTenancy : Tenancy s) (hMembership : Membership s)
    (hOrderly : Orderly s l) (hLive : (s.workers p).crashed = false)
    (hMove : WorkerMove c s p l s') : Marks s' := by
  have hFits := fun i => h.fits i p
  have hBusy := hMove.busy
  have hOwnPc := (h.unharmed p).setPc hBusy
  -- most moves keep the masks and lead to a position with the same marks
  have hStill : ∀ pc : WorkerPc, pc.slot = (s.workers p).pc.slot →
      (∀ i, (s.workers p).pc.slot = some i → pc.Fits s i) → Marks (s.setPc p pc) :=
    fun pc => h.setPc hTenancy hBusy pc
  cases hMove with
  | advance hMove => exact h.advance hTenancy hMembership hOrderly hMove
  | claimThrew hPc hCall =>
      exact { hStill .idle (by rw [hPc]; rfl) (by simp [hPc, WorkerPc.slot]) with }
  | @claimReturned i _ _ hPc hCall =>
      rw [hPc] at hFits hStill
      exact { hStill (.prepared i) rfl hFits with }
  | @join i _ _ hPc =>
      have hSlot : (s.workers p).pc.slot = some i := by rw [hPc]; rfl
      refine h.of_worker (p := p) hTenancy (.polling i) (by simp [State.setPc])
        (fun q hq => by simp [State.setPc, hq]) (unharmed_update h.unharmed (hOwnPc _))
        hSlot.symm h.once (fun j hj => ?_) fun j hj => ?_
      · have hji : j ≠ i := fun hSame => hj (hSame ▸ hSlot)
        exact ⟨by simp [State.joinPending, ControlBlock.slot_signal_join, hji], rfl, rfl, rfl, id⟩
      · have hOwn := hFits j hj
        rw [hPc] at hOwn
        exact hOwn.2.2.2
  | @evicted i _ _ hPc hEvicted =>
      rw [hPc] at hFits hStill
      exact { hStill (.leave i false) rfl hFits with }
  | @prepare i k e v _ hPc =>
      rw [hPc] at hFits hStill
      exact { hStill (.op i k (.submit e v .loadHead)) rfl hFits with }
  | @submit i k e x spc _ b hPc =>
      rw [hPc] at hFits hStill
      have hMoved := hStill
        (.submitted i k e x (s.ring.submit Submission.layout (c.submission k i p e) b spc).2)
        (WorkerPc.submitted_slot ..) fun j hj => by
          cases (s.ring.submit Submission.layout (c.submission k i p e) b spc).2 <;>
            exact hFits j hj
      exact { hMoved with }
  | @signal i k e x _ _ hPc =>
      rw [hPc] at hFits hStill
      exact { hStill (.op i k (.wait e x)) rfl hFits with }
  | @sample i k e x _ _ hPc hLast =>
      rw [hPc] at hFits
      refine h.of_worker (p := p) hTenancy (.tokenEnd i) (by simp) (fun q hq => by simp [hq])
        (unharmed_update h.unharmed ?_) (by rw [hPc]; rfl) h.once
        (fun _ _ => ⟨rfl, rfl, rfl, rfl, id⟩) fun j hj => ?_
      · exact ⟨(takeToken_crashed _ _).trans hLive,
          fun _ => (takeToken_evicted _ _).trans ((h.unharmed p).kept hBusy)⟩
      · rw [hPc] at hj
        exact hFits j hj
  | @leave i f _ _ hPc =>
      have hSlot : (s.workers p).pc.slot = some i := by rw [hPc]; rfl
      have hOwn := hFits i hSlot
      rw [hPc] at hOwn
      obtain ⟨hJoins, hIn, hShown, hLeaves⟩ := hOwn
      refine h.of_worker (p := p) hTenancy (if f then .awaitLeave i else .release i false)
        (by simp) (fun q hq => by simp [State.signalLeave, hq])
        (unharmed_update h.unharmed (hOwnPc _))
        (by rw [hSlot]; cases f <;> rfl) (fun j hj => ?_) (fun j hj => ?_) fun j hj => ?_
      · have hOld : s.ctrl.pending_slot_leaves.test_bit j = false := h.once j hj
        have hji : j ≠ i := by
          rintro rfl
          have hLocal : s.agg.leaves.test_bit j = true := hj
          simp [State.leavePending, hLocal] at hLeaves
        simp [State.signalLeave, ControlBlock.slot_signal_leave, hji, hOld]
      · have hji : j ≠ i := fun hSame => hj (hSame ▸ hSlot)
        refine ⟨rfl, rfl, rfl, ?_, id⟩
        simp [State.leavePending, State.signalLeave, ControlBlock.slot_signal_leave, hji]
      · obtain rfl : i = j := Option.some.inj (hSlot.symm.trans hj)
        have hIn' : s.agg.active_mask.test_bit i = true := hIn
        have hShown' : s.ctrl.active_slot_mask.test_bit i = true := hShown
        have hJoins' : s.ctrl.pending_slot_joins.test_bit i = false ∧
          s.agg.joins.test_bit i = false := by simpa [State.joinPending] using hJoins
        cases f <;> simp [State.setPc, State.signalLeave, ControlBlock.slot_signal_leave,
          WorkerPc.Fits, State.joinPending, State.leavePending, hIn', hShown', hJoins']
  | @release i f _ _ hPc =>
      have hOwn := hFits i (by rw [hPc]; rfl)
      have hGone := hOrderly.acknowledged i (by simp [State.givesBack, hPc])
      rw [hPc] at hOwn hStill
      obtain ⟨hJoins, -, -, hOut⟩ := hOwn
      have hMoved := hStill (.releasing i f) rfl fun j hj => by
        obtain rfl := Option.some.inj hj
        exact ⟨hJoins, (hOut hGone).1, hGone, (hOut hGone).2⟩
      exact { hMoved with }
  | releaseThrew hPc hCall =>
      have hc := hTenancy.coherent p
      rw [hCall] at hc
      exact hc.2.elim
  | finish hPc hCall =>
      exact { hStill .idle (by rw [hPc]; rfl) (by simp [hPc, WorkerPc.slot]) with }

/-- A slot that a claim takes has no mark, and one that is given back keeps none. -/
theorem Marks.call (h : Marks s) (hTenancy : Tenancy s) (hMove : CallMove s p s') : Marks s' := by
  have hc := hTenancy.coherent p
  cases hMove with
  | @own w i hCall =>
      rw [hCall] at hc
      obtain rfl := hc.1
      have hNobody : ∀ q, (s.workers q).pc.slot ≠ some i := fun q hq =>
        (hTenancy.held hq).2 p (by rw [hCall]; rfl)
      have hBusy : (s.workers p).pc ≠ .idle := by simp [hc.2]
      refine ⟨unharmed_update h.unharmed ((h.unharmed p).setPc hBusy _), h.once, fun j q hq => ?_,
        fun j hFree => ?_⟩
      · by_cases hqp : q = p
        · subst hqp
          have hNow : ((((s.setCall q (.claim q (.scrubReady i 0))).setPc q
            (.claimed i)).workers q).pc) = .claimed i := by simp
          obtain rfl : i = j := by simpa [State.setPc, WorkerPc.slot] using hq
          change (((s.setCall q (.claim q (.scrubReady i 0))).setPc q
            (.claimed i)).workers q).pc.Fits _ i
          rw [hNow]
          exact h.free i hNobody
        · simp only [State.setPc, State.setCall, Function.update_of_ne hqp] at hq ⊢
          exact h.fits j q hq
      · refine h.free j fun q hq => ?_
        by_cases hqp : q = p
        · subst hqp
          simp [hc.2, WorkerPc.slot] at hq
        · exact hFree q (by simpa [State.setPc, State.setCall, hqp] using hq)
  | @giveUp w i hCall hOwner =>
      rw [hCall] at hc
      obtain ⟨rfl, hSlot, hWhy⟩ := hc
      obtain ⟨f, hPc⟩ : ∃ f, (s.workers p).pc = .releasing i f :=
        hWhy.resolve_left (by simp [(h.unharmed p).live])
      have hBusy : (s.workers p).pc ≠ .idle := by simp [hPc]
      refine ⟨unharmed_update h.unharmed ((h.unharmed p).setPc hBusy _), h.once, fun j q hq => ?_,
        fun j hFree => ?_⟩
      · by_cases hqp : q = p
        · subst hqp
          simp [State.setPc, WorkerPc.slot] at hq
        · simp only [State.setPc, State.setCall, Function.update_of_ne hqp] at hq ⊢
          exact h.fits j q hq
      · by_cases hji : j = i
        · subst hji
          have hMarks := h.fits j p hSlot
          rw [hPc] at hMarks
          exact hMarks
        · refine h.free j fun q hq => ?_
          by_cases hqp : q = p
          · subst hqp
            exact hji (Option.some.inj (hq.symm.trans hSlot))
          · exact hFree q (by simpa [State.setPc, State.setCall, hqp] using hq)
  | search _ _ | scrubReady _ | scrubEvicted _ | refuse _ _ | free _ | cleanUp _ => exact { h with }

section Aggregate

variable {timer : Bool} {sample : Slot → Nat}

/-- What is shown of a slot changes to what the main loop knows, and never while the main
loop clears leave bits. -/
theorem AggregateMove.shown (hMove : AggregateMove c s timer sample s') (i : Slot) :
    s'.ctrl.active_slot_mask.test_bit i = s.ctrl.active_slot_mask.test_bit i ∨
    (s'.ctrl.active_slot_mask.test_bit i = s.agg.active_mask.test_bit i ∧
      s'.agg.active_mask.test_bit i = s.agg.active_mask.test_bit i ∧ ¬s.leaveCleared i) := by
  cases hMove with
  | storeActive hPc | storedNone hPc _ | storedActive hPc _ | storeMidLeaves hPc
  | storeEvicted hPc =>
      simp only [SlotMask.test_bit_copyWord]
      split
      · refine .inr ⟨rfl, trivial, ?_⟩
        rintro ⟨k, hAt, -⟩
        simp [hPc] at hAt
      · exact .inl rfl
  | _ => exact .inl rfl

/-- Without evictions a slot stays active until a leave is pending. -/
theorem AggregateMove.stays (hMove : AggregateMove c s timer sample s') (hLocals : Locals s)
    (hEvicts : ∀ i, (s.evicts (.aggregate timer sample)).test_bit i = false)
    (hIn : s.agg.active_mask.test_bit i = true) (hLeaves : s.leavePending i = false) :
    s'.agg.active_mask.test_bit i = true := by
  by_contra hOut
  rcases hMove.removed hLocals hIn (by simpa using hOut) with hPending | ⟨hAt, -⟩
  · simp [hLeaves] at hPending
  · have hNone := hEvicts i
    simp only [State.evicts, if_pos hAt] at hNone
    cases hMove with
    | evict hPc hStuck => simp [hStuck, hNone, hIn] at hOut
    | tick hTick => simp [hIn] at hOut
    | _ => simp [hAt] at *

/-- The main loop holds a leave in its locals only after it has cleared the shared bit. -/
theorem AggregateMove.leave_once (hMove : AggregateMove c s timer sample s')
    (h : s.agg.leaves.test_bit i = true → s.ctrl.pending_slot_leaves.test_bit i = false)
    (hi : s'.agg.leaves.test_bit i = true) : s'.ctrl.pending_slot_leaves.test_bit i = false := by
  cases hMove with
  | exchangeLeaves hPc =>
      simp only [SlotMask.test_bit_copyWord, SlotMask.test_bit_zero] at hi ⊢
      split
      · rfl
      next hw =>
        rw [if_neg hw] at hi
        exact h hi
  | applyLeaves hPc => simp at hi
  | clearMidLeaves hPc =>
      simp only [SlotMask.test_bit_andWord]
      split <;> simp [h hi]
  | droppedEmpty hPc _ _ | advanceEpoch hPc _ => exact h (by rwa [nextOp_leaves] at hi)
  | _ => exact h hi

/-- A leave that is still pending after its slot is out is about to be cleared. -/
theorem AggregateMove.leave_cleared (hMove : AggregateMove c s timer sample s')
    (hLocals : Locals s)
    (hEvicts : ∀ i, (s.evicts (.aggregate timer sample)).test_bit i = false)
    (hOnce : s.agg.leaves.test_bit i = true → s.ctrl.pending_slot_leaves.test_bit i = false)
    (h : s.agg.active_mask.test_bit i = true ∨ s.leaveCleared i) (hi : s'.leavePending i = true) :
    s'.agg.active_mask.test_bit i = true ∨ s'.leaveCleared i := by
  have hWord : ∀ k : Fin 2, k = 0 ∨ k = 1 := by decide
  have hLocal := hLocals.leaves_none
  rcases h with hIn | ⟨k, hAt, hStuck, hLast⟩
  · cases hMove with
    | applyLeaves hPc =>
        left
        simp only [State.leavePending, SlotMask.test_bit_copyWord, SlotMask.test_bit_zero,
          Bool.or_false] at hi
        split at hi
        · simp at hi
        next hw =>
          have hHeld : s.agg.leaves.test_bit i = false := by
            by_contra hOn
            simp [hOnce (by simpa using hOn)] at hi
          simp [hIn, hw, hHeld]
    | @midLeaves leaving hPc hLeaving =>
        cases hGone : leaving.test_bit i with
        | false => exact .inl (by simp [hIn, hGone])
        | true => exact .inr ⟨0, rfl, hGone, by simp⟩
    | evict hPc hStuck =>
        have hNone := hEvicts i
        simp only [State.evicts, if_pos hPc, ← hStuck] at hNone
        exact .inl (by simp [hIn, hNone])
    | applyJoins hPc _ => exact .inl (by simp [hIn])
    | droppedEmpty hPc _ _ | advanceEpoch hPc _ => exact .inl (by rw [nextOp_active_mask]; exact hIn)
    | _ => exact .inl hIn
  · cases hMove with
    | @clearMidLeaves k' hPc =>
        right
        obtain rfl : k = k' := by simpa [hAt] using hPc
        simp only [State.leavePending, hLocal (by simp [hAt]), Bool.or_false,
          SlotMask.test_bit_andWord, SlotMask.test_bit_not, hStuck, Bool.not_true,
          Bool.and_false] at hi
        rcases hWord k with rfl | rfl
        · refine ⟨1, rfl, hStuck, fun _ => word_eq_one fun hw => ?_⟩
          simp [hw] at hi
        · simp [hLast rfl] at hi
    | tick hTick =>
        generalize s.agg.pc = old at hTick hAt
        cases hTick <;> simp at hAt
    | _ => simp [hAt] at *

/-- What the masks say of a slot goes on fitting the position of its worker. -/
theorem WorkerPc.Fits.aggregate {pc : WorkerPc} (h : pc.Fits s i) (hTenancy : Tenancy s)
    (hLocals : Locals s)
    (hEvicts : ∀ i, (s.evicts (.aggregate timer sample)).test_bit i = false)
    (hOnce : s.agg.leaves.test_bit i = true → s.ctrl.pending_slot_leaves.test_bit i = false)
    (hMove : AggregateMove c s timer sample s') : pc.Fits s' i := by
  have hMask := hMove.maskFrame hTenancy
  have hLeave := (hMove.signals i).2.2
  have hJoins : s.joinPending i = false → s'.joinPending i = false := fun hNone => by
    by_contra hNow
    simp [hMask.joins i (by simpa using hNow)] at hNone
  have hLeaves : s.leavePending i = false → s'.leavePending i = false := fun hNone => by
    by_contra hNow
    simp [hLeave (by simpa using hNow)] at hNone
  -- without a join a slot does not become active
  have hEnters : s.joinPending i = false → s'.agg.active_mask.test_bit i = true →
      s.agg.active_mask.test_bit i = true := fun hNone hNow => by
    rcases hMove.active i with hSame | ⟨-, hPending⟩ | ⟨hGone, -⟩
    · rw [← hSame, hNow]
    · simp [hNone] at hPending
    · simp [hGone] at hNow
  have hOut : s.joinPending i = false → s.agg.active_mask.test_bit i = false →
      s'.agg.active_mask.test_bit i = false := fun hNone hOff => by
    by_contra hNow
    simp [hEnters hNone (by simpa using hNow)] at hOff
  have hShown := hMove.shown i
  cases pc with
  | polling _ => exact hLeaves h
  | tokenStart _ | op _ _ _ | tokenEnd _ | leave _ _ =>
      obtain ⟨hJoin, hIn, hOn, hStays⟩ := h
      refine ⟨hJoins hJoin, hMove.stays hLocals hEvicts hIn hStays, ?_, hLeaves hStays⟩
      rcases hShown with hSame | ⟨hSame, -⟩
      · rw [hSame, hOn]
      · rw [hSame, hIn]
  | awaitLeave _ | release _ _ =>
      obtain ⟨hJoin, hLeaving, hPending, hGone⟩ := h
      refine ⟨hJoins hJoin, fun hNow => ?_, fun hNow => ?_, fun hOff => ?_⟩
      · obtain ⟨hOn, hLeft⟩ := hLeaving (hEnters hJoin hNow)
        refine ⟨?_, (hMove.leave_kept hLocals hLeft).resolve_right (by simp [hNow])⟩
        rcases hShown with hSame | ⟨hSame, hStill, -⟩
        · rw [hSame, hOn]
        · rw [hSame, ← hStill, hNow]
      · exact hMove.leave_cleared hLocals hEvicts hOnce (hPending (hLeave hNow)) hNow
      · rcases hShown with hSame | ⟨hSame, hStill, hNot⟩
        · obtain ⟨hInactive, hStays⟩ := hGone (by rw [← hSame, hOff])
          exact ⟨hOut hJoin hInactive, hLeaves hStays⟩
        · have hInactive : s.agg.active_mask.test_bit i = false := by rw [← hSame, hOff]
          refine ⟨by rw [hStill, hInactive], hLeaves ?_⟩
          by_contra hLeft
          rcases hPending (by simpa using hLeft) with hIn | hCleared
          · simp [hInactive] at hIn
          · exact hNot hCleared
  | _ =>
      obtain ⟨hJoin, hInactive, hOff, hStays⟩ := h
      refine ⟨hJoins hJoin, hOut hJoin hInactive, ?_, hLeaves hStays⟩
      rcases hShown with hSame | ⟨hSame, -⟩
      · rw [hSame, hOff]
      · rw [hSame, hInactive]

theorem Marks.aggregate (h : Marks s) (hTenancy : Tenancy s) (hLocals : Locals s)
    (hOrderly : Orderly s (.aggregate timer sample))
    (hMove : AggregateMove c s timer sample s') : Marks s' := by
  have hEvicts := hOrderly.unevicted
  have hWorkers := hMove.worker_pc
  refine ⟨fun q => ?_, fun i => hMove.leave_once (h.once i), fun i q hq => ?_, fun i hFree => ?_⟩
  · cases hMove with
    | @evict stuck hPc hStuck =>
        have hNone : ∀ i, stuck.test_bit i = false := fun i => by
          have hi := hEvicts i
          simp only [State.evicts, if_pos hPc, ← hStuck] at hi
          exact hi
        have hNobody : (s.workers q).pc.slot.any stuck.test_bit = false := by
          cases (s.workers q).pc.slot <;> simp [hNone]
        simpa [hNobody] using h.unharmed q
    | _ => exact h.unharmed q
  · rw [hWorkers] at hq ⊢
    exact (h.fits i q hq).aggregate hTenancy hLocals hEvicts (h.once i) hMove
  · refine (h.free i fun q => ?_).aggregate hTenancy hLocals hEvicts (h.once i) hMove
    rw [← hWorkers]
    exact hFree q

end Aggregate

theorem Marks.move {l : Label} (h : Marks s) (hTenancy : Tenancy s) (hLocals : Locals s)
    (hMembership : Membership s) (hOrderly : Orderly s l) (hMove : Move c s l s') : Marks s' := by
  cases hMove with
  | worker hLive hMove => exact h.worker hTenancy hMembership hOrderly hLive hMove
  | call hMove => exact h.call hTenancy hMove
  | aggregate hMove => exact h.aggregate hTenancy hLocals hOrderly hMove
  | @request q _ _ w hPc hLive hWorker =>
      refine h.of_worker (p := q) hTenancy .claiming (by simp [hWorker])
        (fun r hr => by simp [hr]) (unharmed_update h.unharmed ?_) (by rw [hPc]; rfl) h.once
        (fun _ _ => ⟨rfl, rfl, rfl, rfl, id⟩) (by simp [hPc, WorkerPc.slot])
      rw [hWorker]
      exact ⟨hLive, fun _ => rfl⟩
  | crash hLive => exact absurd hOrderly.unbroken (by simp [State.breaks])
  | @disconnect q i hCrashed _ _ _ => simp [(h.unharmed q).live] at hCrashed
  | deferredRelease hSleeping => exact (h.awake hTenancy _ _ hSleeping).elim

theorem Marks.initial (h : Initial s) : Marks s := by
  refine ⟨fun p => ⟨(h.workers p).2.1, fun hBusy => absurd (h.workers p).1 hBusy⟩, fun i hi => ?_,
    fun i p hp => ?_, fun i _ => ?_⟩
  · simp [h.agg] at hi
  · simp [(h.workers p).1, WorkerPc.slot] at hp
  · obtain ⟨hJoins, hLeaves, hActive⟩ := h.unmarked i
    simp only [State.isActive, Bool.or_eq_false_iff] at hActive
    exact ⟨hJoins, hActive.1, hActive.2, hLeaves⟩

end Barrier
