import SwarmLoRA.Barrier.Crossing

namespace Barrier

open Ipc Aggregator Machine

namespace WorkerPc

/-- The worker is within its request, past the activation of its slot. -/
def running : WorkerPc → Bool
  | .tokenStart _ | .op _ _ _ | .tokenEnd _ => true
  | _ => false

/-- The worker has signalled its leave, or gives its slot back without one. -/
def left : WorkerPc → Bool
  | .awaitLeave _ | .release _ _ | .releasing _ _ => true
  | _ => false

end WorkerPc

/-- The locals of the main loop between the two words of a mask. A mask of 128 slots is exchanged
one word at a time, and a local is not empty only in between. -/
structure Locals (s : State) : Prop where
  joins : ∀ i, s.agg.joins.test_bit i = true → s.agg.pc = .exchangeJoins 1 ∧ wordIndex i = 0
  leaves : ∀ i, s.agg.leaves.test_bit i = true → s.agg.pc = .exchangeLeaves 1 ∧ wordIndex i = 0
  seen : s.agg.pc = .loadMidLeaves 1 → ∀ i, s.agg.seen.test_bit i = true →
    s.ctrl.pending_slot_leaves.test_bit i = true
  stuck : ∀ k, s.agg.pc = .clearMidLeaves k → ∀ i, s.agg.stuck.test_bit i = true →
    s.agg.active_mask.test_bit i = false

/-- The condition on a step: a new owner is stored only for a slot with no leave pending. -/
def Unleft (s : State) (l : Label) : Prop := ∀ i ∈ s.claims l, s.leavePending i = false

instance (s : State) (l : Label) : Decidable (Unleft s l) := Option.decidableForallMem _

/-- A leave is pending only for a worker that has signalled it or has crashed, and a live
worker is in the active set, or on its way there, unless it has been evicted. -/
structure Membership (s : State) : Prop where
  leaves : ∀ i p, s.leavePending i = true → (s.workers p).pc.slot = some i →
    (s.workers p).crashed = true ∨ (s.workers p).pc.left = true
  waiting : ∀ i p, (s.workers p).crashed = false → (s.workers p).pc = .polling i →
    s.joinPending i = true ∨ s.agg.active_mask.test_bit i = true ∨ (s.workers p).evicted = true
  running : ∀ i p, (s.workers p).crashed = false → (s.workers p).pc.slot = some i →
    (s.workers p).pc.running = true →
    s.agg.active_mask.test_bit i = true ∨ (s.workers p).evicted = true

variable {c : Config} {s s' : State} {p : Nat} {i : Slot} {timer : Bool} {sample : Slot → Nat}

theorem Locals.of_agg (h : Locals s) (hAgg : s'.agg = s.agg)
    (hLeaves : ∀ i, s.ctrl.pending_slot_leaves.test_bit i = true →
      s'.ctrl.pending_slot_leaves.test_bit i = true) : Locals s' := by
  refine ⟨?_, ?_, fun hPc i hi => ?_, ?_⟩
  · rw [hAgg]
    exact h.joins
  · rw [hAgg]
    exact h.leaves
  · rw [hAgg] at hPc hi
    exact hLeaves i (h.seen hPc i hi)
  · rw [hAgg]
    exact h.stuck

/-- Nothing is held over to the next step but between two words. -/
theorem Locals.of_pc (hJoins : ∀ i, s.agg.joins.test_bit i = false)
    (hLeaves : ∀ i, s.agg.leaves.test_bit i = false) (hSeen : s.agg.pc ≠ .loadMidLeaves 1)
    (hStuck : ∀ k, s.agg.pc ≠ .clearMidLeaves k) : Locals s := by
  refine ⟨?_, ?_, ?_, ?_⟩ <;> simp [hJoins, hLeaves, hSeen, hStuck]

theorem Locals.joins_none (h : Locals s) (hPc : s.agg.pc ≠ .exchangeJoins 1) (i : Slot) :
    s.agg.joins.test_bit i = false := by
  by_contra hOn
  exact hPc (h.joins i (by simpa using hOn)).1

theorem Locals.leaves_none (h : Locals s) (hPc : s.agg.pc ≠ .exchangeLeaves 1) (i : Slot) :
    s.agg.leaves.test_bit i = false := by
  by_contra hOn
  exact hPc (h.leaves i (by simpa using hOn)).1

theorem Locals.tick {pc : AggregatorPc} {seen : SlotMask} (h : Locals s)
    (hTick : Tick s timer s.agg.pc pc seen) :
    Locals { s with agg := { s.agg with pc, seen } } := by
  have hJoins := h.joins_none
  have hLeaves := h.leaves_none
  generalize hPc : s.agg.pc = old at hTick hJoins hLeaves
  cases hTick with
  | loadMidLeaves =>
      refine ⟨?_, ?_, fun _ i hi => ?_, by simp⟩
      · simp [hJoins]
      · simp [hLeaves]
      · rw [AggregatorState.load, SlotMask.test_bit_copyWord] at hi
        split at hi
        · exact hi
        · simp at hi
  | _ => exact .of_pc (hJoins (by simp)) (hLeaves (by simp)) (by simp) (by simp)

theorem Locals.aggregate (h : Locals s) (hMove : AggregateMove c s timer sample s') :
    Locals s' := by
  have hWord : ∀ k : Fin 2, k = 0 ∨ k = 1 := by decide
  have hJoins := h.joins_none
  have hLeaves := h.leaves_none
  have hZero : ∀ i, SlotMask.zero.test_bit i = false := SlotMask.test_bit_zero
  cases hMove with
  | tick hTick => exact h.tick hTick
  | exchangeLeaves hPc =>
      refine ⟨?_, fun i hi => ⟨rfl, ?_⟩, by simp, by simp⟩
      · simp [hJoins (by simp [hPc])]
      · rw [SlotMask.test_bit_copyWord] at hi
        split at hi
        · assumption
        · simp [hLeaves (by simp [hPc])] at hi
  | applyLeaves hPc => exact .of_pc (hJoins (by simp [hPc])) hZero (by simp) (by simp)
  | exchangeJoins hPc =>
      refine ⟨fun i hi => ⟨rfl, ?_⟩, ?_, by simp, by simp⟩
      · rw [SlotMask.test_bit_copyWord] at hi
        split at hi
        · assumption
        · simp [hJoins (by simp [hPc])] at hi
      · simp [hLeaves (by simp [hPc])]
  | applyJoins hPc _ => exact .of_pc hZero (hLeaves (by simp [hPc])) (by simp) (by simp)
  | midLeaves hPc _ =>
      refine ⟨?_, ?_, by simp, fun _ _ i hi => ?_⟩
      · simp [hJoins (by simp [hPc])]
      · simp [hLeaves (by simp [hPc])]
      · change SlotMask.test_bit _ i = true at hi
        simp [hi]
  | @clearMidLeaves k hPc =>
      rcases hWord k with rfl | rfl
      · refine ⟨?_, ?_, by simp, fun _ _ => h.stuck 0 hPc⟩
        · simp [hJoins (by simp [hPc])]
        · simp [hLeaves (by simp [hPc])]
      · exact .of_pc (hJoins (by simp [hPc])) (hLeaves (by simp [hPc])) (by simp) (by simp)
  | @storeMidLeaves k hPc =>
      refine .of_pc (hJoins (by simp [hPc])) (hLeaves (by simp [hPc])) ?_ ?_ <;> dsimp only <;>
        split <;> (try split) <;> simp
  | @storeEvicted k hPc | @clearReady k hPc =>
      refine .of_pc (hJoins (by simp [hPc])) (hLeaves (by simp [hPc])) ?_ ?_ <;> dsimp only <;>
        split <;> simp
  | fetch hPc _ =>
      refine .of_pc (hJoins (by simp [hPc])) (hLeaves (by simp [hPc])) ?_ ?_ <;> dsimp only <;>
        rcases drainNext_cases (s.agg.beginDrain s.ring) with hNext | hNext <;> simp [hNext]
  | take hPc =>
      refine .of_pc (hJoins (by simp [hPc])) (hLeaves (by simp [hPc])) ?_ ?_ <;> dsimp only <;>
        rcases drainNext_cases (s.agg.takeEntry s.ring) with hNext | hNext <;> simp [hNext]
  | droppedEmpty hPc _ _ | advanceEpoch hPc _ =>
      simp only [AggregatorState.nextOp]
      split <;> exact .of_pc (hJoins (by simp [hPc])) (hLeaves (by simp [hPc])) (by simp) (by simp)
  | noJoins hPc | storeActive hPc | storedNone hPc _ | storedActive hPc _ | decideQuit hPc _
  | evict hPc _ | signalEvicted hPc _ | spinTimeout hPc _ _ | batched hPc _ _ | droppedQuit hPc _
  | execute hPc _ | throw hPc _ | advanceBreaking hPc _ =>
      exact .of_pc (hJoins (by simp [hPc])) (hLeaves (by simp [hPc])) (by simp) (by simp)

theorem WorkerMove.pending {l : Label} (hMove : WorkerMove c s p l s') (i : Slot) :
    (s.ctrl.pending_slot_joins.test_bit i = true → s'.ctrl.pending_slot_joins.test_bit i = true) ∧
    (s.ctrl.pending_slot_leaves.test_bit i = true →
      s'.ctrl.pending_slot_leaves.test_bit i = true) := by
  cases hMove with
  | join hPc => simp +contextual [ControlBlock.slot_signal_join]
  | leave hPc => simp +contextual [State.signalLeave, ControlBlock.slot_signal_leave]
  | _ => exact ⟨id, id⟩

theorem Locals.move {l : Label} (h : Locals s) (hMove : Move c s l s') : Locals s' := by
  cases hMove with
  | worker hLive hMove =>
      refine h.of_agg ?_ fun i => (hMove.pending i).2
      cases hMove <;> rfl
  | call hMove =>
      refine h.of_agg ?_ fun i hi => by rw [hMove.signals.2, hi]
      cases hMove <;> rfl
  | aggregate hMove => exact h.aggregate hMove
  | disconnect hCrashed _ _ _ =>
      exact h.of_agg rfl fun i hi => by simp [State.signalLeave, ControlBlock.slot_signal_leave, hi]
  | _ => exact h.of_agg rfl fun i => id

theorem Locals.initial (h : Initial s) : Locals s := by
  have hZero := SlotMask.test_bit_zero
  refine .of_pc (fun i => ?_) (fun i => ?_) ?_ ?_ <;> simp [h.agg]

theorem locals_of_reach {guard : State → Label → Prop} (run : (machine c).Reach guard s) :
    Locals s :=
  run.invariant Locals (fun _ => Locals.initial) fun _ _ _ h _ hStep =>
    h.move (move_of_step hStep)

/-- A join stays pending until its slot is active. -/
theorem AggregateMove.join_kept (h : Locals s) (hMove : AggregateMove c s timer sample s')
    (hi : s.joinPending i = true) :
    s'.joinPending i = true ∨ s'.agg.active_mask.test_bit i = true := by
  have hJoins := h.joins_none
  cases hMove with
  | exchangeJoins hPc =>
      left
      simp only [State.joinPending, hJoins (by simp [hPc]), Bool.or_false] at hi
      simp only [State.joinPending, SlotMask.test_bit_copyWord, SlotMask.test_bit_zero]
      split <;> simp [hi]
  | applyJoins hPc hBits =>
      have hLocal := h.joins i
      simp only [State.joinPending, hBits, SlotMask.test_bit_or, SlotMask.test_bit_copyWord,
        SlotMask.test_bit_zero, Bool.or_eq_true] at hi ⊢
      by_cases hw : wordIndex i = 1
      · have hNone : s.agg.joins.test_bit i = false := by
          by_contra hOn
          have := (hLocal (by simpa using hOn)).2
          omega
        simp only [hNone, Bool.false_eq_true, or_false] at hi
        simp [hw, hi]
      · simp only [if_neg hw]
        tauto
  | droppedEmpty hPc _ _ | advanceEpoch hPc _ =>
      left
      simpa only [State.joinPending, nextOp_joins] using hi
  | _ => exact .inl hi

/-- A leave stays pending until its slot is out of the active set. -/
theorem AggregateMove.leave_kept (h : Locals s) (hMove : AggregateMove c s timer sample s')
    (hi : s.leavePending i = true) :
    s'.leavePending i = true ∨ s'.agg.active_mask.test_bit i = false := by
  have hLeaves := h.leaves_none
  cases hMove with
  | exchangeLeaves hPc =>
      left
      simp only [State.leavePending, hLeaves (by simp [hPc]), Bool.or_false] at hi
      simp only [State.leavePending, SlotMask.test_bit_copyWord, SlotMask.test_bit_zero]
      split <;> simp [hi]
  | applyLeaves hPc =>
      have hLocal := h.leaves i
      simp only [State.leavePending, SlotMask.test_bit_and, SlotMask.test_bit_not,
        SlotMask.test_bit_copyWord, SlotMask.test_bit_zero, Bool.or_eq_true] at hi ⊢
      by_cases hw : wordIndex i = 1
      · have hNone : s.agg.leaves.test_bit i = false := by
          by_contra hOn
          have := (hLocal (by simpa using hOn)).2
          omega
        simp only [hNone, Bool.false_eq_true, or_false] at hi
        simp [hw, hi]
      · simp only [if_neg hw]
        rcases hi with hi | hi <;> simp [hi]
  | @clearMidLeaves k hPc =>
      cases hStuck : s.agg.stuck.test_bit i with
      | true => exact .inr (h.stuck k hPc i hStuck)
      | false =>
          left
          simp only [State.leavePending, SlotMask.test_bit_andWord, SlotMask.test_bit_not, hStuck,
            Bool.not_false, Bool.and_true, ite_self]
          exact hi
  | droppedEmpty hPc _ _ | advanceEpoch hPc _ =>
      left
      simpa only [State.leavePending, nextOp_leaves] using hi
  | _ => exact .inl hi

/-- A slot is taken out of the active set by a leave, or it is evicted and its request,
if it is being generated, is marked. -/
theorem AggregateMove.removed (h : Locals s) (hMove : AggregateMove c s timer sample s')
    (hIn : s.agg.active_mask.test_bit i = true) (hOut : s'.agg.active_mask.test_bit i = false) :
    s.leavePending i = true ∨ (s.agg.pc = .loadStuck 1 ∧
      ∀ p, (s.workers p).pc.generating = true → (s.workers p).pc.slot = some i →
        (s'.workers p).evicted = true) := by
  have hCases := hMove.active i
  rcases hCases with hSame | ⟨hNew, -⟩ | ⟨-, hStuck | hLeaving | ⟨hPc, hSeen⟩⟩
  · simp [hSame, hIn] at hOut
  · simp [hNew] at hOut
  · right
    refine ⟨hStuck, fun p hGenerating hSlot => ?_⟩
    cases hMove with
    | @evict stuck hPc hBits =>
        have hHit : stuck.test_bit i = true := by simpa [hIn] using hOut
        simp [hGenerating, hSlot, hHit]
    | tick hTick => simp [hIn] at hOut
    | _ => simp [hStuck] at *
  · exact .inl hLeaving
  · left
    simp [State.leavePending, h.seen hPc i hSeen]

/-- The mark of an evicted request stays until the next request. -/
theorem AggregateMove.evicted (hMove : AggregateMove c s timer sample s')
    (h : (s.workers p).evicted = true) : (s'.workers p).evicted = true := by
  cases hMove with
  | evict hPc hStuck =>
      dsimp only
      split
      · rfl
      · exact h
  | _ => exact h

theorem Membership.aggregate (h : Membership s) (hLocals : Locals s)
    (hMove : AggregateMove c s timer sample s') : Membership s' := by
  have hFrame := hMove.frame
  have hAt : ∀ q, (s'.workers q).pc = (s.workers q).pc ∧
      (s'.workers q).crashed = (s.workers q).crashed := by
    intro q
    obtain ⟨evicted, hq⟩ := hFrame.workers q
    rw [hq]
    exact ⟨rfl, rfl⟩
  -- no leave is pending for a live worker that generates
  have hStays : ∀ i q, (s.workers q).crashed = false → (s.workers q).pc.slot = some i →
      (s.workers q).pc.generating = true → s.agg.active_mask.test_bit i = true →
      s'.agg.active_mask.test_bit i = true ∨ (s'.workers q).evicted = true := by
    intro i q hLive hSlot hGenerating hIn
    by_contra hNot
    simp only [not_or, Bool.not_eq_true] at hNot
    rcases hMove.removed hLocals hIn hNot.1 with hLeaving | ⟨-, hMarked⟩
    · rcases h.leaves i q hLeaving hSlot with hCrashed | hLeft
      · simp [hLive] at hCrashed
      · revert hLeft hGenerating
        cases (s.workers q).pc <;> simp [WorkerPc.left, WorkerPc.generating]
    · simp [hMarked q hGenerating hSlot] at hNot
  refine ⟨fun i q hi hq => ?_, fun i q hLive hq => ?_, fun i q hLive hq hRunning => ?_⟩
  · rw [(hAt q).1] at hq ⊢
    rw [(hAt q).2]
    exact h.leaves i q ((hMove.signals i).2.2 hi) hq
  · rw [(hAt q).1] at hq
    rw [(hAt q).2] at hLive
    rcases h.waiting i q hLive hq with hPending | hIn | hEvicted
    · exact (hMove.join_kept hLocals hPending).imp id .inl
    · exact .inr (hStays i q hLive (by rw [hq]; rfl) (by rw [hq]; rfl) hIn)
    · exact .inr (.inr (hMove.evicted hEvicted))
  · rw [(hAt q).1] at hq hRunning
    rw [(hAt q).2] at hLive
    rcases h.running i q hLive hq hRunning with hIn | hEvicted
    · refine hStays i q hLive hq ?_ hIn
      revert hRunning
      cases (s.workers q).pc <;> simp [WorkerPc.running, WorkerPc.generating]
    · exact .inr (hMove.evicted hEvicted)

theorem Membership.setPc (h : Membership s) (pc : WorkerPc)
    (hLeft : ∀ i, pc.slot = some i → s.leavePending i = true →
      (s.workers p).crashed = true ∨ pc.left = true)
    (hPolling : ∀ i, pc = .polling i → s.joinPending i = true)
    (hRunning : ∀ i, pc.slot = some i → pc.running = true → (s.workers p).crashed = false →
      s.agg.active_mask.test_bit i = true ∨ (s.workers p).evicted = true) :
    Membership (s.setPc p pc) := by
  have hEvicted : ∀ q, ((s.setPc p pc).workers q).evicted = (s.workers q).evicted := by
    intro q
    by_cases hq : q = p
    · subst hq
      simp [State.setPc]
    · simp [State.setPc, hq]
  refine ⟨fun i q hi hq => ?_, fun i q hLive hq => ?_, fun i q hLive hq hRuns => ?_⟩
  · rw [State.setPc_crashed]
    rw [State.setPc_pc] at hq ⊢
    split at hq
    next hqp =>
      subst hqp
      rw [if_pos rfl]
      exact hLeft i hq hi
    next hqp =>
      rw [if_neg hqp]
      exact h.leaves i q hi hq
  · rw [State.setPc_crashed] at hLive
    rw [State.setPc_pc] at hq
    rw [hEvicted]
    split at hq
    next => exact .inl (hPolling i hq)
    next => exact h.waiting i q hLive hq
  · rw [State.setPc_crashed] at hLive
    rw [State.setPc_pc] at hq hRuns
    rw [hEvicted]
    split at hq
    next hqp =>
      subst hqp
      rw [if_pos rfl] at hRuns
      exact hRunning i hq hRuns hLive
    next hqp =>
      rw [if_neg hqp] at hRuns
      exact h.running i q hLive hq hRuns

/-- A worker moves on with the same slot, without a new join, and begins to run nowhere. -/
theorem Membership.advancePc (h : Membership s) (pc : WorkerPc)
    (hSlot : pc.slot = (s.workers p).pc.slot)
    (hLeft : (s.workers p).pc.left = true → pc.left = true) (hPolling : ∀ i, pc ≠ .polling i)
    (hRunning : pc.running = true → (s.workers p).pc.running = true) :
    Membership (s.setPc p pc) :=
  h.setPc pc (fun i hi hLeaving => (h.leaves i p hLeaving (by rw [← hSlot, hi])).imp id hLeft)
    (fun i hi => absurd hi (hPolling i)) fun i hi hRuns hLive =>
      h.running i p hLive (by rw [← hSlot, hi]) (hRunning hRuns)

/-- Nothing but the positions, the crashes and the marks of evicted requests matters. -/
theorem Membership.withWorkers (h : Membership s) (workers : Nat → Worker)
    (hPc : ∀ q, (workers q).pc = (s.workers q).pc)
    (hCrashed : ∀ q, (s.workers q).crashed = true → (workers q).crashed = true)
    (hEvicted : ∀ q, (s.workers q).pc.generating = true →
      (workers q).evicted = (s.workers q).evicted) : Membership { s with workers } := by
  have hLive : ∀ q, (workers q).crashed = false → (s.workers q).crashed = false := by
    intro q hq
    by_contra hOld
    simp [hCrashed q (by simpa using hOld)] at hq
  refine ⟨fun i q hi hq => ?_, fun i q hq hPolling => ?_, fun i q hq hSlot hRunning => ?_⟩
  · rw [hPc] at hq ⊢
    exact (h.leaves i q hi hq).imp (hCrashed q) id
  · rw [hPc] at hPolling
    rw [hEvicted q (by rw [hPolling]; rfl)]
    exact h.waiting i q (hLive q hq) hPolling
  · rw [hPc] at hSlot hRunning
    rw [hEvicted q (by
      revert hRunning
      cases (s.workers q).pc <;> simp [WorkerPc.running, WorkerPc.generating])]
    exact h.running i q (hLive q hq) hSlot hRunning

/-- The leave bit of a slot is set when its worker has left or has crashed. -/
theorem Membership.signalLeave (h : Membership s)
    (hLeft : ∀ q, (s.workers q).pc.slot = some i →
      (s.workers q).crashed = true ∨ (s.workers q).pc.left = true) :
    Membership (s.signalLeave i) := by
  refine ⟨fun j q hj hq => ?_, h.waiting, h.running⟩
  by_cases hji : j = i
  · subst hji
    exact hLeft q hq
  · refine h.leaves j q ?_ hq
    simpa [State.leavePending, State.signalLeave, ControlBlock.slot_signal_leave, hji] using hj

theorem Membership.advance {l : Label} {pc : WorkerPc} (h : Membership s) (hTenancy : Tenancy s)
    (hMove : Advance c s p l (s.workers p).pc pc) : Membership (s.setPc p pc) := by
  generalize hPc : (s.workers p).pc = old at hMove
  cases hMove with
  | @activated i v b hActive =>
      refine h.setPc _ (fun j hj hLeaving => ?_) (by simp) fun j hj _ hLive => ?_
      all_goals obtain rfl := Option.some.inj hj
      · refine (h.leaves i p hLeaving (by rw [hPc]; rfl)).imp id fun hLeft => ?_
        simp [hPc, WorkerPc.left] at hLeft
      · rcases h.waiting i p hLive hPc with hPending | hIn
        · have hInactive := (hTenancy.pending i hPending).1
          simp only [ControlBlock.slot_is_active] at hActive
          simp [State.isActive, hActive] at hInactive
        · exact hIn
  | failPending hPending =>
      rcases hPending with rfl | rfl <;>
        exact h.advancePc _ (by rw [hPc]; rfl) (by simp [hPc, WorkerPc.left]) (by simp)
          (by simp [WorkerPc.running])
  | failActive hRunning =>
      rcases hRunning with rfl | rfl | ⟨k, stage, rfl, -⟩ <;>
        exact h.advancePc _ (by rw [hPc]; rfl) (by simp [hPc, WorkerPc.left]) (by simp)
          (by simp [WorkerPc.running])
  | _ =>
      exact h.advancePc _ (by rw [hPc]; rfl) (by simp [hPc, WorkerPc.left]) (by simp)
        (by simp [hPc, WorkerPc.running])

theorem Membership.worker {l : Label} (h : Membership s) (hTenancy : Tenancy s)
    (hMove : WorkerMove c s p l s') : Membership s' := by
  have hStill := h.advancePc (p := p)
  cases hMove with
  | advance hMove => exact h.advance hTenancy hMove
  | @join i _ _ hPc =>
      have hMoved : Membership { s with
          ctrl := s.ctrl.slot_signal_join i
          joinTag := Function.update s.joinTag i (s.tenancy i) } := by
        refine ⟨h.leaves, fun j q hLive hq => ?_, h.running⟩
        refine (h.waiting j q hLive hq).imp (fun hPending => ?_) id
        simp only [State.joinPending, ControlBlock.slot_signal_join, SlotMask.test_bit_set_bit,
          Bool.or_eq_true] at hPending ⊢
        tauto
      refine hMoved.setPc (p := p) (.polling i) (fun j hj hLeaving => ?_) (fun j hj => ?_)
        (by simp [WorkerPc.running])
      · refine (h.leaves j p hLeaving (by rw [hPc]; exact hj)).imp id fun hLeft => ?_
        simp [hPc, WorkerPc.left] at hLeft
      · obtain rfl := WorkerPc.polling.inj hj
        simp [State.joinPending, ControlBlock.slot_signal_join]
  | @sample i k e x _ _ hPc hLast =>
      have hMoved := hStill (.tokenEnd i) (by rw [hPc]; rfl) (by simp [hPc, WorkerPc.left]) (by simp)
        (by simp [hPc, WorkerPc.running])
      refine hMoved.withWorkers _ ?_ ?_ ?_ <;> intro q <;> by_cases hq : q = p
      · subst hq
        simp
      · simp [hq]
      · subst hq
        simp
      · simp [hq]
      · subst hq
        simp [State.setPc]
      · simp [hq, State.setPc]
  | @leave i f _ _ hPc =>
      have hMoved := hStill (if f then .awaitLeave i else .release i false)
        (by rw [hPc]; cases f <;> rfl) (by simp [hPc, WorkerPc.left]) (by cases f <;> simp)
        (by cases f <;> simp [WorkerPc.running])
      have hSignalled := hMoved.signalLeave (i := i) fun q hq => by
        rw [State.setPc_pc] at hq ⊢
        split at hq
        next hqp =>
          rw [if_pos hqp]
          exact .inr (by cases f <;> rfl)
        next hqp => exact absurd (hTenancy.holder_unique hq (by rw [hPc]; rfl)) hqp
      exact { hSignalled with }
  | @evicted i _ _ hPc _ =>
      exact { hStill (.leave i false) (by rw [hPc]; rfl) (by simp [hPc, WorkerPc.left]) (by simp)
        (by simp [WorkerPc.running]) with }
  | @prepare i k e v _ hPc =>
      exact { hStill (.op i k (.submit e v .loadHead)) (by rw [hPc]; rfl)
        (by simp [hPc, WorkerPc.left]) (by simp) (by simp [hPc, WorkerPc.running]) with }
  | @submit i k e x spc _ b hPc =>
      have hMoved := hStill
        (.submitted i k e x (s.ring.submit Submission.layout (c.submission k i p e) b spc).2)
        (by rw [hPc, WorkerPc.submitted_slot]; rfl) (by simp [hPc, WorkerPc.left])
        (by cases (s.ring.submit Submission.layout (c.submission k i p e) b spc).2 <;>
          simp [WorkerPc.submitted])
        (by simp [hPc, WorkerPc.running])
      exact { hMoved with }
  | @signal i k e x _ _ hPc =>
      exact { hStill (.op i k (.wait e x)) (by rw [hPc]; rfl) (by simp [hPc, WorkerPc.left])
        (by simp) (by simp [hPc, WorkerPc.running]) with }
  | claimThrew hPc _ | finish hPc _ =>
      exact { hStill .idle (by rw [hPc]; rfl) (by simp [hPc, WorkerPc.left]) (by simp)
        (by simp [WorkerPc.running]) with }
  | @claimReturned i _ _ hPc _ =>
      exact { hStill (.prepared i) (by rw [hPc]; rfl) (by simp [hPc, WorkerPc.left]) (by simp)
        (by simp [WorkerPc.running]) with }
  | @release i f _ _ hPc =>
      exact { hStill (.releasing i f) (by rw [hPc]; rfl) (fun _ => rfl) (by simp)
        (by simp [WorkerPc.running]) with }
  | releaseThrew hPc hCall =>
      have hc := hTenancy.coherent p
      rw [hCall] at hc
      exact hc.2.elim

theorem Membership.call (h : Membership s) (hMove : CallMove s p s')
    (hFresh : ∀ w i, s.calls p = .claim w (.storeOwner i) → s.leavePending i = false) :
    Membership s' := by
  cases hMove with
  | @own w i hCall =>
      have hMoved := h.setPc (p := p) (.claimed i) (fun j hj hLeaving => ?_) (by simp)
        (by simp [WorkerPc.running])
      · exact { hMoved with }
      · obtain rfl := Option.some.inj hj
        simp [hFresh w i hCall] at hLeaving
  | @giveUp w i hCall hOwner =>
      have hMoved := h.setPc (p := p) (.released (s.workers p).pc.succeeded)
        (by simp [WorkerPc.slot]) (by simp) (by simp [WorkerPc.slot])
      exact { hMoved with }
  | _ => exact { h with }

theorem Membership.move {l : Label} (h : Membership s) (hLocals : Locals s) (hTenancy : Tenancy s)
    (hMove : Move c s l s') (hUnleft : Unleft s l) : Membership s' := by
  cases hMove with
  | worker hLive hMove => exact h.worker hTenancy hMove
  | call hMove =>
      exact h.call hMove fun w i hCall => hUnleft i (by simp [State.claims, hCall])
  | aggregate hMove => exact h.aggregate hLocals hMove
  | @request q _ _ w hPc hLive hWorker =>
      have hMoved := h.setPc (p := q) .claiming (by simp [WorkerPc.slot]) (by simp)
        (by simp [WorkerPc.slot])
      have hFresh := hMoved.withWorkers (Function.update s.workers q w)
        (fun r => by by_cases hrq : r = q <;> simp [hrq, hWorker])
        (fun r => by by_cases hrq : r = q <;> simp [hrq, hWorker, State.setPc])
        (fun r hr => by
          by_cases hrq : r = q
          · subst hrq
            simp [WorkerPc.generating] at hr
          · simp [hrq, State.setPc])
      exact { hFresh with }
  | @crash q hLive =>
      exact h.withWorkers (Function.update s.workers q { s.workers q with crashed := true })
        (fun r => by by_cases hrq : r = q <;> simp [hrq])
        (fun r => by by_cases hrq : r = q <;> simp [hrq])
        (fun r _ => by by_cases hrq : r = q <;> simp [hrq])
  | @disconnect q i hCrashed _ _ hOwner =>
      have hSignalled := h.signalLeave (i := i) fun r hr => by
        obtain rfl := hTenancy.holder_unique ((hTenancy.holder i q).mp hOwner) hr
        exact .inl hCrashed
      have hMoved := hSignalled.withWorkers
        (Function.update s.workers q { s.workers q with handler := .sleeping i })
        (fun r => by by_cases hrq : r = q <;> simp [hrq, State.signalLeave])
        (fun r => by by_cases hrq : r = q <;> simp [hrq, State.signalLeave])
        (fun r _ => by by_cases hrq : r = q <;> simp [hrq, State.signalLeave])
      exact { hMoved with }
  | @deferredRelease q i hSleeping =>
      have hMoved := h.withWorkers
        (Function.update s.workers q { s.workers q with handler := .done })
        (fun r => by by_cases hrq : r = q <;> simp [hrq])
        (fun r => by by_cases hrq : r = q <;> simp [hrq])
        (fun r _ => by by_cases hrq : r = q <;> simp [hrq])
      exact { hMoved with }

theorem Membership.initial (h : Initial s) : Membership s := by
  refine ⟨fun i p hi => ?_, fun i p _ hp => ?_, fun i p _ hp => ?_⟩
  · simp [(h.unmarked i).2.1] at hi
  · simp [(h.workers p).1] at hp
  · simp [(h.workers p).1, WorkerPc.slot] at hp

theorem membership_of_reach {guard : State → Label → Prop}
    (hGuard : ∀ s l, guard s l → Unmarked s l ∧ Unleft s l) (run : (machine c).Reach guard s) :
    Membership s :=
  run.invariant_of_reach Membership (fun _ => Membership.initial) fun _ _ _ prior h hMeets hStep =>
    h.move (locals_of_reach prior) (tenancy_of_reach (fun s l hs => (hGuard s l hs).1) prior)
      (move_of_step hStep) (hGuard _ _ hMeets).2

end Barrier
