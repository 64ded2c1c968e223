import SwarmLoRA.Barrier.Moves

namespace Barrier

open Ipc Aggregator Machine

namespace WorkerPc

/-- The slot is the worker's but no join has been signalled for it. -/
def unjoined : WorkerPc → Bool
  | .claimed _ | .prepared _ => true
  | _ => false

/-- A join that the worker has signalled may still be pending. -/
def joining : WorkerPc → Bool
  | .polling _ | .leave _ false | .release _ false | .releasing _ false => true
  | _ => false

end WorkerPc

namespace State

/-- A join is pending in shared memory or in the local copy of the main loop. -/
def joinPending (s : State) (i : Slot) : Bool :=
  s.ctrl.pending_slot_joins.test_bit i || s.agg.joins.test_bit i

def leavePending (s : State) (i : Slot) : Bool :=
  s.ctrl.pending_slot_leaves.test_bit i || s.agg.leaves.test_bit i

/-- The slot is active for the main loop or is shown to the workers as active. -/
def isActive (s : State) (i : Slot) : Bool :=
  s.agg.active_mask.test_bit i || s.ctrl.active_slot_mask.test_bit i

end State

/-- The position of a worker while its connection thread is at this point. -/
def Coherent (p : Nat) (w : Worker) : Call → Prop
  | .idle => True
  | .claim q pc => q = p ∧
      match pc with
      | .scrubReady i _ | .scrubEvicted i _ | .returned i => w.pc = .claimed i
      | _ => w.pc = .claiming
  | .release q pc => q = p ∧
      match pc with
      | .casOwner i => w.pc.slot = some i ∧ (w.crashed = true ∨ ∃ f, w.pc = .releasing i f)
      | .threw => False
      | _ => ∃ f, w.pc = .released f

/-- The worker that the pool records is the one that believes to hold the slot, and
no bit is left over from an earlier tenancy. -/
structure Tenancy (s : State) : Prop where
  pool : s.pool.Consistent s.calls
  owner : ∀ i, s.pool.owner_worker_id i = -1 ∨ ∃ p : Nat, s.pool.owner_worker_id i = p
  holder : ∀ i (p : Nat), s.pool.owner_worker_id i = (p : Int) ↔ (s.workers p).pc.slot = some i
  coherent : ∀ p, Coherent p (s.workers p) (s.calls p)
  sleeping : ∀ p i, (s.workers p).handler = .sleeping i →
    (s.workers p).crashed = true ∧ (s.workers p).pc.slot = some i ∧ s.calls p = .idle
  once : ∀ i, s.ctrl.pending_slot_joins.test_bit i = true → s.agg.joins.test_bit i = false
  pending : ∀ i, s.joinPending i = true → s.isActive i = false ∧ s.joinTag i = s.tenancy i
  joining : ∀ i p, s.joinPending i = true → (s.workers p).pc.slot = some i →
    (s.workers p).pc.joining = true
  processed : ∀ i, s.isActive i = true → s.processedTag i = s.tenancy i
  joined : ∀ i p, s.isActive i = true → (s.workers p).pc.slot = some i →
    (s.workers p).pc.unjoined = false

/-- The condition on a step: a new owner is stored only for a slot that is not active
and has no join pending. -/
def Unmarked (s : State) (l : Label) : Prop :=
  ∀ i ∈ s.claims l, s.isActive i = false ∧ s.joinPending i = false

variable {c : Config} {s s' : State} {p : Nat}

theorem Tenancy.holder_unique (h : Tenancy s) {i : Slot} {q : Nat}
    (hp : (s.workers p).pc.slot = some i) (hq : (s.workers q).pc.slot = some i) : p = q := by
  have hp := (h.holder i p).mpr hp
  rw [(h.holder i q).mpr hq] at hp
  omega

/-- The slot of a worker is one of the pool, and no call is about to hand it out. -/
theorem Tenancy.held (h : Tenancy s) {i : Slot} (hSlot : (s.workers p).pc.slot = some i) :
    (i : Int) < s.pool.num_slots ∧ ∀ t, (s.calls t).carried ≠ some i := by
  refine h.pool.owned i ?_
  rw [(h.holder i p).mpr hSlot]
  omega

/-- While a live worker is not waiting for its connection thread, the thread has
nothing to do. -/
theorem Tenancy.call_idle (h : Tenancy s) {i : Slot} (hLive : (s.workers p).crashed = false)
    (hSlot : (s.workers p).pc.slot = some i) (hClaimed : (s.workers p).pc ≠ .claimed i)
    (hReleasing : ∀ f, (s.workers p).pc ≠ .releasing i f) : s.calls p = .idle := by
  have hc := h.coherent p
  cases hCall : s.calls p with
  | idle => rfl
  | claim q pc =>
      rw [hCall] at hc
      cases pc <;> simp_all [Coherent, WorkerPc.slot]
  | release q pc =>
      rw [hCall] at hc
      cases pc with
      | casOwner j =>
          obtain ⟨-, hj, hCrashed | ⟨f, hPc⟩⟩ := hc
          · simp [hLive] at hCrashed
          · rw [hPc, WorkerPc.slot, Option.some.injEq] at hSlot
            exact absurd (hSlot ▸ hPc) (hReleasing f)
      | threw => exact hc.2.elim
      | setFree j =>
          obtain ⟨-, f, hPc⟩ := hc
          simp [hPc, WorkerPc.slot] at hSlot
      | clearActive j k =>
          obtain ⟨-, f, hPc⟩ := hc
          simp [hPc, WorkerPc.slot] at hSlot
      | returned =>
          obtain ⟨-, f, hPc⟩ := hc
          simp [hPc, WorkerPc.slot] at hSlot

theorem Tenancy.idle_call (h : Tenancy s) (hPc : (s.workers p).pc = .idle) :
    s.calls p = .idle := by
  have hc := h.coherent p
  cases hCall : s.calls p with
  | idle => rfl
  | claim w pc =>
      rw [hCall] at hc
      cases pc <;> simp_all [Coherent]
  | release w pc =>
      rw [hCall] at hc
      cases pc <;> simp_all [Coherent, WorkerPc.slot]

/-- A worker moves on with the same slot or with none before and after. -/
theorem Tenancy.setPc (h : Tenancy s) (pc : WorkerPc)
    (hSlot : pc.slot = (s.workers p).pc.slot)
    (hCall : Coherent p { s.workers p with pc } (s.calls p))
    (hJoining : ∀ i, pc.slot = some i → s.joinPending i = true → pc.joining = true)
    (hJoined : ∀ i, pc.slot = some i → s.isActive i = true → pc.unjoined = false) :
    Tenancy (s.setPc p pc) := by
  have hSame : ∀ q, ((s.setPc p pc).workers q).pc.slot = (s.workers q).pc.slot := by
    intro q
    by_cases hq : q = p
    · subst hq
      simp [hSlot]
    · simp [hq]
  refine ⟨h.pool, h.owner, ?_, ?_, ?_, h.once, h.pending, ?_, h.processed, ?_⟩
  · intro i q
    rw [hSame]
    exact h.holder i q
  · intro q
    by_cases hq : q = p
    · subst hq
      simpa [State.setPc] using hCall
    · simpa [State.setPc, hq] using h.coherent q
  · intro q i hSleeping
    rw [State.setPc_handler] at hSleeping
    rw [State.setPc_crashed, hSame]
    exact h.sleeping q i hSleeping
  · intro i q hPending hq
    by_cases hqp : q = p
    · subst hqp
      rw [State.setPc_pc, if_pos rfl] at hq ⊢
      exact hJoining i hq hPending
    · rw [State.setPc_pc, if_neg hqp] at hq ⊢
      exact h.joining i q hPending hq
  · intro i q hActive hq
    by_cases hqp : q = p
    · subst hqp
      rw [State.setPc_pc, if_pos rfl] at hq ⊢
      exact hJoined i hq hActive
    · rw [State.setPc_pc, if_neg hqp] at hq ⊢
      exact h.joined i q hActive hq

/-- A call is begun or forgotten. -/
theorem Tenancy.setCall (h : Tenancy s) (call : Call)
    (hBefore : (s.calls p).carried = none) (hAfter : call.carried = none)
    (hExpected : ∀ w i x, call ≠ .claim w (.casWord i x))
    (hHandler : ∀ i, (s.workers p).handler = .sleeping i → call = .idle)
    (hCall : Coherent p (s.workers p) call) : Tenancy (s.setCall p call) := by
  refine ⟨?_, h.owner, h.holder, ?_, ?_, h.once, h.pending, h.joining, h.processed, h.joined⟩
  · exact h.pool.move rfl rfl rfl hBefore hAfter fun w i x hEq => absurd hEq (hExpected w i x)
  · intro q
    by_cases hq : q = p
    · subst hq
      simpa [State.setCall] using hCall
    · simpa [State.setCall, hq] using h.coherent q
  · intro q i hSleeping
    obtain ⟨hCrashed, hSlot, hIdle⟩ := h.sleeping q i hSleeping
    refine ⟨hCrashed, hSlot, ?_⟩
    by_cases hq : q = p
    · subst hq
      simpa [State.setCall] using hHandler i hSleeping
    · simpa [State.setCall, hq] using hIdle

/-- Nothing but the positions, the crashes and the disconnect handlers matters. -/
theorem Tenancy.withWorkers (h : Tenancy s) (workers : Nat → Worker)
    (hPc : ∀ q, (workers q).pc = (s.workers q).pc)
    (hCrashed : ∀ q, (s.workers q).crashed = true → (workers q).crashed = true)
    (hSleeping : ∀ q i, (workers q).handler = .sleeping i →
      (workers q).crashed = true ∧ (s.workers q).pc.slot = some i ∧ s.calls q = .idle) :
    Tenancy { s with workers } := by
  refine ⟨h.pool, h.owner, ?_, ?_, ?_, h.once, h.pending, ?_, h.processed, ?_⟩
  · simpa only [hPc] using h.holder
  · intro q
    have hc := h.coherent q
    cases hCall : s.calls q with
    | idle => trivial
    | claim w pc =>
        rw [hCall] at hc
        cases pc <;> simpa only [Coherent, hPc] using hc
    | release w pc =>
        rw [hCall] at hc
        cases pc with
        | casOwner i =>
            obtain ⟨hw, hSlot, hWhy⟩ := hc
            exact ⟨hw, by rw [hPc]; exact hSlot, hWhy.imp (hCrashed q) (by rw [hPc]; exact id)⟩
        | _ => simpa only [Coherent, hPc] using hc
  · simpa only [hPc] using hSleeping
  · intro i q hPending
    rw [hPc]
    exact h.joining i q hPending
  · intro i q hActive
    rw [hPc]
    exact h.joined i q hActive

/-- What the main loop may do to the masks: joins only go away, a slot becomes active
only by a pending join, and what is shown was active before. -/
structure MaskFrame (s s' : State) : Prop where
  once : ∀ i, s'.ctrl.pending_slot_joins.test_bit i = true → s'.agg.joins.test_bit i = false
  joins : ∀ i, s'.joinPending i = true → s.joinPending i = true
  active : ∀ i, s'.isActive i = true → s.isActive i = true ∨
    (s.joinPending i = true ∧ s'.joinPending i = false ∧ s'.processedTag i = s.joinTag i)
  processed : ∀ i, s'.processedTag i = s.processedTag i ∨ s.joinPending i = true

theorem MaskFrame.of_active (h : Tenancy s)
    (hJoins : s'.ctrl.pending_slot_joins = s.ctrl.pending_slot_joins)
    (hLocal : s'.agg.joins = s.agg.joins) (hProcessed : s'.processedTag = s.processedTag)
    (hActive : ∀ i, s'.isActive i = true → s.isActive i = true) : MaskFrame s s' := by
  refine ⟨?_, ?_, fun i hi => .inl (hActive i hi), fun i => .inl (by rw [hProcessed])⟩
  · simpa only [hJoins, hLocal] using h.once
  · intro i
    simp only [State.joinPending, hJoins, hLocal]
    exact id

theorem word_eq_one {i : Slot} (h : wordIndex i ≠ 0) : wordIndex i = 1 := by omega

theorem AggregateMove.maskFrame {timer : Bool} {sample : Slot → Nat} (h : Tenancy s)
    (hMove : AggregateMove c s timer sample s') : MaskFrame s s' := by
  have hShown : ∀ k i, (s.ctrl.active_slot_mask.copyWord k s.agg.active_mask).test_bit i = true →
      s.isActive i = true := by
    intro k i hi
    simp only [SlotMask.test_bit_copyWord] at hi
    unfold State.isActive
    split at hi <;> simp [hi]
  cases hMove with
  | exchangeJoins hPc =>
      refine ⟨?_, ?_, fun i hi => .inl hi, fun i => .inl rfl⟩ <;> intro i hi
      · have := h.once i
        simp only [SlotMask.test_bit_copyWord, SlotMask.test_bit_zero] at hi ⊢
        split at hi
        next => simp at hi
        next hw => simp [hw, this hi]
      · simp only [State.joinPending, SlotMask.test_bit_copyWord, SlotMask.test_bit_zero] at hi ⊢
        split at hi <;> simp_all
  | applyJoins hPc hJoins =>
      have hBit := congrArg (·.test_bit) hJoins
      simp only [funext_iff, SlotMask.test_bit_copyWord] at hBit
      refine ⟨fun i _ => SlotMask.test_bit_zero i, ?_, ?_, ?_⟩ <;> intro i
      · simp only [State.joinPending, SlotMask.test_bit_copyWord, SlotMask.test_bit_zero]
        split <;> simp +contextual
      · intro hi
        have hOnce := h.once i
        simp only [State.isActive, State.joinPending, SlotMask.test_bit_or,
          SlotMask.test_bit_copyWord, SlotMask.test_bit_zero, hBit] at hi ⊢
        by_cases hw : wordIndex i = 1 <;> simp only [hw, if_true, if_false] at hi ⊢ <;>
          cases hJ : s.ctrl.pending_slot_joins.test_bit i <;>
          cases hL : s.agg.joins.test_bit i <;> simp_all
      · simp only [State.joinPending, hBit]
        by_cases hw : wordIndex i = 1 <;> simp only [hw, if_true, if_false] <;>
          cases s.ctrl.pending_slot_joins.test_bit i <;> cases s.agg.joins.test_bit i <;> simp
  | applyLeaves hPc =>
      refine .of_active h rfl rfl rfl fun i hi => ?_
      simp only [State.isActive, SlotMask.test_bit_and] at hi ⊢
      grind
  | midLeaves hPc hLeaving =>
      refine .of_active h rfl rfl rfl fun i hi => ?_
      simp only [State.isActive, SlotMask.test_bit_and] at hi ⊢
      grind
  | evict hPc hStuck =>
      refine .of_active h rfl rfl rfl fun i hi => ?_
      simp only [State.isActive, SlotMask.test_bit_and] at hi ⊢
      grind
  | storeActive hPc | storedNone hPc hEmpty | storedActive hPc hSome | storeMidLeaves hPc
  | storeEvicted hPc =>
      refine .of_active h rfl rfl rfl fun i hi => ?_
      rcases Bool.or_eq_true .. |>.mp hi with hi | hi
      · simp [State.isActive, hi]
      · exact hShown _ i hi
  | droppedEmpty _ _ _ | advanceEpoch _ _ =>
      exact .of_active h rfl (nextOp_joins ..) rfl fun i hi => by
        simpa only [State.isActive, nextOp_active_mask] using hi
  | _ => exact .of_active h rfl rfl rfl fun i hi => hi

theorem Tenancy.aggregate {timer : Bool} {sample : Slot → Nat} (h : Tenancy s)
    (hMove : AggregateMove c s timer sample s') : Tenancy s' := by
  have hMask := hMove.maskFrame h
  have hFrame := hMove.frame
  have hPc := hMove.worker_pc
  refine ⟨?_, ?_, ?_, ?_, ?_, hMask.once, ?_, ?_, ?_, ?_⟩
  · rw [hFrame.pool, hFrame.calls]
    exact h.pool
  · rw [hFrame.pool]
    exact h.owner
  · simpa only [hFrame.pool, hPc] using h.holder
  · intro p
    obtain ⟨_, hp⟩ := hFrame.workers p
    rw [hFrame.calls, hp]
    exact h.coherent p
  · intro p
    obtain ⟨_, hp⟩ := hFrame.workers p
    rw [hFrame.calls, hp]
    exact h.sleeping p
  · intro i hPending
    obtain ⟨hActive, hTag⟩ := h.pending i (hMask.joins i hPending)
    rw [hFrame.joinTag, hFrame.tenancy]
    refine ⟨?_, hTag⟩
    by_contra hNow
    rcases hMask.active i (by simpa using hNow) with hOld | ⟨-, hGone, -⟩
    · simp [hActive] at hOld
    · simp [hGone] at hPending
  · intro i p hPending hp
    rw [hPc] at hp ⊢
    exact h.joining i p (hMask.joins i hPending) hp
  · intro i hActive
    rw [hFrame.tenancy]
    rcases hMask.active i hActive with hOld | ⟨hPending, -, hTag⟩
    · rcases hMask.processed i with hSame | hPending
      · rw [hSame, h.processed i hOld]
      · simp [(h.pending i hPending).1] at hOld
    · rw [hTag, (h.pending i hPending).2]
  · intro i p hActive hp
    rw [hPc] at hp ⊢
    rcases hMask.active i hActive with hOld | ⟨hPending, -, -⟩
    · exact h.joined i p hOld hp
    · have := h.joining i p hPending hp
      revert this
      cases (s.workers p).pc <;> simp [WorkerPc.joining, WorkerPc.unjoined]

/-- A live worker with a slot moves on. A join that it has signalled is no longer
pending when it leaves the positions in which it may be. -/
theorem Tenancy.move (h : Tenancy s) (pc : WorkerPc) {i : Slot}
    (hLive : (s.workers p).crashed = false) (hOld : (s.workers p).pc.slot = some i)
    (hClaimed : (s.workers p).pc ≠ .claimed i) (hReleasing : ∀ f, (s.workers p).pc ≠ .releasing i f)
    (hNew : pc.slot = some i) (hUnjoined : pc.unjoined = false)
    (hJoining : pc.joining = true ∨ (s.workers p).pc.joining = false ∨ s.isActive i = true) :
    Tenancy (s.setPc p pc) := by
  have hIdle := h.call_idle hLive hOld hClaimed hReleasing
  refine h.setPc pc (by rw [hNew, hOld]) (by rw [hIdle]; trivial) ?_ fun _ _ _ => hUnjoined
  intro j hj hPending
  obtain rfl := Option.some.inj (hNew.symm.trans hj)
  rcases hJoining with hPc | hPc | hActive
  · exact hPc
  · simp [h.joining i p hPending hOld] at hPc
  · simp [(h.pending i hPending).1] at hActive

theorem Tenancy.advance {l : Label} {pc : WorkerPc} (h : Tenancy s)
    (hLive : (s.workers p).crashed = false) (hMove : Advance c s p l (s.workers p).pc pc) :
    Tenancy (s.setPc p pc) := by
  generalize hPc : (s.workers p).pc = old at hMove
  cases hMove with
  | activated hActive =>
      exact h.move _ hLive (by rw [hPc]; rfl) (by simp [hPc]) (by simp [hPc]) rfl rfl
        (.inr (.inr (by simpa [State.isActive] using .inr hActive)))
  | notActivated hActive =>
      exact h.move _ hLive (by rw [hPc]; rfl) (by simp [hPc]) (by simp [hPc]) rfl rfl (.inl rfl)
  | failPending hPending =>
      rcases hPending with rfl | rfl <;>
        exact h.move _ hLive (by rw [hPc]; rfl) (by simp [hPc]) (by simp [hPc]) rfl rfl (.inl rfl)
  | failActive hRunning =>
      rcases hRunning with rfl | rfl | ⟨k, stage, rfl, -⟩ <;>
        exact h.move _ hLive (by rw [hPc]; rfl) (by simp [hPc]) (by simp [hPc]) rfl rfl (.inl rfl)
  | _ =>
      exact h.move _ hLive (by rw [hPc]; rfl) (by simp [hPc]) (by simp [hPc]) rfl rfl
        (.inr (.inl (by rw [hPc]; rfl)))

/-- The range check of a release passes for every slot that has an owner. -/
theorem Tenancy.release_slot_entry (h : Tenancy s) {i : Slot}
    (hSlot : (s.workers p).pc.slot = some i) : release_slot_entry s.pool i = .casOwner i := by
  have hLt := (h.held hSlot).1
  have hi := i.isLt
  unfold Aggregator.release_slot_entry slotOf
  rw [if_neg (by omega), dif_pos (by omega)]
  simp

theorem WorkerPc.submitted_slot (i : Slot) (k e x : Nat) (spc : SubmitPc) :
    (WorkerPc.submitted i k e x spc).slot = some i := by
  cases spc <;> rfl

theorem WorkerPc.submitted_unjoined (i : Slot) (k e x : Nat) (spc : SubmitPc) :
    (WorkerPc.submitted i k e x spc).unjoined = false := by
  cases spc <;> rfl

/-- A live worker is not in a handler that sleeps. -/
theorem Tenancy.awake (h : Tenancy s) (hLive : (s.workers p).crashed = false) {i : Slot}
    (hHandler : (s.workers p).handler = .sleeping i) : False := by
  simp [(h.sleeping p i hHandler).1] at hLive

/-- A call of a live worker that carries no slot leaves nothing to keep. -/
theorem Tenancy.forget (h : Tenancy s) (hLive : (s.workers p).crashed = false)
    (hCarried : (s.calls p).carried = none) : Tenancy (s.setCall p .idle) :=
  h.setCall .idle hCarried rfl (by simp) (fun _ hi => (h.awake hLive hi).elim) trivial

/-- The slot that a claim has returned has no marks of its new owner. -/
theorem Tenancy.claim_returned (h : Tenancy s) (hLive : (s.workers p).crashed = false) {i : Slot}
    (hPc : (s.workers p).pc = .claimed i) (hCall : s.calls p = .claim p (.returned i)) :
    Tenancy ((s.setCall p .idle).setPc p (.prepared i)) := by
  refine (h.forget hLive (by rw [hCall]; rfl)).setPc (.prepared i)
    (by rw [State.setCall]; simp [hPc, WorkerPc.slot])
    (by simp [State.setCall, Coherent]) ?_ ?_
  · intro j hj hPending
    have hJoining := h.joining j p hPending (by rw [hPc, ← hj]; rfl)
    simp [hPc, WorkerPc.joining] at hJoining
  · intro j hj hActive
    have hUnjoined := h.joined j p hActive (by rw [hPc, ← hj]; rfl)
    simp [hPc, WorkerPc.unjoined] at hUnjoined

/-- A join is signalled for a slot that is neither active nor pending, in the present tenancy. -/
theorem Tenancy.join (h : Tenancy s) (hLive : (s.workers p).crashed = false) {i : Slot}
    (hPc : (s.workers p).pc = .prepared i) :
    Tenancy { s.setPc p (.polling i) with
      ctrl := s.ctrl.slot_signal_join i
      joinTag := Function.update s.joinTag i (s.tenancy i) } := by
  have hSlot : (s.workers p).pc.slot = some i := by rw [hPc]; rfl
  have hMoved : Tenancy (s.setPc p (.polling i)) :=
    h.move _ hLive hSlot (by simp [hPc]) (by simp [hPc]) rfl rfl (.inl rfl)
  have hNone : s.joinPending i = false := by
    by_contra hPending
    have hJoining := h.joining i p (by simpa using hPending) hSlot
    simp [hPc, WorkerPc.joining] at hJoining
  have hInactive : s.isActive i = false := by
    by_contra hActive
    have hUnjoined := h.joined i p (by simpa using hActive) hSlot
    simp [hPc, WorkerPc.unjoined] at hUnjoined
  simp only [State.joinPending, Bool.or_eq_false_iff] at hNone
  have hSplit : ∀ j, State.joinPending { s.setPc p (.polling i) with
      ctrl := s.ctrl.slot_signal_join i
      joinTag := Function.update s.joinTag i (s.tenancy i) } j = true →
      j = i ∨ s.joinPending j = true := by
    intro j hj
    simpa [State.joinPending, State.setPc, ControlBlock.slot_signal_join, or_assoc] using hj
  refine ⟨hMoved.pool, hMoved.owner, hMoved.holder, hMoved.coherent, hMoved.sleeping, ?_, ?_,
    ?_, hMoved.processed, hMoved.joined⟩
  · intro j hj
    simp only [ControlBlock.slot_signal_join, SlotMask.test_bit_set_bit, Bool.or_eq_true,
      decide_eq_true_eq] at hj
    rcases hj with rfl | hj
    · exact hNone.2
    · exact h.once j hj
  · intro j hj
    by_cases hji : j = i
    · subst hji
      exact ⟨hInactive, by simp [State.setPc]⟩
    · have hOld := (hSplit j hj).resolve_left hji
      exact ⟨(h.pending j hOld).1, by
        simpa [Function.update_of_ne hji, State.setPc] using (h.pending j hOld).2⟩
  · intro j q hj hq
    rcases hSplit j hj with rfl | hOld
    · have hq' : q = p := by
        by_contra hne
        rw [State.setPc_pc, if_neg hne] at hq
        exact hne (h.holder_unique hq hSlot)
      subst hq'
      simp [WorkerPc.joining]
    · exact hMoved.joining j q hOld hq

/-- A worker reads the token of its last operation. -/
theorem Tenancy.sample (h : Tenancy s) (hLive : (s.workers p).crashed = false) {i : Slot}
    {k e x : Nat} (hPc : (s.workers p).pc = .op i k (.fetch e x)) (token : Token) :
    Tenancy { s with
      workers := Function.update s.workers p
        { takeToken (s.workers p) token with pc := .tokenEnd i } } := by
  have hMoved := h.move (.tokenEnd i) hLive (by rw [hPc]; rfl) (by simp [hPc])
    (by simp [hPc]) rfl rfl (.inr (.inl (by rw [hPc]; rfl)))
  refine hMoved.withWorkers _ ?_ ?_ ?_ <;> intro q <;> by_cases hq : q = p
  · subst hq
    simp
  · simp [hq]
  · subst hq
    simp
  · simp [hq]
  · subst hq
    intro j hj
    rw [Function.update_self] at hj
    exact (h.awake hLive (by simpa using hj)).elim
  · simpa [hq, State.setPc] using h.sleeping q

/-- A worker begins the release of its slot. -/
theorem Tenancy.begin_release (h : Tenancy s) (hLive : (s.workers p).crashed = false) {i : Slot}
    {f : Bool} (hPc : (s.workers p).pc = .release i f) :
    Tenancy ((s.setCall p (.release p (Aggregator.release_slot_entry s.pool i))).setPc p
      (.releasing i f)) := by
  have hSlot : (s.workers p).pc.slot = some i := by rw [hPc]; rfl
  have hMoved := h.move (.releasing i f) hLive hSlot (by simp [hPc]) (by simp [hPc])
    rfl rfl (by rw [hPc]; cases f <;> simp [WorkerPc.joining])
  have hIdle := h.call_idle hLive hSlot (by simp [hPc]) (by simp [hPc])
  rw [h.release_slot_entry hSlot]
  refine hMoved.setCall (p := p) (.release p (.casOwner i))
    (by simp [State.setPc, hIdle, Call.carried]) rfl (by simp) ?_ ?_
  · intro j hj
    rw [State.setPc_handler] at hj
    exact (h.awake hLive hj).elim
  · refine ⟨rfl, ?_, .inr ⟨f, ?_⟩⟩ <;> simp [WorkerPc.slot]

/-- What a live worker does on its own keeps the tenancies. -/
theorem Tenancy.worker {l : Label} (h : Tenancy s) (hLive : (s.workers p).crashed = false)
    (hMove : WorkerMove c s p l s') : Tenancy s' := by
  cases hMove with
  | advance hMove => exact h.advance hLive hMove
  | claimThrew hPc hCall =>
      exact (h.forget hLive (by rw [hCall]; rfl)).setPc .idle
        (by rw [State.setCall]; simp [hPc, WorkerPc.slot])
        (by simp [State.setCall, Coherent]) (by simp [WorkerPc.slot]) (by simp [WorkerPc.slot])
  | claimReturned hPc hCall => exact h.claim_returned hLive hPc hCall
  | join hPc => exact h.join hLive hPc
  | @evicted i _ _ hPc hEvicted =>
      have hMoved := h.move (.leave i false) hLive (by rw [hPc]; rfl) (by simp [hPc])
        (by simp [hPc]) rfl rfl (.inl rfl)
      exact { hMoved with }
  | @prepare i k e v _ hPc =>
      have hMoved := h.move (.op i k (.submit e v .loadHead)) hLive (by rw [hPc]; rfl)
        (by simp [hPc]) (by simp [hPc]) rfl rfl (.inr (.inl (by rw [hPc]; rfl)))
      exact { hMoved with }
  | @submit i k e x spc _ b hPc =>
      have hMoved := h.move _ hLive (by rw [hPc]; rfl) (by simp [hPc]) (by simp [hPc])
        (WorkerPc.submitted_slot i k e x
          (s.ring.submit Submission.layout (c.submission k i p e) b spc).2)
        (WorkerPc.submitted_unjoined ..) (.inr (.inl (by rw [hPc]; rfl)))
      exact { hMoved with }
  | @signal i k e x _ _ hPc =>
      have hMoved := h.move (.op i k (.wait e x)) hLive (by rw [hPc]; rfl) (by simp [hPc])
        (by simp [hPc]) rfl rfl (.inr (.inl (by rw [hPc]; rfl)))
      exact { hMoved with }
  | sample hPc hLast => exact h.sample hLive hPc _
  | @leave i f _ _ hPc =>
      have hMoved := h.move (if f then .awaitLeave i else .release i false) hLive
        (by rw [hPc]; rfl) (by simp [hPc]) (by simp [hPc]) (by cases f <;> rfl)
        (by cases f <;> rfl) (by rw [hPc]; cases f <;> simp [WorkerPc.joining])
      exact { hMoved with }
  | release hPc => exact h.begin_release hLive hPc
  | releaseThrew hPc hCall =>
      have hCoherent := h.coherent p
      rw [hCall] at hCoherent
      exact hCoherent.2.elim
  | finish hPc hCall =>
      have hCarried : (s.calls p).carried = none := by
        rcases hCall with hCall | ⟨w, hCall⟩ <;> rw [hCall] <;> rfl
      have hMoved := (h.forget hLive hCarried).setPc (p := p) .idle
        (by rw [State.setCall]; simp [hPc, WorkerPc.slot])
        (by simp [State.setCall, Coherent]) (by simp [WorkerPc.slot]) (by simp [WorkerPc.slot])
      exact { hMoved with }

/-- The owner that a claim stores gets a slot without marks. -/
theorem Tenancy.own {w : Nat} {i : Slot} (h : Tenancy s)
    (hCall : s.calls p = .claim w (.storeOwner i))
    (hFresh : s.isActive i = false ∧ s.joinPending i = false) :
    Tenancy { (s.setCall p (.claim w (.scrubReady i 0))).setPc p (.claimed i) with
      pool := (claim_slot s.pool w false (.storeOwner i)).1
      tenancy := Function.update s.tenancy i (s.tenancy i + 1) } := by
  have hc := h.coherent p
  rw [hCall] at hc
  obtain ⟨hwp, hPc⟩ := hc
  obtain rfl := Int.ofNat_inj.mp hwp
  have hUnowned : s.pool.owner_worker_id i = -1 := by
    by_contra hOwned
    exact (h.pool.owned i hOwned).2 w (by rw [hCall]; rfl)
  have hNobody : ∀ q, (s.workers q).pc.slot ≠ some i := by
    intro q hq
    have := (h.holder i q).mpr hq
    omega
  have hSlots : ∀ q j, ((s.setPc w (.claimed i)).workers q).pc.slot = some j ↔
      (q = w ∧ j = i) ∨ (q ≠ w ∧ (s.workers q).pc.slot = some j) := by
    intro q j
    by_cases hq : q = w
    · subst hq
      simp [WorkerPc.slot, eq_comm]
    · simp [hq]
  refine ⟨h.pool.claim_slot false (fun _ _ => by omega) hCall rfl, ?_, ?_, ?_, ?_, h.once, ?_, ?_, ?_, ?_⟩
  · intro j
    by_cases hj : j = i
    · subst hj
      exact .inr ⟨w, by simp [claim_slot]⟩
    · simpa [claim_slot, hj] using h.owner j
  · intro j q
    refine Iff.trans ?_ (hSlots q j).symm
    by_cases hj : j = i
    · subst hj
      simp [claim_slot, hNobody, eq_comm]
    · have : (s.workers w).pc.slot ≠ some j := by simp [hPc, WorkerPc.slot]
      by_cases hq : q = w
      · subst hq
        simpa [claim_slot, hj] using fun hOwner => this ((h.holder j q).mp hOwner)
      · simpa [claim_slot, hj, hq] using h.holder j q
  · intro q
    by_cases hq : q = w
    · subst hq
      simp [State.setCall, State.setPc, Coherent]
    · simpa [State.setCall, State.setPc, hq] using h.coherent q
  · intro q j hq
    change ((s.setPc w (.claimed i)).workers q).handler = _ at hq
    rw [State.setPc_handler] at hq
    obtain ⟨hCrashed, hSlot, hIdle⟩ := h.sleeping q j hq
    have hqw : q ≠ w := by
      rintro rfl
      simp [hPc, WorkerPc.slot] at hSlot
    simpa [State.setCall, State.setPc, hqw] using h.sleeping q j hq
  · intro j hj
    have hji : j ≠ i := by
      rintro rfl
      have : s.joinPending j = true := hj
      simp [hFresh.2] at this
    exact ⟨(h.pending j hj).1, by simpa [Function.update_of_ne hji] using (h.pending j hj).2⟩
  · intro j q hj hq
    rcases (hSlots q j).mp hq with ⟨-, rfl⟩ | ⟨hqw, hOld⟩
    · have : s.joinPending j = true := hj
      simp [hFresh.2] at this
    · simpa [State.setPc, hqw] using h.joining j q hj hOld
  · intro j hj
    have hji : j ≠ i := by
      rintro rfl
      have : s.isActive j = true := hj
      simp [hFresh.1] at this
    simpa [Function.update_of_ne hji] using h.processed j hj
  · intro j q hj hq
    rcases (hSlots q j).mp hq with ⟨-, rfl⟩ | ⟨hqw, hOld⟩
    · have : s.isActive j = true := hj
      simp [hFresh.1] at this
    · simpa [State.setPc, hqw] using h.joined j q hj hOld

theorem Tenancy.giveUp {w : Nat} {i : Slot} {f : Bool} (h : Tenancy s)
    (hCall : s.calls p = .release w (.casOwner i))
    (hOwner : s.pool.owner_worker_id i = (w : Int)) :
    Tenancy { (s.setCall p (.release w (.setFree i))).setPc p (.released f) with
      pool := (release_slot s.pool w (.casOwner i)).1 } := by
  have hc := h.coherent p
  rw [hCall] at hc
  obtain ⟨hwp, hSlot, -⟩ := hc
  obtain rfl := Int.ofNat_inj.mp hwp
  have hNext : release_slot s.pool w (.casOwner i) =
      ({ s.pool with owner_worker_id := Function.update s.pool.owner_worker_id i (-1) },
        .setFree i) := by
    simp [release_slot, hOwner]
  have hPool := h.pool.release_slot (fun _ _ _ => by omega) hCall hNext
  rw [hNext]
  have hSlots : ∀ q j, ((s.setPc w (.released f)).workers q).pc.slot = some j ↔
      q ≠ w ∧ (s.workers q).pc.slot = some j := by
    intro q j
    by_cases hq : q = w
    · subst hq
      simp [WorkerPc.slot]
    · simp [hq]
  refine ⟨hPool, ?_, ?_, ?_, ?_, h.once, h.pending, ?_, h.processed, ?_⟩
  · intro j
    by_cases hj : j = i
    · subst hj
      simp
    · simpa [hj] using h.owner j
  · intro j q
    refine Iff.trans ?_ (hSlots q j).symm
    by_cases hj : j = i
    · subst hj
      have : q ≠ w → (s.workers q).pc.slot ≠ some j := fun hq hSame =>
        hq (h.holder_unique hSame hSlot)
      simpa using this
    · by_cases hq : q = w
      · subst hq
        have : (s.workers q).pc.slot ≠ some j := by simp [hSlot, Ne.symm hj]
        simpa [hj] using fun hOwns => this ((h.holder j q).mp hOwns)
      · simpa [hj, hq] using h.holder j q
  · intro q
    by_cases hq : q = w
    · subst hq
      simp [State.setCall, State.setPc, Coherent]
    · simpa [State.setCall, State.setPc, hq] using h.coherent q
  · intro q j hq
    change ((s.setPc w (.released f)).workers q).handler = _ at hq
    rw [State.setPc_handler] at hq
    have hqw : q ≠ w := by
      rintro rfl
      simpa [hCall] using (h.sleeping q j hq).2.2
    simpa [State.setCall, State.setPc, hqw] using h.sleeping q j hq
  · intro j q hj hq
    obtain ⟨hqw, hOld⟩ := (hSlots q j).mp hq
    simpa [State.setPc, hqw] using h.joining j q hj hOld
  · intro j q hj hq
    obtain ⟨hqw, hOld⟩ := (hSlots q j).mp hq
    simpa [State.setPc, hqw] using h.joined j q hj hOld

/-- A step of a call that changes no owner. -/
theorem Tenancy.callStep {call : Call} {pool : SlotPool} (h : Tenancy s)
    (hPool : pool.Consistent (Function.update s.calls p call))
    (hOwner : pool.owner_worker_id = s.pool.owner_worker_id)
    (hBusy : s.calls p ≠ .idle) (hCall : Coherent p (s.workers p) call) :
    Tenancy { s.setCall p call with pool } := by
  refine ⟨hPool, ?_, ?_, ?_, ?_, h.once, h.pending, h.joining, h.processed, h.joined⟩
  · simpa only [hOwner] using h.owner
  · simpa only [hOwner, State.setCall_workers] using h.holder
  · intro q
    by_cases hq : q = p
    · subst hq
      simpa [State.setCall] using hCall
    · simpa [State.setCall, hq] using h.coherent q
  · intro q i hq
    have hqp : q ≠ p := by
      rintro rfl
      exact hBusy (h.sleeping q i hq).2.2
    simpa [State.setCall, hqp] using h.sleeping q i hq

theorem Tenancy.call (h : Tenancy s) (hMove : CallMove s p s')
    (hUnmarked : ∀ w i, s.calls p = .claim w (.storeOwner i) →
      s.isActive i = false ∧ s.joinPending i = false) : Tenancy s' := by
  have hc := h.coherent p
  cases hMove with
  | @search w b pc hCall hPc =>
      rw [hCall] at hc
      obtain rfl := hc.1
      refine h.callStep (h.pool.claim_slot b (fun _ _ => by omega) hCall rfl) ?_
        (by simp [hCall]) ?_
      · rcases hPc with ⟨k, m, rfl⟩ | ⟨i, x, rfl⟩ <;> simp only [claim_slot] <;> (try split) <;>
          (try split) <;> (try split) <;> rfl
      · rcases hPc with ⟨k, m, rfl⟩ | ⟨i, x, rfl⟩ <;> obtain ⟨-, hPc⟩ := hc <;>
          simp only [claim_slot] <;> (try split) <;> (try split) <;> (try split) <;>
          exact ⟨rfl, hPc⟩
  | own hCall =>
      rw [hCall] at hc
      obtain rfl := hc.1
      exact h.own hCall (hUnmarked _ _ hCall)
  | @scrubReady w i k hCall =>
      rw [hCall] at hc
      obtain rfl := hc.1
      have hMoved := h.callStep (p := p)
        (h.pool.claim_slot false (fun _ _ => by omega) hCall rfl) rfl
        (by simp [hCall]) (by by_cases hk : k = 0 <;> simpa [claim_slot, hk, Coherent] using hc)
      exact { hMoved with }
  | @scrubEvicted w i k hCall =>
      rw [hCall] at hc
      obtain rfl := hc.1
      have hMoved := h.callStep (p := p)
        (h.pool.claim_slot false (fun _ _ => by omega) hCall rfl) rfl
        (by simp [hCall]) (by by_cases hk : k = 0 <;> simpa [claim_slot, hk, Coherent] using hc)
      exact { hMoved with }
  | giveUp hCall hOwner =>
      rw [hCall] at hc
      obtain rfl := hc.1
      have hMoved := h.giveUp (f := (s.workers p).pc.succeeded) hCall hOwner
      exact { hMoved with }
  | @refuse w i hCall hOwner =>
      rw [hCall] at hc
      obtain ⟨rfl, hSlot, -⟩ := hc
      exact absurd ((h.holder i p).mpr hSlot) hOwner
  | @free w i hCall =>
      rw [hCall] at hc
      obtain rfl := hc.1
      exact h.callStep (h.pool.release_slot (fun _ _ _ => by omega) hCall rfl) rfl
        (by simp [hCall]) hc
  | @cleanUp w i k hCall =>
      rw [hCall] at hc
      obtain rfl := hc.1
      refine h.callStep (h.pool.release_slot (fun _ _ _ => by omega) hCall rfl) rfl
        (by simp [hCall]) ?_
      by_cases hk : k = 0 <;> simpa [hk, Coherent] using hc

theorem callOver_carried {call : Call} (h : callOver call = true) : call.carried = none := by
  cases call with
  | idle => rfl
  | claim w pc => cases pc <;> simp_all [callOver, Call.carried]
  | release w pc => cases pc <;> simp_all [callOver, Call.carried]

/-- No bit of any mask is set at the start. -/
theorem Initial.unmarked (h : Initial s) (i : Slot) :
    s.joinPending i = false ∧ s.leavePending i = false ∧ s.isActive i = false := by
  simp only [State.joinPending, State.leavePending, State.isActive, h.ctrl, h.agg,
    SlotMask.test_bit_zero, Bool.or_false, Bool.false_or]
  exact ⟨SlotMask.test_bit_zero i, SlotMask.test_bit_zero i, SlotMask.test_bit_zero i⟩

theorem Tenancy.initial (h : Initial s) : Tenancy s := by
  obtain ⟨cudaMalloc, num_slots, hidden_dim, intermediate_dim, num_kv_heads, head_dim,
    max_seq_per_step, dtype_size, hPool⟩ := h.pool
  simp only [init_slot_pool, Option.ite_none_left_eq_some, Option.ite_none_right_eq_some,
    Option.some.injEq] at hPool
  obtain ⟨-, -, hPool⟩ := hPool
  have hCarried : ∀ t, (s.calls t).carried = none := fun t => by rw [h.calls t]; rfl
  have hPc : ∀ p, (s.workers p).pc = .idle := fun p => (h.workers p).1
  refine ⟨⟨?_, ?_, ?_, ?_, ?_⟩, ?_, ?_, ?_, ?_, ?_, ?_, ?_, ?_, ?_⟩
  · intro i hFree
    simp only [← hPool, SlotMask.test_bit_all_below, decide_eq_true_eq] at hFree
    simp [← hPool, hCarried, hFree]
  · intro i hOwned
    simp [← hPool] at hOwned
  · intro t i hCarries
    simp [hCarried] at hCarries
  · intro i hi
    simp only [← hPool] at hi
    simp [← hPool, hi]
  · intro t w i x hCall
    simp [h.calls] at hCall
  · intro i
    simp [← hPool]
  · intro i p
    simp [← hPool, hPc, WorkerPc.slot]
  · intro p
    rw [h.calls]
    trivial
  · intro p i hp
    simp [(h.workers p).2.2] at hp
  · intro i
    simp [h.agg]
  all_goals
    intro i
    simp [(h.unmarked i).1, (h.unmarked i).2.2]

theorem Tenancy.step {l : Label} (h : Tenancy s) (hUnmarked : Unmarked s l)
    (hStep : step c s l = some s') : Tenancy s' := by
  cases move_of_step hStep with
  | @request q _ _ w hPc hLive hWorker =>
      subst hWorker
      have hIdle := h.idle_call hPc
      have hAwake : ∀ i, (s.workers q).handler ≠ .sleeping i := fun i hi => by
        simp [(h.sleeping q i hi).1] at hLive
      have hMoved := h.setPc (p := q) .claiming (by rw [hPc]; rfl) (by rw [hIdle]; trivial)
        (by simp [WorkerPc.slot]) (by simp [WorkerPc.slot])
      have hCalled := hMoved.setCall (p := q) (.claim q (.loadFree 0 {}))
        (by simp [hIdle, Call.carried]) rfl (by simp) (by simp [hAwake]) (by simp [Coherent])
      refine hCalled.withWorkers _ ?_ ?_ ?_ <;> intro r <;> by_cases hr : r = q
      · subst hr
        simp
      · simp [hr]
      · subst hr
        simp
      · simp [hr]
      · subst hr
        simp [hAwake]
      · simpa [hr] using h.sleeping r
  | worker hLive hMove => exact h.worker hLive hMove
  | call hMove =>
      refine h.call hMove fun w i hCall => hUnmarked i ?_
      simp [State.claims, hCall]
  | @crash q hLive =>
      refine h.withWorkers _ ?_ ?_ ?_ <;> intro r <;> by_cases hr : r = q
      · subst hr
        simp
      · simp [hr]
      · subst hr
        simp
      · simp [hr]
      · subst hr
        intro i hi
        simpa using (h.sleeping r i (by simpa using hi)).2
      · simpa [hr] using h.sleeping r
  | @disconnect q i hCrashed hScanning hOver hOwner =>
      have hCalled := h.setCall (p := q) .idle (callOver_carried hOver) rfl (by simp)
        (by simp) trivial
      have hMoved := hCalled.withWorkers
        (Function.update s.workers q { s.workers q with handler := .sleeping i })
        (fun r => by by_cases hr : r = q <;> simp [hr])
        (fun r => by by_cases hr : r = q <;> simp [hr]) ?_
      · exact { hMoved with }
      · intro r j hj
        by_cases hr : r = q
        · subst hr
          have : i = j := by simpa using hj
          subst this
          simpa [hCrashed] using (h.holder i r).mp hOwner
        · simpa [hr] using h.sleeping r j (by simpa [hr] using hj)
  | @deferredRelease q i hSleeping =>
      obtain ⟨hCrashed, hSlot, hIdle⟩ := h.sleeping q i hSleeping
      have hMoved := h.withWorkers
        (Function.update s.workers q { s.workers q with handler := .done })
        (fun r => by by_cases hr : r = q <;> simp [hr])
        (fun r => by by_cases hr : r = q <;> simp [hr]) ?_
      · rw [h.release_slot_entry hSlot]
        exact hMoved.setCall (p := q) _ (by simp [hIdle, Call.carried]) rfl (by simp)
          (by simp) (by simp [Coherent, hSlot, hCrashed])
      · intro r j hj
        by_cases hr : r = q
        · subst hr
          simp at hj
        · simpa [hr] using h.sleeping r j (by simpa [hr] using hj)
  | aggregate hMove => exact h.aggregate hMove

theorem tenancy_of_reach {guard : State → Label → Prop}
    (hGuard : ∀ s l, guard s l → Unmarked s l) (run : (machine c).Reach guard s) : Tenancy s :=
  run.invariant Tenancy (fun _ => Tenancy.initial) fun _ _ _ h hMeets hStep =>
    h.step (hGuard _ _ hMeets) hStep

end Barrier
