import SwarmLoRA.Barrier.Tenancy

namespace Barrier

open Ipc Aggregator Machine

/-- What a step may do to the active set and to the pending bits. A slot enters only
by a join and leaves only by a leave that its owner has signalled since its claim,
or by the barrier timeout; the bits are signalled by the owner; and a worker sees its
slot active only when its own join has been processed. -/
structure WithinTenancy (s : State) (l : Label) (s' : State) : Prop where
  enters : ∀ i, s.agg.active_mask.test_bit i = false → s'.agg.active_mask.test_bit i = true →
    ∃ p : Nat, s.pool.owner_worker_id i = p ∧ s.joinTag i = s.tenancy i
  leaves : ∀ i, s.agg.active_mask.test_bit i = true → s'.agg.active_mask.test_bit i = false →
    s.agg.pc = .loadStuck 1 ∨
      ∃ p : Nat, s.pool.owner_worker_id i = p ∧ s.leaveTag i = s.tenancy i
  join_signalled : ∀ i, s.ctrl.pending_slot_joins.test_bit i = false →
    s'.ctrl.pending_slot_joins.test_bit i = true →
    ∃ (p v : Nat) (b : Bool), l = .work p v b ∧ s.pool.owner_worker_id i = (p : Int) ∧
      s'.joinTag i = s.tenancy i
  leave_signalled : ∀ i, s.ctrl.pending_slot_leaves.test_bit i = false →
    s'.ctrl.pending_slot_leaves.test_bit i = true →
    ∃ p : Nat, ((∃ v b, l = .work p v b) ∨ l = .disconnect p i) ∧
      s.pool.owner_worker_id i = (p : Int) ∧ s'.leaveTag i = s.tenancy i
  shown : ∀ i p, (s.workers p).pc.slot = some i → s.ctrl.slot_is_active i = true →
    s.processedTag i = s.tenancy i

/-- The condition on a step: an owner gives up a slot only when the slot is not in the
active set and has no join pending, and a new owner is stored only when no bit of the
slot is set. -/
structure Clean (s : State) (l : Label) : Prop where
  released : ∀ i ∈ s.releases l, s.agg.active_mask.test_bit i = false ∧ s.joinPending i = false
  claimed : ∀ i ∈ s.claims l,
    s.isActive i = false ∧ s.joinPending i = false ∧ s.leavePending i = false

instance (s : State) (l : Label) : Decidable (Clean s l) :=
  decidable_of_iff
    ((∀ i ∈ s.releases l, s.agg.active_mask.test_bit i = false ∧ s.joinPending i = false) ∧
      ∀ i ∈ s.claims l, s.isActive i = false ∧ s.joinPending i = false ∧ s.leavePending i = false)
    ⟨fun h => ⟨h.1, h.2⟩, fun h => ⟨h.released, h.claimed⟩⟩

theorem Clean.unmarked {s : State} {l : Label} (h : Clean s l) : Unmarked s l := fun i hi =>
  ⟨(h.claimed i hi).1, (h.claimed i hi).2.1⟩

/-- Beyond the tenancies: what is active or about to be has an owner, and a leave bit,
shared or already loaded, was set in the present tenancy. -/
structure Owned (s : State) : Prop where
  owned : ∀ i, s.agg.active_mask.test_bit i = true ∨ s.joinPending i = true →
    s.pool.owner_worker_id i ≠ -1
  leaving : ∀ i, s.leavePending i = true → s.leaveTag i = s.tenancy i
  loaded : s.agg.pc = .loadMidLeaves 1 → ∀ i, s.agg.seen.test_bit i = true →
    s.ctrl.pending_slot_leaves.test_bit i = true

variable {c : Config} {s s' : State} {p : Nat} {timer : Bool} {sample : Slot → Nat}

/-- How a step of the main loop may change the active set. -/
theorem AggregateMove.active (hMove : AggregateMove c s timer sample s') (i : Slot) :
    s'.agg.active_mask.test_bit i = s.agg.active_mask.test_bit i ∨
    (s'.agg.active_mask.test_bit i = true ∧ s.joinPending i = true) ∨
    (s'.agg.active_mask.test_bit i = false ∧ (s.agg.pc = .loadStuck 1 ∨
      s.leavePending i = true ∨ (s.agg.pc = .loadMidLeaves 1 ∧ s.agg.seen.test_bit i = true))) := by
  cases hMove with
  | applyJoins hPc hJoins =>
      have hBit := congrArg (SlotMask.test_bit · i) hJoins
      simp only [SlotMask.test_bit_copyWord] at hBit
      simp only [SlotMask.test_bit_or, hBit, State.joinPending]
      split <;> cases s.agg.active_mask.test_bit i <;>
        cases s.ctrl.pending_slot_joins.test_bit i <;> cases s.agg.joins.test_bit i <;> simp
  | applyLeaves hPc =>
      simp only [SlotMask.test_bit_and, SlotMask.test_bit_not, SlotMask.test_bit_copyWord,
        State.leavePending]
      split <;> cases s.agg.active_mask.test_bit i <;>
        cases s.ctrl.pending_slot_leaves.test_bit i <;> cases s.agg.leaves.test_bit i <;> simp
  | midLeaves hPc hLeaving =>
      simp only [hLeaving, AggregatorState.load, SlotMask.test_bit_and, SlotMask.test_bit_not,
        SlotMask.test_bit_copyWord, State.leavePending, Fin.isValue, Fin.reduceEq, if_false, hPc]
      split <;> cases s.agg.active_mask.test_bit i <;>
        cases s.ctrl.pending_slot_leaves.test_bit i <;> cases s.agg.seen.test_bit i <;> simp
  | @evict stuck hPc hStuck =>
      simp only [hPc, SlotMask.test_bit_and, SlotMask.test_bit_not, true_or, and_true]
      cases s.agg.active_mask.test_bit i <;> cases stuck.test_bit i <;> simp
  | droppedEmpty _ _ _ | advanceEpoch _ _ => exact .inl (by rw [nextOp_active_mask])
  | _ => exact .inl rfl

/-- The main loop signals no join and no leave. -/
theorem AggregateMove.signals (hMove : AggregateMove c s timer sample s') (i : Slot) :
    (s'.ctrl.pending_slot_joins.test_bit i = true →
      s.ctrl.pending_slot_joins.test_bit i = true) ∧
    (s'.ctrl.pending_slot_leaves.test_bit i = true →
      s.ctrl.pending_slot_leaves.test_bit i = true) ∧
    (s'.leavePending i = true → s.leavePending i = true) := by
  cases hMove with
  | exchangeLeaves hPc | applyLeaves hPc =>
      simp only [State.leavePending, SlotMask.test_bit_copyWord, SlotMask.test_bit_zero]
      split <;> simp +contextual
  | clearMidLeaves hPc =>
      simp only [State.leavePending, SlotMask.test_bit_andWord]
      split <;> simp +contextual [or_imp]
  | exchangeJoins hPc | applyJoins hPc hJoins =>
      simp only [State.leavePending, SlotMask.test_bit_copyWord, SlotMask.test_bit_zero]
      split <;> simp +contextual
  | droppedEmpty _ _ _ | advanceEpoch _ _ =>
      simp only [State.leavePending, nextOp_leaves]
      exact ⟨id, id, id⟩
  | _ => exact ⟨id, id, id⟩

/-- The first word of the leave mask that is loaded in mid-operation. -/
theorem AggregateMove.loaded (hMove : AggregateMove c s timer sample s')
    (hPc : s'.agg.pc = .loadMidLeaves 1) :
    s'.ctrl.pending_slot_leaves = s.ctrl.pending_slot_leaves ∧
      s'.agg.seen = s.agg.load 0 s.ctrl.pending_slot_leaves := by
  cases hMove with
  | @tick pc seen hTick =>
      generalize s.agg.pc = old at hTick
      cases hTick <;> simp_all
  | clearMidLeaves hOld | storeMidLeaves hOld | storeEvicted hOld | clearReady hOld =>
      split at hPc <;> (try split at hPc) <;> simp at hPc
  | fetch hOld hQuit =>
      simp only [AggregatorState.drainNext] at hPc
      split at hPc <;> simp at hPc
  | take hOld =>
      simp only [AggregatorState.drainNext] at hPc
      split at hPc <;> simp at hPc
  | droppedEmpty _ _ _ | advanceEpoch _ _ =>
      rcases nextOp_pc _ c with hAt | hAt <;> cases hAt.symm.trans hPc
  | _ => simp at hPc

theorem Owned.aggregate (h : Owned s) (hMask : MaskFrame s s')
    (hMove : AggregateMove c s timer sample s') : Owned s' := by
  have hFrame := hMove.frame
  refine ⟨?_, ?_, ?_⟩
  · intro i hi
    rw [hFrame.pool]
    rcases hi with hActive | hPending
    · rcases hMove.active i with hSame | ⟨-, hPending⟩ | ⟨hGone, -⟩
      · exact h.owned i (.inl (by rw [← hSame, hActive]))
      · exact h.owned i (.inr hPending)
      · simp [hGone] at hActive
    · exact h.owned i (.inr (hMask.joins i hPending))
  · intro i hi
    rw [hFrame.leaveTag, hFrame.tenancy]
    exact h.leaving i ((hMove.signals i).2.2 hi)
  · intro hPc i hi
    obtain ⟨hLeaves, hSeen⟩ := hMove.loaded hPc
    rw [hSeen, AggregatorState.load, SlotMask.test_bit_copyWord] at hi
    rw [hLeaves]
    split at hi
    · exact hi
    · simp at hi

/-- A leave that is signalled for a slot belongs to the present tenancy. -/
theorem Owned.signalLeave (h : Owned s) (i : Slot) : Owned (s.signalLeave i) := by
  refine ⟨h.owned, ?_, ?_⟩
  · intro j hj
    by_cases hji : j = i
    · subst hji
      simp [State.signalLeave]
    · have hOld : s.leavePending j = true := by
        simpa [State.leavePending, State.signalLeave, ControlBlock.slot_signal_leave, hji]
          using hj
      simpa [State.signalLeave, hji] using h.leaving j hOld
  · intro hPc j hj
    have := h.loaded hPc j hj
    simp [State.signalLeave, ControlBlock.slot_signal_leave, this]

theorem Owned.worker {l : Label} (h : Owned s) (hTenancy : Tenancy s)
    (hMove : WorkerMove c s p l s') : Owned s' := by
  cases hMove with
  | @join i _ _ hPc =>
      refine ⟨?_, h.leaving, h.loaded⟩
      intro j hj
      by_cases hji : j = i
      · subst hji
        have := (hTenancy.holder j p).mpr (by rw [hPc]; rfl)
        simp only [State.setPc_pool, this]
        omega
      · refine h.owned j (hj.imp id fun hPending => ?_)
        simpa [State.joinPending, ControlBlock.slot_signal_join, hji] using hPending
  | @leave i f _ _ hPc =>
      have hSignalled := h.signalLeave i
      exact { hSignalled with }
  | _ => exact { h with }

theorem Owned.call (h : Owned s) (hTenancy : Tenancy s) (hMove : CallMove s p s')
    (hReleased : ∀ w i, s.calls p = .release w (.casOwner i) →
      s.pool.owner_worker_id i = (w : Int) →
      s.agg.active_mask.test_bit i = false ∧ s.joinPending i = false)
    (hClaimed : ∀ w i, s.calls p = .claim w (.storeOwner i) → s.leavePending i = false) :
    Owned s' := by
  cases hMove with
  | @search w b pc hCall hPc =>
      refine ⟨fun i hi => ?_, h.leaving, h.loaded⟩
      have hOwner : (claim_slot s.pool w b pc).1.owner_worker_id = s.pool.owner_worker_id := by
        rcases hPc with ⟨k, m, rfl⟩ | ⟨i, x, rfl⟩ <;> simp only [claim_slot] <;> (try split) <;>
          (try split) <;> (try split) <;> rfl
      simp only [hOwner]
      exact h.owned i hi
  | @own w i hCall =>
      refine ⟨?_, ?_, h.loaded⟩
      · intro j hj
        by_cases hji : j = i
        · subst hji
          have hc := hTenancy.coherent p
          rw [hCall] at hc
          simp only [claim_slot, Function.update_self, hc.1]
          omega
        · simpa [claim_slot, hji] using h.owned j hj
      · intro j hj
        have hji : j ≠ i := by
          rintro rfl
          have : s.leavePending j = true := hj
          simp [hClaimed w j hCall] at this
        simpa [hji] using h.leaving j hj
  | @giveUp w i hCall hOwner =>
      refine ⟨?_, h.leaving, h.loaded⟩
      intro j hj
      have hji : j ≠ i := by
        rintro rfl
        obtain ⟨hActive, hPending⟩ := hReleased w j hCall hOwner
        rcases hj with hj | hj
        · simp only [State.setPc_agg, State.setCall_agg] at hj
          simp [hActive] at hj
        · have : s.joinPending j = true := hj
          simp [hPending] at this
      simpa [release_slot, hOwner, hji] using h.owned j hj
  | _ => exact { h with }

theorem Owned.step {l : Label} (h : Owned s) (hTenancy : Tenancy s) (hClean : Clean s l)
    (hStep : step c s l = some s') : Owned s' := by
  cases move_of_step hStep with
  | worker hLive hMove => exact h.worker hTenancy hMove
  | call hMove =>
      refine h.call hTenancy hMove ?_ ?_
      · intro w i hCall hOwner
        exact hClean.released i (by simp [State.releases, hCall, hOwner])
      · intro w i hCall
        exact (hClean.claimed i (by simp [State.claims, hCall])).2.2
  | @disconnect q i hCrashed hScanning hOver hOwner =>
      have hSignalled := h.signalLeave i
      exact { hSignalled with }
  | aggregate hMove => exact h.aggregate (hMove.maskFrame hTenancy) hMove
  | _ => exact { h with }

theorem Owned.initial (h : Initial s) : Owned s := by
  refine ⟨?_, ?_, ?_⟩
  · intro i hi
    have := h.unmarked i
    simp only [State.isActive, Bool.or_eq_false_iff] at this
    simp [this] at hi
  · intro i hi
    simp [(h.unmarked i).2.1] at hi
  · simp [h.agg]

/-- A move of a worker signals a join or a leave of no slot but its own. -/
theorem WorkerMove.signals {l : Label} (hMove : WorkerMove c s p l s') (i : Slot) :
    (s.ctrl.pending_slot_joins.test_bit i = false →
      s'.ctrl.pending_slot_joins.test_bit i = true →
      ∃ v b, l = .work p v b ∧ (s.workers p).pc = .prepared i ∧ s'.joinTag i = s.tenancy i) ∧
    (s.ctrl.pending_slot_leaves.test_bit i = false →
      s'.ctrl.pending_slot_leaves.test_bit i = true →
      ∃ v b, l = .work p v b ∧ (∃ f, (s.workers p).pc = .leave i f) ∧
        s'.leaveTag i = s.tenancy i) := by
  cases hMove with
  | @join j v b hPc =>
      refine ⟨fun hOld hNew => ?_, fun hOld hNew => ?_⟩
      · have hij : i = j := by simpa [ControlBlock.slot_signal_join, hOld] using hNew
        subst hij
        exact ⟨v, b, rfl, hPc, Function.update_self ..⟩
      · simp [ControlBlock.slot_signal_join, hOld] at hNew
  | @leave j f v b hPc =>
      refine ⟨fun hOld hNew => ?_, fun hOld hNew => ?_⟩
      · simp [State.signalLeave, ControlBlock.slot_signal_leave, hOld] at hNew
      · have hij : i = j := by
          simpa [State.signalLeave, ControlBlock.slot_signal_leave, hOld] using hNew
        subst hij
        exact ⟨v, b, rfl, ⟨f, hPc⟩, by simp [State.signalLeave]⟩
  | signal hPc => simp +contextual [ControlBlock.slot_signal_ready]
  | sample hPc hLast => simp +contextual
  | _ => simp +contextual

theorem CallMove.signals (hMove : CallMove s p s') :
    s'.ctrl.pending_slot_joins = s.ctrl.pending_slot_joins ∧
      s'.ctrl.pending_slot_leaves = s.ctrl.pending_slot_leaves := by
  cases hMove <;> exact ⟨rfl, rfl⟩

/-- Bits are signalled by the owner of the slot, for the present tenancy. -/
theorem signals_of_step {l : Label} (h : Tenancy s) (hStep : step c s l = some s') (i : Slot) :
    (s.ctrl.pending_slot_joins.test_bit i = false →
      s'.ctrl.pending_slot_joins.test_bit i = true →
      ∃ (p v : Nat) (b : Bool), l = .work p v b ∧ s.pool.owner_worker_id i = (p : Int) ∧
        s'.joinTag i = s.tenancy i) ∧
    (s.ctrl.pending_slot_leaves.test_bit i = false →
      s'.ctrl.pending_slot_leaves.test_bit i = true →
      ∃ p : Nat, ((∃ v b, l = .work p v b) ∨ l = .disconnect p i) ∧
        s.pool.owner_worker_id i = (p : Int) ∧ s'.leaveTag i = s.tenancy i) := by
  cases move_of_step hStep with
  | @worker _ q _ hLive hMove =>
      refine ⟨fun hOld hNew => ?_, fun hOld hNew => ?_⟩
      · obtain ⟨v, b, hl, hPc, hTag⟩ := (hMove.signals i).1 hOld hNew
        exact ⟨q, v, b, hl, (h.holder i q).mpr (by rw [hPc]; rfl), hTag⟩
      · obtain ⟨v, b, hl, ⟨f, hPc⟩, hTag⟩ := (hMove.signals i).2 hOld hNew
        exact ⟨q, .inl ⟨v, b, hl⟩, (h.holder i q).mpr (by rw [hPc]; rfl), hTag⟩
  | call hMove => simp +contextual [hMove.signals]
  | @disconnect q j hCrashed hScanning hOver hOwner =>
      refine ⟨fun hOld hNew => ?_, fun hOld hNew => ?_⟩
      · simp [State.signalLeave, ControlBlock.slot_signal_leave, hOld] at hNew
      · have hij : i = j := by
          simpa [State.signalLeave, ControlBlock.slot_signal_leave, hOld] using hNew
        subst hij
        exact ⟨q, .inr rfl, hOwner, by simp [State.signalLeave]⟩
  | aggregate hMove =>
      have hSignals := hMove.signals i
      refine ⟨fun hOld hNew => ?_, fun hOld hNew => ?_⟩
      · simp [hSignals.1 hNew] at hOld
      · simp [hSignals.2.1 hNew] at hOld
  | _ => simp +contextual

/-- No step but one of the main loop touches its locals. -/
theorem Move.agg {l : Label} (hMove : Move c s l s') :
    s'.agg = s.agg ∨ ∃ timer sample, AggregateMove c s timer sample s' := by
  cases hMove with
  | worker hLive hMove =>
      left
      cases hMove <;> rfl
  | call hMove =>
      left
      cases hMove <;> rfl
  | aggregate hMove => exact .inr ⟨_, _, hMove⟩
  | _ => exact .inl rfl

theorem owned_of_reach (run : (machine c).Reach Clean s) : Owned s :=
  run.invariant_of_reach Owned (fun _ => Owned.initial) fun _ _ _ prior h hClean hStep =>
    h.step (tenancy_of_reach (fun _ _ hMeets => hMeets.unmarked) prior) hClean hStep

/-- In every run whose steps are clean, no join, leave or active bit of a tenancy outlives it. A
step is clean if the slot it takes from an owner is neither active nor about to join, and the slot
it gives to one has no bit of an earlier tenancy set. -/
theorem within_tenancy_of_clean {l : Label} (run : (machine c).Reach Clean s)
    (hStep : (machine c).step s l = some s') : WithinTenancy s l s' := by
  have h := owned_of_reach run
  have hTenancy := tenancy_of_reach (fun _ _ hMeets => hMeets.unmarked) run
  have hOwner : ∀ i, s.agg.active_mask.test_bit i = true ∨ s.joinPending i = true →
      ∃ p : Nat, s.pool.owner_worker_id i = p := fun i hi =>
    (hTenancy.owner i).resolve_left (h.owned i hi)
  have hActive : ∀ i, s'.agg.active_mask.test_bit i = s.agg.active_mask.test_bit i ∨
      (s'.agg.active_mask.test_bit i = true ∧ s.joinPending i = true) ∨
      (s'.agg.active_mask.test_bit i = false ∧ (s.agg.pc = .loadStuck 1 ∨
        s.leavePending i = true)) := by
    intro i
    rcases (move_of_step hStep).agg with hSame | ⟨timer, sample, hMove⟩
    · exact .inl (by rw [hSame])
    · rcases hMove.active i with hi | hi | ⟨hGone, hi | hi | hi⟩
      · exact .inl hi
      · exact .inr (.inl hi)
      · exact .inr (.inr ⟨hGone, .inl hi⟩)
      · exact .inr (.inr ⟨hGone, .inr hi⟩)
      · have := h.loaded hi.1 i hi.2
        exact .inr (.inr ⟨hGone, .inr (by simp [State.leavePending, this])⟩)
  refine ⟨?_, ?_, fun i => (signals_of_step hTenancy hStep i).1,
    fun i => (signals_of_step hTenancy hStep i).2, ?_⟩
  · intro i hOut hIn
    rcases hActive i with hi | ⟨-, hPending⟩ | ⟨hGone, -⟩
    · simp [hi, hOut] at hIn
    · obtain ⟨p, hp⟩ := hOwner i (.inr hPending)
      exact ⟨p, hp, (hTenancy.pending i hPending).2⟩
    · simp [hGone] at hIn
  · intro i hIn hOut
    rcases hActive i with hi | ⟨hNew, -⟩ | ⟨-, hStuck | hLeaving⟩
    · simp [hi, hIn] at hOut
    · simp [hNew] at hOut
    · exact .inl hStuck
    · obtain ⟨p, hp⟩ := hOwner i (.inl hIn)
      exact .inr ⟨p, hp, h.leaving i hLeaving⟩
  · intro i p _ hShown
    refine hTenancy.processed i ?_
    simp only [ControlBlock.slot_is_active] at hShown
    simp [State.isActive, hShown]

/-- A pool of two slots and a ring of eight entries, before anything has happened. -/
def twoSlotStart : State where
  pool := {
    num_slots := 2, hidden_dim := 8, intermediate_dim := 16, qkv_dim := 24
    max_seq_per_step := 4, input_buffer_size := 128, output_buffer_size := 256
    free_mask := .all_below 2, active_mask := .zero, owner_worker_id := fun _ => -1 }
  ctrl := {}
  ring := { capacity := 8, head := 0, tail := 0, entries := fun _ => ⟨false, ⟨0, 0, 0, 0, 0⟩, 0⟩, log := [] }
  calls := fun _ => .idle
  workers := fun _ => ⟨.idle, false, .scanning, 0, 0, [], false⟩
  agg := ⟨.top, .zero, .zero, .zero, .zero, .zero, 0, 0, 0, 0, [], false, [], 0, 0, 0⟩
  input := fun _ => 0
  output := fun _ => ⟨0, 0, 0, 0, 0⟩
  tenancy := fun _ => 0
  joinTag := fun _ => 0
  leaveTag := fun _ => 0
  processedTag := fun _ => 0
  completions := []

theorem twoSlotStart_initial (c : Config) : (machine c).initial twoSlotStart :=
  ⟨⟨fun _ => true, 2, 8, 16, 2, 4, 4, 2, rfl⟩, rfl, ⟨by decide, rfl, rfl, rfl, fun _ => rfl⟩,
    fun _ => rfl, fun _ => ⟨rfl, rfl, rfl⟩, rfl, rfl⟩

/-- One transformer layer and an end-of-sequence token. -/
def oneLayer : Config := ⟨1, some 2⟩

/-- `n` steps of the worker, of its connection thread, of the main loop. -/
def works (p n : Nat) : List Label := List.replicate n (.work p 7 false)
def rpcs (p n : Nat) : List Label := List.replicate n (.rpc p false)
def rounds (n : Nat) : List Label := List.replicate n (.aggregate false fun _ => 1)

/-- A request arrives, the worker claims a slot and signals its join. -/
def joinSchedule (p max_tokens : Nat) : List Label :=
  .request p max_tokens 0 :: rpcs p 8 ++ works p 2

/-- One operation of worker 0, from the capture of the epoch to the wait, and the round of
the main loop that executes it. -/
def opRound : List Label := works 0 10 ++ rounds 12

/-- Two workers join one after the other, and the main loop makes both slots active in one step. -/
theorem within_tenancy_of_two_workers : ∃ s s', (machine oneLayer).Reach Clean s ∧
    s.agg.active_mask.test_bit 0 = false ∧ s.agg.active_mask.test_bit 1 = false ∧
    s'.agg.active_mask.test_bit 0 = true ∧ s'.agg.active_mask.test_bit 1 = true ∧
    WithinTenancy s (.aggregate false fun _ => 1) s' := by
  have hRun : ((machine oneLayer).replayUnder Clean twoSlotStart
      (joinSchedule 0 1 ++ joinSchedule 1 1 ++ rounds 6)).map
      (fun s => (s.agg.active_mask.test_bit 0, s.agg.active_mask.test_bit 1,
        (step oneLayer s (.aggregate false fun _ => 1)).map fun s' =>
          (s'.agg.active_mask.test_bit 0, s'.agg.active_mask.test_bit 1))) =
      some (false, false, some (true, true)) := by decide +kernel
  obtain ⟨s, hReplay, hBits⟩ := Option.map_eq_some_iff.mp hRun
  simp only [Prod.mk.injEq] at hBits
  obtain ⟨hFirst, hSecond, hStepped⟩ := hBits
  obtain ⟨s', hStep, hActive⟩ := Option.map_eq_some_iff.mp hStepped
  simp only [Prod.mk.injEq] at hActive
  have run := System.reach_of_replayUnder (.start (twoSlotStart_initial oneLayer)) hReplay
  exact ⟨s, s', run, hFirst, hSecond, hActive.1, hActive.2, within_tenancy_of_clean run hStep⟩

/-- Worker 0 joins, gives up waiting for its activation, and releases the slot while
its join is pending. Worker 1 claims the slot, and before it has joined the main loop
makes the slot active by the join of worker 0. -/
theorem join_crosses_tenancies : ¬ ∀ s l s', (machine oneLayer).Reachable s →
    (machine oneLayer).step s l = some s' → WithinTenancy s l s' := by
  intro hAll
  have hRun : ((machine oneLayer).replay twoSlotStart
      (joinSchedule 0 1 ++ .timeout 0 :: works 0 2 ++ rpcs 0 4 ++
        .request 1 1 0 :: rpcs 1 8 ++ rounds 8)).map
      (fun s => (s.agg.active_mask.test_bit 0, s.joinTag 0, s.tenancy 0,
        (step oneLayer s (.aggregate false fun _ => 1)).map fun s' =>
          s'.agg.active_mask.test_bit 0)) = some (false, 1, 2, some true) := by decide +kernel
  obtain ⟨s, hReplay, hBits⟩ := Option.map_eq_some_iff.mp hRun
  simp only [Prod.mk.injEq] at hBits
  obtain ⟨hOut, hTag, hTenancy, hStepped⟩ := hBits
  obtain ⟨s', hStep, hIn⟩ := Option.map_eq_some_iff.mp hStepped
  have run := System.reachable_of_replay (.start (twoSlotStart_initial oneLayer)) hReplay
  obtain ⟨-, -, hStale⟩ := (hAll s (.aggregate false fun _ => 1) s' run hStep).enters 0 hOut hIn
  simp [hTag, hTenancy] at hStale

end Barrier
