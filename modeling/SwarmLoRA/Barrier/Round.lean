import SwarmLoRA.Barrier.Drain

namespace Barrier

open Ipc Aggregator Machine

namespace AggregatorPc

/-- The main loop has seen every active slot ready and the round is not over. -/
def committed : AggregatorPc → Bool
  | .fetch | .spin | .take | .storeTail | .execute | .loadActive _ | .clearReady _
  | .advanceEpoch => true
  | _ => false

end AggregatorPc

/-- The operation that the next batch is for. -/
def AggregatorState.due (a : AggregatorState) : Nat := if a.pc.boundary then 0 else a.op_idx

namespace WorkerPc

/-- The position of the worker of an active slot fits the epoch and the operation
that is due. A worker on its way out keeps no step. -/
def InStep (epoch due ops : Nat) : WorkerPc → Prop
  | .polling _ | .tokenStart _ | .tokenEnd _ => due = 0
  | .op _ k .capture => due = k
  | .op _ k (.prepare e) | .op _ k (.submit e _ _) | .op _ k (.signal e _) => e = epoch ∧ due = k
  | .op _ k (.wait e _) => (e = epoch ∧ due = k) ∨ (e < epoch ∧ due = (k + 1) % ops)
  | .op _ k (.fetch e _) => e < epoch ∧ due = (k + 1) % ops
  | _ => True

/-- The operation is one of the token's, and a call that has returned is over. -/
def WithinToken (ops : Nat) : WorkerPc → Prop
  | .op _ _ (.submit _ _ .returned) => False
  | .op _ k _ => k < ops
  | _ => True

/-- The worker has reserved an entry in the round of this epoch. -/
def reserved (epoch : Nat) : WorkerPc → Bool
  | .op _ _ (.submit e _ (.write _ _ _)) | .op _ _ (.signal e _) | .op _ _ (.wait e _) =>
      e == epoch
  | _ => false

/-- The worker is giving up its slot. -/
def leaving : WorkerPc → Bool
  | .leave _ _ | .awaitLeave _ | .release _ _ | .releasing _ _ => true
  | _ => false

end WorkerPc

/-- No command of an active slot has this ticket or a later one. -/
def NoneFrom (s : State) (first : Nat) : Prop :=
  ∀ ticket cmd, first ≤ ticket → s.ring.log[ticket]? = some cmd →
    s.agg.active_mask.test_bit cmd.slot_id = false

def AllReady (s : State) : Prop :=
  ∀ i, s.agg.active_mask.test_bit i = true → s.ctrl.per_slot_ready_mask.test_bit i = true

/-- Every worker of an active slot waits for the epoch of the round. -/
def AllWaiting (s : State) : Prop :=
  ∀ i p, s.agg.active_mask.test_bit i = true → (s.workers p).pc.slot = some i →
    ∃ k x, (s.workers p).pc = .op i k (.wait s.ctrl.barrier_done_epoch x)

/-- What the main loop knows of the round at each point. -/
def Phase (s : State) : Prop :=
  match s.agg.pc with
  | .loadReady k => k = 1 → ∀ i, s.agg.active_mask.test_bit i = true →
      s.agg.seen.test_bit i = true → s.ctrl.per_slot_ready_mask.test_bit i = true
  | .fetch => AllReady s
  | .spin | .take => AllReady s ∧ NoneFrom s (s.agg.finished + MAX_DRAIN)
  | .storeTail | .execute => AllReady s ∧ NoneFrom s s.agg.taken
  | .loadActive k => AllWaiting s ∧ NoneFrom s s.agg.finished ∧
      (k = 1 → ∀ i, wordIndex i = 0 → s.agg.active_mask.test_bit i = true →
        s.agg.seen.test_bit i = true)
  | .clearReady k => AllWaiting s ∧ NoneFrom s s.agg.finished ∧
      (∀ i, s.agg.active_mask.test_bit i = true → s.agg.seen.test_bit i = true) ∧
      (k = 1 → ∀ i, wordIndex i = 0 → s.agg.active_mask.test_bit i = true →
        s.ctrl.per_slot_ready_mask.test_bit i = false)
  | .advanceEpoch => AllWaiting s ∧ NoneFrom s s.agg.finished ∧
      ∀ i, s.agg.active_mask.test_bit i = true → s.ctrl.per_slot_ready_mask.test_bit i = false
  | _ => True

/-- What holds of the round as long as the quit flag is not set: where the workers of active slots
are, which commands of theirs are on the ring, and which ready bits are set. -/
structure Round (c : Config) (s : State) : Prop where
  op : ∀ p, (s.workers p).pc.WithinToken c.ops_per_token
  in_step : ∀ i p, s.agg.active_mask.test_bit i = true → (s.workers p).pc.slot = some i →
    (s.workers p).pc.InStep s.ctrl.barrier_done_epoch s.agg.due c.ops_per_token
  ready : s.agg.pc.clearing = false → ∀ i, s.agg.active_mask.test_bit i = true →
    s.ctrl.per_slot_ready_mask.test_bit i = true →
    ∃ p k x, (s.workers p).pc = .op i k (.wait s.ctrl.barrier_done_epoch x)
  mine : ∀ ticket cmd p, s.agg.finished ≤ ticket → s.ring.log[ticket]? = some cmd →
    s.agg.active_mask.test_bit cmd.slot_id = true → (s.workers p).pc.slot = some cmd.slot_id →
    (s.workers p).pc.leaving = true ∨
      ((s.workers p).pc.reserved s.ctrl.barrier_done_epoch = true ∧
        cmd = c.submission s.agg.due cmd.slot_id p s.ctrl.barrier_done_epoch)
  unique : ∀ ticket ticket' cmd cmd', s.agg.finished ≤ ticket → s.agg.finished ≤ ticket' →
    s.ring.log[ticket]? = some cmd → s.ring.log[ticket']? = some cmd' →
    cmd.slot_id = cmd'.slot_id → s.agg.active_mask.test_bit cmd.slot_id = true →
    ticket = ticket'
  present : s.agg.pc.clearing = false → ∀ i p k x, s.agg.active_mask.test_bit i = true →
    (s.workers p).pc = .op i k (.signal s.ctrl.barrier_done_epoch x) ∨
      (s.workers p).pc = .op i k (.wait s.ctrl.barrier_done_epoch x) →
    ∃ ticket cmd, s.agg.finished ≤ ticket ∧ s.ring.log[ticket]? = some cmd ∧ cmd.slot_id = i
  unready : ∀ i, s.ctrl.per_slot_ready_mask.test_bit i = true → s.joinPending i = false ∧
    ∀ p, (s.workers p).pc ≠ .prepared i ∧ ((s.workers p).pc = .claimed i →
      ∃ w k, s.calls p = .claim w (.scrubReady i k) ∧ (k = 0 ∨ wordIndex i ≠ 0))
  phase : Phase s

variable {c : Config} {s s' : State} {p : Nat} {i : Slot} {timer : Bool} {sample : Slot → Nat}

theorem Phase.committed (h : Phase s) (hPc : s.agg.pc.committed = true) :
    AllReady s ∧ s.agg.pc.clearing = false ∨ AllWaiting s ∧ s.agg.pc.clearing = true := by
  unfold Phase at h
  revert h hPc
  cases s.agg.pc <;> simp +contextual [AggregatorPc.committed, AggregatorPc.clearing]

/-- While a worker of an active slot is not waiting for the epoch of the round, the
main loop has not committed itself to the round. -/
theorem Round.not_committed (h : Round c s) (hTenancy : Tenancy s)
    (hActive : s.agg.active_mask.test_bit i = true) (hSlot : (s.workers p).pc.slot = some i)
    (hMoves : ∀ k x, (s.workers p).pc ≠ .op i k (.wait s.ctrl.barrier_done_epoch x)) :
    s.agg.pc.committed = false := by
  by_contra hPc
  rcases h.phase.committed (by simpa using hPc) with ⟨hReady, hOpen⟩ | ⟨hWaiting, -⟩
  · obtain ⟨q, k, x, hq⟩ := h.ready hOpen i hActive (hReady i hActive)
    obtain rfl := hTenancy.holder_unique hSlot (i := i) (q := q) (by rw [hq]; rfl)
    exact hMoves k x hq
  · obtain ⟨k, x, hp⟩ := hWaiting i p hActive hSlot
    exact hMoves k x hp

/-- What a worker of an active slot has to keep when it moves to another position: it may not leave
a wait for the present round, and what it says of the ring must stay true. -/
structure Steps (c : Config) (s : State) (p : Nat) (i : Slot) (pc : WorkerPc) : Prop where
  moves : ∀ k x, (s.workers p).pc ≠ .op i k (.wait s.ctrl.barrier_done_epoch x)
  in_step : pc.InStep s.ctrl.barrier_done_epoch s.agg.due c.ops_per_token
  mine : pc.leaving = true ∨ (s.workers p).pc.leaving = false ∧
    ((s.workers p).pc.reserved s.ctrl.barrier_done_epoch = true →
      pc.reserved s.ctrl.barrier_done_epoch = true)
  present : ∀ k x, pc = .op i k (.signal s.ctrl.barrier_done_epoch x) ∨
      pc = .op i k (.wait s.ctrl.barrier_done_epoch x) →
    ∃ ticket cmd, s.agg.finished ≤ ticket ∧ s.ring.log[ticket]? = some cmd ∧ cmd.slot_id = i

/-- A step of another party keeps what the main loop knows, if it takes no ready bit
of an active slot away, sets none while they are being cleared, and moves no waiting
worker. -/
theorem Phase.of_same (h : Phase s) (hAgg : s'.agg = s.agg) (hLog : s'.ring.log = s.ring.log)
    (hUp : ∀ j, s.agg.active_mask.test_bit j = true →
      s.ctrl.per_slot_ready_mask.test_bit j = true →
      s'.ctrl.per_slot_ready_mask.test_bit j = true)
    (hDown : s.agg.pc.clearing = true → ∀ j, s.agg.active_mask.test_bit j = true →
      s.ctrl.per_slot_ready_mask.test_bit j = false →
      s'.ctrl.per_slot_ready_mask.test_bit j = false)
    (hWaiting : s.agg.pc.committed = true → AllWaiting s → AllWaiting s') : Phase s' := by
  have hReady : AllReady s → AllReady s' := fun hAll j hj =>
    hUp j (by rwa [hAgg] at hj) (hAll j (by rwa [hAgg] at hj))
  have hNone : ∀ first, NoneFrom s first → NoneFrom s' first := by
    intro first hOld
    unfold NoneFrom
    rw [hAgg, hLog]
    exact hOld
  unfold Phase at h ⊢
  rw [hAgg]
  cases hPc : s.agg.pc <;> simp only [hPc] at h ⊢ <;> try trivial
  case loadReady => exact fun hk j hj hSeen => hUp j hj (h hk j hj hSeen)
  case fetch => exact hReady h
  case spin | take | storeTail | execute => exact ⟨hReady h.1, hNone _ h.2⟩
  case loadActive => exact ⟨hWaiting (by rw [hPc]; rfl) h.1, hNone _ h.2.1, h.2.2⟩
  case clearReady =>
    exact ⟨hWaiting (by rw [hPc]; rfl) h.1, hNone _ h.2.1, h.2.2.1, fun hk j hw hj =>
      hDown (by rw [hPc]; rfl) j hj (h.2.2.2 hk j hw hj)⟩
  case advanceEpoch =>
    exact ⟨hWaiting (by rw [hPc]; rfl) h.1, hNone _ h.2.1, fun j hj =>
      hDown (by rw [hPc]; rfl) j hj (h.2.2 j hj)⟩

/-- The positions of the workers of active slots stay. -/
theorem AllWaiting.of_same (h : AllWaiting s) (hAgg : s'.agg = s.agg)
    (hEpoch : s'.ctrl.barrier_done_epoch = s.ctrl.barrier_done_epoch)
    (hSame : ∀ j q, s.agg.active_mask.test_bit j = true → (s'.workers q).pc.slot = some j →
      (s'.workers q).pc = (s.workers q).pc) : AllWaiting s' := by
  intro j q hj hq
  rw [hAgg] at hj
  have hPc := hSame j q hj hq
  rw [hPc] at hq
  obtain ⟨k, x, hx⟩ := h j q hj hq
  exact ⟨k, x, by rw [hPc, hx, hEpoch]⟩

/-- A worker moves on with the same slot or with none before and after. -/
theorem Round.setPc (h : Round c s) (hTenancy : Tenancy s) (pc : WorkerPc)
    (hSlot : pc.slot = (s.workers p).pc.slot)
    (hOp : pc.WithinToken c.ops_per_token)
    (hUnready : ∀ i, pc = .prepared i ∨ pc = .claimed i →
      s.ctrl.per_slot_ready_mask.test_bit i = false)
    (hActive : ∀ i, pc.slot = some i → s.agg.active_mask.test_bit i = true → Steps c s p i pc) :
    Round c (s.setPc p pc) := by
  refine ⟨?_, ?_, ?_, ?_, h.unique, ?_, ?_, ?_⟩
  · intro q
    rw [State.setPc_pc]
    split
    · exact hOp
    · exact h.op q
  · intro i q hi hq
    by_cases hqp : q = p
    · subst hqp
      rw [State.setPc_pc, if_pos rfl] at hq ⊢
      exact (hActive i hq hi).in_step
    · rw [State.setPc_pc, if_neg hqp] at hq ⊢
      exact h.in_step i q hi hq
  · intro hOpen i hi hReady
    obtain ⟨q, k, x, hq⟩ := h.ready hOpen i hi hReady
    have hqp : q ≠ p := by
      rintro rfl
      exact (hActive i (by rw [hSlot, hq]; rfl) hi).moves k x hq
    exact ⟨q, k, x, by rw [State.setPc_pc, if_neg hqp]; exact hq⟩
  · intro ticket cmd q hFrom hCmd hi hq
    by_cases hqp : q = p
    · subst hqp
      rw [State.setPc_pc, if_pos rfl] at hq ⊢
      rcases (hActive _ hq hi).mine with hLeaving | ⟨hStays, hReserved⟩
      · exact .inl hLeaving
      · rcases h.mine ticket cmd q hFrom hCmd hi (by rw [← hSlot, hq]) with hOld | ⟨hOld, hSame⟩
        · simp [hStays] at hOld
        · exact .inr ⟨hReserved hOld, hSame⟩
    · rw [State.setPc_pc, if_neg hqp] at hq ⊢
      exact h.mine ticket cmd q hFrom hCmd hi hq
  · intro hOpen i q k x hi hq
    by_cases hqp : q = p
    · subst hqp
      rw [State.setPc_pc, if_pos rfl] at hq
      exact (hActive i (by rcases hq with hq | hq <;> rw [hq] <;> rfl) hi).present k x hq
    · rw [State.setPc_pc, if_neg hqp] at hq
      exact h.present hOpen i q k x hi hq
  · intro i hReady
    obtain ⟨hPending, hPcs⟩ := h.unready i hReady
    refine ⟨hPending, fun q => ?_⟩
    by_cases hqp : q = p
    · subst hqp
      rw [State.setPc_pc, if_pos rfl]
      have : s.ctrl.per_slot_ready_mask.test_bit i = true := hReady
      refine ⟨fun hPc => ?_, fun hPc => ?_⟩
      · simp [hUnready i (.inl hPc)] at this
      · simp [hUnready i (.inr hPc)] at this
    · rw [State.setPc_pc, if_neg hqp]
      exact hPcs q
  · refine h.phase.of_same rfl rfl (fun _ _ hj => hj) (fun _ _ _ hj => hj) fun hPc hAll =>
      hAll.of_same rfl rfl fun j q hj hq => ?_
    have hqp : q ≠ p := by
      rintro rfl
      rw [State.setPc_pc, if_pos rfl] at hq
      have := h.not_committed hTenancy hj (by rw [← hSlot, hq]) (hActive j hq hj).moves
      simp [this] at hPc
    simp [hqp]

theorem Round.advance {l : Label} {pc : WorkerPc} (h : Round c s) (hTenancy : Tenancy s)
    (hQuit : s.ctrl.quit_flag = false) (hMove : Advance c s p l (s.workers p).pc pc) :
    Round c (s.setPc p pc) := by
  have hStep := h.in_step
  have hOp := h.op p
  generalize hPc : (s.workers p).pc = old at hMove
  cases hMove with
  | quit hSet => simp [hQuit] at hSet
  | @begin i v b hEvicted =>
      refine h.setPc hTenancy _ (by rw [hPc]; rfl) ?_ (by simp) fun j hj hA => ?_
      · simp [WorkerPc.WithinToken, Config.ops_per_token]
      · have hIn := hStep j p hA (by rw [hPc, ← hj]; rfl)
        rw [hPc] at hIn
        exact ⟨by simp [hPc], hIn, .inr (by simp [hPc, WorkerPc.leaving, WorkerPc.reserved]),
          by simp⟩
  | @fetched i k e x v b hMore =>
      have hk : k < c.ops_per_token := by simpa [hPc, WorkerPc.WithinToken] using hOp
      refine h.setPc hTenancy _ (by rw [hPc]; rfl) ?_ (by simp) fun j hj hA => ?_
      · simp only [WorkerPc.WithinToken]
        omega
      · have hIn := hStep j p hA (by rw [hPc, ← hj]; rfl)
        rw [hPc, WorkerPc.InStep, Nat.mod_eq_of_lt (by omega)] at hIn
        exact ⟨by simp [hPc], hIn.2, .inr (by simp [hPc, WorkerPc.leaving, WorkerPc.reserved]),
          by simp⟩
  | @published i k e x v b hEpoch =>
      have hk : k < c.ops_per_token := by simpa [hPc, WorkerPc.WithinToken] using hOp
      refine h.setPc hTenancy _ (by rw [hPc]; rfl) ?_ (by simp) fun j hj hA => ?_
      · simp only [WorkerPc.WithinToken]
        omega
      · have hIn := hStep j p hA (by rw [hPc, ← hj]; rfl)
        rw [hPc] at hIn
        rcases hIn with ⟨rfl, -⟩ | hIn
        · omega
        · refine ⟨?_, hIn, .inr ⟨by rw [hPc]; rfl, ?_⟩, by simp⟩
          · simp [hPc]
            omega
          · simp only [hPc, WorkerPc.reserved, beq_iff_eq]
            omega
  | @capture i k v b =>
      have hk : k < c.ops_per_token := by simpa [hPc, WorkerPc.WithinToken] using hOp
      refine h.setPc hTenancy _ (by rw [hPc]; rfl) ?_ (by simp) fun j hj hA => ?_
      · simp only [WorkerPc.WithinToken]
        omega
      · have hIn := hStep j p hA (by rw [hPc, ← hj]; rfl)
        rw [hPc] at hIn
        exact ⟨by simp [hPc], ⟨rfl, hIn⟩,
          .inr (by simp [hPc, WorkerPc.leaving, WorkerPc.reserved]), by simp⟩
  | activated hActive | again hDone =>
      refine h.setPc hTenancy _ (by rw [hPc]; rfl) trivial (by simp) fun j hj hA => ?_
      have hIn := hStep j p hA (by rw [hPc, ← hj]; rfl)
      rw [hPc] at hIn
      exact ⟨by simp [hPc], hIn, .inr (by simp [hPc, WorkerPc.leaving, WorkerPc.reserved]),
        by simp⟩
  | complete hDone | acknowledged hActive | notActivated hActive | notAcknowledged hActive =>
      exact h.setPc hTenancy _ (by rw [hPc]; rfl) trivial (by simp) fun j hj hA =>
        ⟨by simp [hPc], trivial, .inl rfl, by simp⟩
  | failPending hPending =>
      rcases hPending with rfl | rfl <;>
        exact h.setPc hTenancy _ (by rw [hPc]; rfl) trivial (by simp) fun j hj hA =>
          ⟨by simp [hPc], trivial, .inl rfl, by simp⟩
  | @failActive i _ hRunning =>
      have hMoves : ∀ j k x, old ≠ .op j k (.wait s.ctrl.barrier_done_epoch x) := by
        intro j k x hOld
        rcases hRunning with rfl | rfl | ⟨k', stage, rfl, hStage⟩
        · simp at hOld
        · simp at hOld
        · simp only [WorkerPc.op.injEq] at hOld
          exact (hStage _ _ .loadHead).2 hOld.2.2
      have hOldSlot : old.slot = some i := by
        rcases hRunning with rfl | rfl | ⟨k', stage, rfl, hStage⟩ <;> rfl
      exact h.setPc hTenancy _ (by rw [hPc, hOldSlot]; rfl) trivial (by simp) fun j hj hA =>
        ⟨by simpa [hPc] using hMoves j, trivial, .inl rfl, by simp⟩

/-- Only the positions of the workers matter. -/
theorem Round.withWorkers (h : Round c s) (workers : Nat → Worker)
    (hPc : ∀ q, (workers q).pc = (s.workers q).pc) : Round c { s with workers } := by
  refine ⟨?_, ?_, ?_, ?_, h.unique, ?_, ?_, ?_⟩
  · simpa only [hPc] using h.op
  · simpa only [hPc] using h.in_step
  · simpa only [hPc] using h.ready
  · simpa only [hPc] using h.mine
  · simpa only [hPc] using h.present
  · intro j hj
    refine ⟨(h.unready j hj).1, fun q => ?_⟩
    rw [hPc]
    exact (h.unready j hj).2 q
  · exact h.phase.of_same rfl rfl (fun _ _ hj => hj) (fun _ _ _ hj => hj) fun _ hAll =>
      hAll.of_same rfl rfl fun _ q _ _ => hPc q

/-- The ready bit of a waiting worker is set. -/
theorem Round.raise {k e x : Nat} (h : Round c s) (hTenancy : Tenancy s)
    (hPc : (s.workers p).pc = .op i k (.wait e x))
    (hActive : s.agg.active_mask.test_bit i = true →
      e = s.ctrl.barrier_done_epoch ∧ s.agg.pc.clearing = false) :
    Round c { s with ctrl := s.ctrl.slot_signal_ready i } := by
  have hBits : ∀ j, (s.ctrl.slot_signal_ready i).per_slot_ready_mask.test_bit j = true ↔
      j = i ∨ s.ctrl.per_slot_ready_mask.test_bit j = true := by
    intro j
    simp [ControlBlock.slot_signal_ready]
  have hSlot : (s.workers p).pc.slot = some i := by rw [hPc]; rfl
  refine ⟨h.op, h.in_step, ?_, h.mine, h.unique, h.present, ?_, ?_⟩
  · intro hOpen j hj hReady
    rcases (hBits j).mp hReady with rfl | hOld
    · obtain ⟨rfl, -⟩ := hActive hj
      exact ⟨p, k, x, hPc⟩
    · exact h.ready hOpen j hj hOld
  · intro j hReady
    rcases (hBits j).mp hReady with rfl | hOld
    · refine ⟨?_, fun q => ⟨fun hq => ?_, fun hq => ?_⟩⟩
      · change s.joinPending j = false
        by_contra hPending
        have := hTenancy.joining j p (by simpa using hPending) hSlot
        simp [hPc, WorkerPc.joining] at this
      · obtain rfl := hTenancy.holder_unique hSlot (i := j) (q := q) (by rw [hq]; rfl)
        simp [hPc] at hq
      · obtain rfl := hTenancy.holder_unique hSlot (i := j) (q := q) (by rw [hq]; rfl)
        simp [hPc] at hq
    · exact h.unready j hOld
  · refine h.phase.of_same rfl rfl (fun j _ hj => (hBits j).mpr (.inr hj)) ?_ fun _ hAll => hAll
    intro hClearing j hj hOff
    by_contra hOn
    rcases (hBits j).mp (by simpa using hOn) with rfl | hOld
    · simp [(hActive hj).2] at hClearing
    · simp [hOld] at hOff

/-- The reservation of a worker appears on the ring. -/
theorem Round.append {k e x index ticket written : Nat} (h : Round c s) (hTenancy : Tenancy s)
    (hPc : (s.workers p).pc = .op i k (.submit e x (.write index ticket written)))
    (hActive : s.agg.active_mask.test_bit i = true →
      e = s.ctrl.barrier_done_epoch ∧ s.agg.due = k ∧ s.agg.pc.committed = false ∧
      ∀ ticket cmd, s.agg.finished ≤ ticket → s.ring.log[ticket]? = some cmd → cmd.slot_id ≠ i)
    {ring : CommandRing Submission} (hLog : ring.log = s.ring.log ++ [c.submission k i p e]) :
    Round c { s with ring } := by
  have hSlot : (s.workers p).pc.slot = some i := by rw [hPc]; rfl
  have hSplit : ∀ {ticket cmd}, ring.log[ticket]? = some cmd →
      s.ring.log[ticket]? = some cmd ∨
        (ticket = s.ring.log.length ∧ cmd = c.submission k i p e) := by
    intro ticket cmd hCmd
    rw [hLog, List.getElem?_append] at hCmd
    split at hCmd
    next => exact .inl hCmd
    next hGe =>
      rw [List.getElem?_singleton] at hCmd
      split at hCmd
      next hZero => exact .inr ⟨by omega, (Option.some.inj hCmd).symm⟩
      next => simp at hCmd
  have hNone : ∀ first, s.agg.pc.committed = true → NoneFrom s first →
      NoneFrom { s with ring } first := by
    intro first hCommitted hOld ticket cmd hFrom hCmd
    rcases hSplit hCmd with hCmd | ⟨-, rfl⟩
    · exact hOld ticket cmd hFrom hCmd
    · by_contra hA
      simp [(hActive (by simpa [Config.submission] using hA)).2.2.1] at hCommitted
  refine ⟨h.op, h.in_step, h.ready, ?_, ?_, ?_, h.unready, ?_⟩
  · intro t cmd q hFrom hCmd hA hq
    rcases hSplit hCmd with hCmd | ⟨-, rfl⟩
    · exact h.mine t cmd q hFrom hCmd hA hq
    · obtain rfl := hTenancy.holder_unique hSlot (i := i) (q := q) hq
      obtain ⟨rfl, rfl, -⟩ := hActive hA
      exact .inr ⟨by simp [hPc, WorkerPc.reserved], rfl⟩
  · intro t t' cmd cmd' hFrom hFrom' hCmd hCmd' hSame hA
    rcases hSplit hCmd with hCmd | ⟨rfl, rfl⟩ <;> rcases hSplit hCmd' with hCmd' | ⟨rfl, rfl⟩
    · exact h.unique t t' cmd cmd' hFrom hFrom' hCmd hCmd' hSame hA
    · exact absurd hSame ((hActive (by rw [hSame] at hA; exact hA)).2.2.2 t cmd hFrom hCmd)
    · exact absurd hSame.symm ((hActive hA).2.2.2 t' cmd' hFrom' hCmd')
    · rfl
  · intro hOpen j q k' x' hA hq
    obtain ⟨t, cmd, hFrom, hCmd, hj⟩ := h.present hOpen j q k' x' hA hq
    refine ⟨t, cmd, hFrom, ?_, hj⟩
    rw [hLog, List.getElem?_append_left (List.getElem?_eq_some_iff.mp hCmd).1, hCmd]
  · have hPhase := h.phase
    unfold Phase at hPhase ⊢
    revert hPhase
    dsimp only
    cases hAt : s.agg.pc <;> intro hPhase <;> try exact hPhase
    case spin | take | storeTail | execute =>
      exact ⟨hPhase.1, hNone _ (by rw [hAt]; rfl) hPhase.2⟩
    all_goals exact ⟨hPhase.1, hNone _ (by rw [hAt]; rfl) hPhase.2.1, hPhase.2.2⟩

/-- One step of a `submit_slot_command` call. -/
theorem Round.submit {k e x : Nat} {b : Bool} {spc : SubmitPc} (h : Round c s)
    (hTenancy : Tenancy s) (hDrain : Drain c s) (hLive : (s.workers p).crashed = false)
    (hPc : (s.workers p).pc = .op i k (.submit e x spc)) :
    Round c { s.setPc p
        (.submitted i k e x (s.ring.submit Submission.layout (c.submission k i p e) b spc).2) with
      ring := (s.ring.submit Submission.layout (c.submission k i p e) b spc).1 } := by
  have hOp := h.op p
  rw [hPc] at hOp
  have hSlot : (s.workers p).pc.slot = some i := by rw [hPc]; rfl
  have hIn : s.agg.active_mask.test_bit i = true →
      e = s.ctrl.barrier_done_epoch ∧ s.agg.due = k := by
    intro hA
    have hIn := h.in_step i p hA hSlot
    rw [hPc] at hIn
    exact hIn
  have hMoves : ∀ j k' x', (s.workers p).pc ≠ .op j k' (.wait s.ctrl.barrier_done_epoch x') := by
    simp [hPc]
  -- the worker moves before its command is logged
  have hMoved : ∀ spc', (spc.filling (c.submission k i p e) = none ∨
      ∃ index ticket written, spc' = .write index ticket written ∨ spc' = .returned) →
      (spc' = .returned → s.agg.active_mask.test_bit i = true →
        ∃ ticket cmd, s.agg.finished ≤ ticket ∧ s.ring.log[ticket]? = some cmd ∧
          cmd.slot_id = i) →
      Round c (s.setPc p (.submitted i k e x spc')) := by
    intro spc' hStays hTicket
    refine h.setPc hTenancy _ (by rw [hSlot, WorkerPc.submitted_slot]) ?_ ?_ fun j hj hA => ?_
    · cases spc <;> cases spc' <;> simp_all [WorkerPc.submitted, WorkerPc.WithinToken]
    · intro j hj
      cases spc' <;> simp [WorkerPc.submitted] at hj
    · obtain rfl : i = j := by simpa [WorkerPc.submitted_slot] using hj
      obtain ⟨rfl, hDue⟩ := hIn hA
      refine ⟨hMoves _, ?_, ?_, ?_⟩
      · cases spc' <;> simp [WorkerPc.submitted, WorkerPc.InStep, hDue]
      · rcases hStays with hNone | ⟨index, t, written, rfl | rfl⟩
        · right
          cases spc <;> simp_all [WorkerPc.leaving, WorkerPc.reserved, SubmitPc.filling]
        · simp [hPc, WorkerPc.submitted, WorkerPc.leaving, WorkerPc.reserved]
        · simp [hPc, WorkerPc.submitted, WorkerPc.leaving, WorkerPc.reserved]
      · intro k' x' hNew
        refine hTicket ?_ hA
        cases spc' <;> simp_all [WorkerPc.submitted]
  cases spc with
  | loadHead => exact { hMoved (.checkFull s.ring.head) (.inl rfl) (by simp) with }
  | checkFull head =>
      simp only [CommandRing.submit]
      split
      · exact { hMoved .full (.inl rfl) (by simp) with }
      · exact { hMoved (.casHead head) (.inl rfl) (by simp) with }
  | casHead head =>
      simp only [CommandRing.submit]
      split
      next hCas =>
        have hWrites := hMoved (.write head s.ring.log.length 0) (.inl rfl) (by simp)
        have hHeld : Tenancy (s.setPc p (.submitted i k e x (.write head s.ring.log.length 0))) :=
          hTenancy.move _ hLive hSlot (by simp [hPc]) (by simp [hPc]) rfl rfl
            (.inr (.inl (by rw [hPc]; rfl)))
        have hAt : ((s.setPc p (.submitted i k e x (.write head s.ring.log.length 0))).workers
            p).pc = .op i k (.submit e x (.write head s.ring.log.length 0)) := by
          simp [WorkerPc.submitted]
        refine hWrites.append hHeld hAt (fun hA => ?_) rfl
        obtain ⟨hE, hDue⟩ := hIn hA
        refine ⟨hE, hDue, h.not_committed hTenancy hA hSlot (hMoves i), ?_⟩
        rintro t cmd hFrom hCmd rfl
        have := h.mine t cmd p hFrom hCmd hA hSlot
        simp [hPc, WorkerPc.leaving, WorkerPc.reserved] at this
      next => exact { hMoved .loadHead (.inl rfl) (by simp) with }
  | write index ticket written =>
      simp only [CommandRing.submit]
      split
      next write hWrite =>
        exact { hMoved (.write index ticket (written + 1)) (.inr ⟨_, _, _, .inl rfl⟩) (by simp) with }
      next hEnd =>
        refine { hMoved .returned (.inr ⟨index, ticket, written, .inr rfl⟩) fun _ _ => ?_ with }
        obtain ⟨filling, hConsistent, hFilling⟩ := hDrain.ring
        have hFills : filling p = some ⟨c.submission k i p e, index, ticket, written⟩ := by
          rw [hFilling p hLive, hPc]
          rfl
        have hFilled := hConsistent.filled p _ hFills
        have hLe := hConsistent.finished_le
        exact ⟨ticket, _, by have := hFilled.1; simp only at this; omega, hFilled.2.1, rfl⟩
  | returned => exact hOp.elim
  | full => exact { hMoved .full (.inl rfl) (by simp) with }

/-- Of the calls only the scrubbing of a claimed slot matters. -/
theorem Round.setCall (h : Round c s) (call : Call)
    (hCall : ∀ i, (s.workers p).pc = .claimed i →
      s.ctrl.per_slot_ready_mask.test_bit i = true →
      ∃ w k, call = .claim w (.scrubReady i k) ∧ (k = 0 ∨ wordIndex i ≠ 0)) :
    Round c (s.setCall p call) := by
  refine ⟨h.op, h.in_step, h.ready, h.mine, h.unique, h.present, ?_, h.phase⟩
  intro i hReady
  refine ⟨(h.unready i hReady).1, fun q => ⟨((h.unready i hReady).2 q).1, fun hPc => ?_⟩⟩
  by_cases hq : q = p
  · subst hq
    simpa using hCall i hPc hReady
  · simpa [hq] using ((h.unready i hReady).2 q).2 hPc

theorem AggregatorPc.clearing_of_committed {pc : AggregatorPc} (h : pc.committed = false) :
    pc.clearing = false := by
  cases pc <;> simp_all [AggregatorPc.committed, AggregatorPc.clearing]

/-- A worker that has only claimed its slot is not active. -/
theorem Tenancy.inactive (h : Tenancy s) (hSlot : (s.workers p).pc.slot = some i)
    (hUnjoined : (s.workers p).pc.unjoined = true) : s.agg.active_mask.test_bit i = false := by
  by_contra hA
  have := h.joined i p (by simp only [Bool.not_eq_false] at hA; simp [State.isActive, hA]) hSlot
  simp [hUnjoined] at this

/-- A worker without a slot has no part in the round. -/
theorem Round.setIdle (h : Round c s) (hTenancy : Tenancy s) (hOld : (s.workers p).pc.slot = none) :
    Round c (s.setPc p .idle) :=
  h.setPc hTenancy .idle hOld.symm trivial (by simp) (by simp [WorkerPc.slot])

/-- Nor has one that is on its way out of its slot, if it does not wait for the end of the round. -/
theorem Round.leaving (h : Round c s) (hTenancy : Tenancy s) (pc : WorkerPc)
    (hOld : (s.workers p).pc.slot = some i) (hNew : pc.slot = some i) (hLeaving : pc.leaving = true)
    (hMoves : ∀ j k x, (s.workers p).pc ≠ .op j k (.wait s.ctrl.barrier_done_epoch x)) :
    Round c (s.setPc p pc) := by
  refine h.setPc hTenancy pc (by rw [hOld, hNew]) ?_ ?_ fun j hj hA =>
    ⟨hMoves j, ?_, .inl hLeaving, ?_⟩
  · cases pc <;> simp_all [WorkerPc.leaving, WorkerPc.WithinToken]
  · rintro j (rfl | rfl) <;> simp [WorkerPc.leaving] at hLeaving
  · cases pc <;> simp_all [WorkerPc.leaving, WorkerPc.InStep]
  · rintro k x (rfl | rfl) <;> simp [WorkerPc.leaving] at hLeaving

/-- The slot that a claim has returned is not ready: the claim has scrubbed it. -/
theorem Round.claimReturned (h : Round c s) (hTenancy : Tenancy s)
    (hPc : (s.workers p).pc = .claimed i) (hCall : s.calls p = .claim p (.returned i)) :
    Round c ((s.setCall p .idle).setPc p (.prepared i)) := by
  have hSlot : (s.workers p).pc.slot = some i := by rw [hPc]; rfl
  have hInactive := hTenancy.inactive hSlot (by rw [hPc]; rfl)
  have hUnready : s.ctrl.per_slot_ready_mask.test_bit i = false := by
    by_contra hReady
    obtain ⟨w, k, hScrub, -⟩ := ((h.unready i (by simpa using hReady)).2 p).2 hPc
    simp [hCall] at hScrub
  have hMoved := h.setPc hTenancy (.prepared i) hSlot.symm trivial
    (by simp [hUnready]) (fun j hj hA => by
      obtain rfl := Option.some.inj hj
      simp [hInactive] at hA)
  exact hMoved.setCall .idle (by simp)

/-- A worker signals its join, with its ready bit clear. -/
theorem Round.join (h : Round c s) (hTenancy : Tenancy s) (hPc : (s.workers p).pc = .prepared i) :
    Round c { s.setPc p (.polling i) with
      ctrl := s.ctrl.slot_signal_join i
      joinTag := Function.update s.joinTag i (s.tenancy i) } := by
  have hSlot : (s.workers p).pc.slot = some i := by rw [hPc]; rfl
  have hInactive := hTenancy.inactive hSlot (by rw [hPc]; rfl)
  have hMoved := h.setPc hTenancy (.polling i) hSlot.symm trivial (by simp)
    (fun j hj hA => by
      obtain rfl := Option.some.inj hj
      simp [hInactive] at hA)
  refine { hMoved with unready := fun j hReady => ⟨?_, (hMoved.unready j hReady).2⟩ }
  have hji : j ≠ i := by
    rintro rfl
    exact ((h.unready j hReady).2 p).1 hPc
  have hOld := (h.unready j hReady).1
  simpa [State.joinPending, ControlBlock.slot_signal_join, hji] using hOld

/-- A worker signals that its command is on the ring, and waits. -/
theorem Round.signal (h : Round c s) (hTenancy : Tenancy s)
    (hLive : (s.workers p).crashed = false) {k e x : Nat}
    (hPc : (s.workers p).pc = .op i k (.signal e x)) :
    Round c { s.setPc p (.op i k (.wait e x)) with ctrl := s.ctrl.slot_signal_ready i } := by
  have hOp := h.op p
  rw [hPc] at hOp
  have hSlot : (s.workers p).pc.slot = some i := by rw [hPc]; rfl
  have hOpen : s.agg.active_mask.test_bit i = true →
      e = s.ctrl.barrier_done_epoch ∧ s.agg.due = k ∧ s.agg.pc.clearing = false := by
    intro hA
    have hIn := h.in_step i p hA hSlot
    rw [hPc] at hIn
    exact ⟨hIn.1, hIn.2, AggregatorPc.clearing_of_committed
      (h.not_committed hTenancy hA hSlot (by simp [hPc]))⟩
  have hMoved := h.setPc hTenancy (.op i k (.wait e x)) hSlot.symm hOp (by simp)
    (fun j hj hA => by
      obtain rfl := Option.some.inj hj
      obtain ⟨rfl, hDue, hClear⟩ := hOpen hA
      refine ⟨by simp [hPc], .inl ⟨rfl, hDue⟩,
        .inr (by simp [hPc, WorkerPc.leaving, WorkerPc.reserved]), fun k' x' _ => ?_⟩
      exact h.present hClear _ p k x hA (.inl hPc))
  have hHeld : Tenancy (s.setPc p (.op i k (.wait e x))) :=
    hTenancy.move _ hLive hSlot (by simp [hPc]) (by simp [hPc]) rfl rfl
      (.inr (.inl (by rw [hPc]; rfl)))
  have hRaised := hMoved.raise (p := p) (i := i) (k := k) (e := e) (x := x) hHeld (by simp)
    fun hA => ⟨(hOpen hA).1, (hOpen hA).2.2⟩
  exact { hRaised with }

/-- A move of a live worker keeps the round. -/
theorem Round.worker {l : Label} (h : Round c s) (hTenancy : Tenancy s) (hDrain : Drain c s)
    (hQuit : s.ctrl.quit_flag = false) (hLive : (s.workers p).crashed = false)
    (hMove : WorkerMove c s p l s') : Round c s' := by
  cases hMove with
  | advance hMove => exact h.advance hTenancy hQuit hMove
  | claimThrew hPc hCall =>
      exact (h.setIdle hTenancy (by rw [hPc]; rfl)).setCall .idle (by simp)
  | claimReturned hPc hCall => exact h.claimReturned hTenancy hPc hCall
  | join hPc => exact h.join hTenancy hPc
  | @evicted i _ _ hPc hEvicted =>
      have hMoved := h.leaving hTenancy (.leave i false) (by rw [hPc]; rfl) rfl rfl (by simp [hPc])
      exact { hMoved with }
  | @prepare i k e v _ hPc =>
      have hOp := h.op p
      rw [hPc] at hOp
      have hMoved := h.setPc hTenancy (.op i k (.submit e v .loadHead)) (by rw [hPc]; rfl) hOp
        (by simp) (fun j hj hA => by
          have hIn := h.in_step j p hA (by rw [hPc, ← hj]; rfl)
          rw [hPc] at hIn
          exact ⟨by simp [hPc], hIn, .inr (by simp [hPc, WorkerPc.leaving, WorkerPc.reserved]),
            by simp⟩)
      exact { hMoved with }
  | submit hPc => exact h.submit hTenancy hDrain hLive hPc
  | signal hPc => exact h.signal hTenancy hLive hPc
  | @sample i k e x _ _ hPc hLast =>
      have hMoved := h.setPc hTenancy (.tokenEnd i) (by rw [hPc]; rfl) trivial (by simp)
        (fun j hj hA => by
          have hIn := h.in_step j p hA (by rw [hPc, ← hj]; rfl)
          rw [hPc, WorkerPc.InStep, hLast, Nat.mod_self] at hIn
          exact ⟨by simp [hPc], hIn.2,
            .inr (by simp [hPc, WorkerPc.leaving, WorkerPc.reserved]), by simp⟩)
      exact hMoved.withWorkers _ fun q => by by_cases hq : q = p <;> simp [hq]
  | @leave i f _ _ hPc =>
      have hMoved := h.leaving hTenancy (if f then .awaitLeave i else .release i false)
        (by rw [hPc]; rfl) (by cases f <;> rfl) (by cases f <;> rfl) (by simp [hPc])
      exact { hMoved with }
  | @release i f _ _ hPc =>
      have hMoved := h.leaving hTenancy (.releasing i f) (by rw [hPc]; rfl) rfl rfl (by simp [hPc])
      exact hMoved.setCall _ (by simp)
  | releaseThrew hPc hCall =>
      have hCoherent := hTenancy.coherent p
      rw [hCall] at hCoherent
      exact hCoherent.2.elim
  | finish hPc hCall =>
      have hMoved := (h.setIdle hTenancy (by rw [hPc]; rfl)).setCall (p := p) .idle (by simp)
      exact { hMoved with }

/-- The new owner of a slot finds it inactive. -/
theorem Round.own {w : Int} (h : Round c s) (hTenancy : Tenancy s)
    (hCall : s.calls p = .claim w (.storeOwner i)) (hFresh : s.isActive i = false)
    {pool : SlotPool} {tenancy : Slot → Nat} :
    Round c { (s.setCall p (.claim w (.scrubReady i 0))).setPc p (.claimed i) with
      pool, tenancy } := by
  have hc := hTenancy.coherent p
  rw [hCall] at hc
  have hPc : (s.workers p).pc = .claiming := hc.2
  have hInactive : s.agg.active_mask.test_bit i = false := by
    simp only [State.isActive, Bool.or_eq_false_iff] at hFresh
    exact hFresh.1
  have hOther : ∀ {j q}, s.agg.active_mask.test_bit j = true →
      ((s.setPc p (.claimed i)).workers q).pc.slot = some j → q ≠ p := by
    rintro j q hj hq rfl
    simp only [State.setPc_pc, if_pos, WorkerPc.slot, Option.some.injEq] at hq
    simp [← hq, hInactive] at hj
  have hAt : ∀ {q}, q ≠ p → ((s.setPc p (.claimed i)).workers q).pc = (s.workers q).pc := by
    intro q hq
    simp [hq]
  refine ⟨?_, ?_, ?_, ?_, h.unique, ?_, ?_, ?_⟩
  · intro q
    change ((s.setPc p (.claimed i)).workers q).pc.WithinToken _
    rw [State.setPc_pc]
    split
    · trivial
    · exact h.op q
  · intro j q hj hq
    have hqp := hOther hj hq
    change ((s.setPc p (.claimed i)).workers q).pc.slot = _ at hq
    change ((s.setPc p (.claimed i)).workers q).pc.InStep _ _ _
    rw [hAt hqp] at hq ⊢
    exact h.in_step j q hj hq
  · intro hOpen j hj hReady
    obtain ⟨q, k, x, hq⟩ := h.ready hOpen j hj hReady
    have hqp : q ≠ p := by
      rintro rfl
      simp [hPc] at hq
    exact ⟨q, k, x, (hAt hqp).trans hq⟩
  · intro t cmd q hFrom hCmd hj hq
    have hqp := hOther hj hq
    change ((s.setPc p (.claimed i)).workers q).pc.slot = _ at hq
    change ((s.setPc p (.claimed i)).workers q).pc.leaving = _ ∨
      ((s.setPc p (.claimed i)).workers q).pc.reserved _ = _ ∧ _
    rw [hAt hqp] at hq ⊢
    exact h.mine t cmd q hFrom hCmd hj hq
  · intro hOpen j q k x hj hq
    have hqp : q ≠ p := by
      rintro rfl
      simp at hq
    change ((s.setPc p (.claimed i)).workers q).pc = _ ∨
      ((s.setPc p (.claimed i)).workers q).pc = _ at hq
    rw [hAt hqp] at hq
    exact h.present hOpen j q k x hj hq
  · intro j hReady
    refine ⟨(h.unready j hReady).1, fun q => ?_⟩
    by_cases hqp : q = p
    · subst hqp
      refine ⟨by simp, fun hq => ⟨w, 0, ?_, .inl rfl⟩⟩
      have : i = j := by simpa using hq
      subst this
      simp
    · have hOld := (h.unready j hReady).2 q
      simpa [hqp] using hOld
  · exact h.phase.of_same rfl rfl (fun _ _ hj => hj) (fun _ _ _ hj => hj) fun _ hAll =>
      hAll.of_same rfl rfl fun j q hj hq => hAt (hOther hj hq)

/-- The ready bit of a claimed slot is cleared. -/
theorem Round.scrub {w : Int} {k : Fin 2} (h : Round c s) (hTenancy : Tenancy s)
    (hCall : s.calls p = .claim w (.scrubReady i k)) :
    Round c { s.setCall p (.claim w (if k = 0 then .scrubReady i 1 else .scrubEvicted i 0)) with
      ctrl := claim_slot_scrub s.ctrl (.scrubReady i k) } := by
  have hc := hTenancy.coherent p
  rw [hCall] at hc
  have hPc : (s.workers p).pc = .claimed i := hc.2
  have hSlot : (s.workers p).pc.slot = some i := by rw [hPc]; rfl
  have hInactive := hTenancy.inactive hSlot (by rw [hPc]; rfl)
  have hBits : ∀ j, (claim_slot_scrub s.ctrl
      (.scrubReady i k)).per_slot_ready_mask.test_bit j = true ↔
      s.ctrl.per_slot_ready_mask.test_bit j = true ∧ (j = i → wordIndex i ≠ k) := by
    intro j
    simp only [claim_slot_scrub, SlotMask.test_bit_andWord, SlotMask.test_bit_not,
      SlotMask.test_bit_from_bit]
    by_cases hj : j = i
    · subst hj
      by_cases hw : wordIndex j = k <;> simp [hw]
    · simp [hj]
  have hSame : ∀ j, s.agg.active_mask.test_bit j = true →
      (claim_slot_scrub s.ctrl (.scrubReady i k)).per_slot_ready_mask.test_bit j =
        s.ctrl.per_slot_ready_mask.test_bit j := by
    intro j hj
    have hji : j ≠ i := by
      rintro rfl
      simp [hInactive] at hj
    rw [Bool.eq_iff_iff, hBits]
    simp [hji]
  refine ⟨h.op, h.in_step, ?_, h.mine, h.unique, h.present, ?_, ?_⟩
  · intro hOpen j hj hReady
    exact h.ready hOpen j hj (((hBits j).mp hReady).1)
  · intro j hReady
    obtain ⟨hOld, hWord⟩ := (hBits j).mp hReady
    refine ⟨(h.unready j hOld).1, fun q => ⟨((h.unready j hOld).2 q).1, fun hq => ?_⟩⟩
    obtain ⟨w', k', hScrub, hk'⟩ := ((h.unready j hOld).2 q).2 hq
    by_cases hqp : q = p
    · subst hqp
      have hji : j = i := by
        have := hq.symm.trans hPc
        simpa using this
      subst hji
      rw [hCall] at hScrub
      simp only [Call.claim.injEq, ClaimPc.scrubReady.injEq, true_and] at hScrub
      obtain ⟨-, rfl⟩ := hScrub
      -- the word of the slot has just been cleared, unless it is the other one
      have := hWord rfl
      have hk : k = 0 := by omega
      exact ⟨w, 1, by simp [hk], .inr (hk ▸ this)⟩
    · exact ⟨w', k', by simpa [hqp] using hScrub, hk'⟩
  · exact h.phase.of_same rfl rfl (fun j hj hOn => by rw [hSame j hj, hOn])
      (fun _ j hj hOff => by rw [hSame j hj, hOff]) fun _ hAll => hAll

/-- An owner gives up its slot; the round goes on without a worker there. -/
theorem Round.giveUp (h : Round c s) (call : Call) (f : Bool)
    (hSlot : (s.workers p).pc.slot = some i)
    (hKept : ¬(s.agg.active_mask.test_bit i = true ∧
      s.ctrl.per_slot_ready_mask.test_bit i = true ∧
      ∃ ticket cmd, s.agg.finished ≤ ticket ∧ s.ring.log[ticket]? = some cmd ∧ cmd.slot_id = i)) :
    Round c ((s.setCall p call).setPc p (.released f)) := by
  have hAt : ∀ {q}, q ≠ p →
      (((s.setCall p call).setPc p (.released f)).workers q).pc = (s.workers q).pc := by
    intro q hq
    simp [hq]
  have hOther : ∀ {j q},
      (((s.setCall p call).setPc p (.released f)).workers q).pc.slot = some j → q ≠ p := by
    rintro j q hq rfl
    simp [WorkerPc.slot] at hq
  refine ⟨?_, ?_, ?_, ?_, h.unique, ?_, ?_, ?_⟩
  · intro q
    rw [State.setPc_pc]
    split
    · trivial
    · exact h.op q
  · intro j q hj hq
    have hqp := hOther hq
    rw [hAt hqp] at hq ⊢
    exact h.in_step j q hj hq
  · intro hOpen j hj hReady
    obtain ⟨q, k, x, hq⟩ := h.ready hOpen j hj hReady
    have hqp : q ≠ p := by
      rintro rfl
      have hji : j = i := by
        rw [hq] at hSlot
        exact Option.some.inj hSlot
      subst hji
      exact hKept ⟨hj, hReady, h.present hOpen j q k x hj (.inr hq)⟩
    exact ⟨q, k, x, (hAt hqp).trans hq⟩
  · intro t cmd q hFrom hCmd hj hq
    have hqp := hOther hq
    rw [hAt hqp] at hq ⊢
    exact h.mine t cmd q hFrom hCmd hj hq
  · intro hOpen j q k x hj hq
    have hqp : q ≠ p := by
      rintro rfl
      simp at hq
    rw [hAt hqp] at hq
    exact h.present hOpen j q k x hj hq
  · intro j hReady
    refine ⟨(h.unready j hReady).1, fun q => ?_⟩
    by_cases hqp : q = p
    · subst hqp
      simp
    · rw [hAt hqp]
      simpa [hqp] using (h.unready j hReady).2 q
  · exact h.phase.of_same rfl rfl (fun _ _ hj => hj) (fun _ _ _ hj => hj) fun _ hAll =>
      hAll.of_same rfl rfl fun j q hj hq => hAt (hOther hq)

/-- A step of a connection thread keeps the round. -/
theorem Round.call (h : Round c s) (hTenancy : Tenancy s) (hMove : CallMove s p s')
    (hFresh : ∀ w i, s.calls p = .claim w (.storeOwner i) → s.isActive i = false)
    (hKept : ∀ w i, s.calls p = .release w (.casOwner i) →
      s.pool.owner_worker_id i = (w : Int) → ¬(s.agg.active_mask.test_bit i = true ∧
        s.ctrl.per_slot_ready_mask.test_bit i = true ∧ ∃ ticket cmd,
          s.agg.finished ≤ ticket ∧ s.ring.log[ticket]? = some cmd ∧ cmd.slot_id = i)) :
    Round c s' := by
  have hc := hTenancy.coherent p
  -- while the slot of a claim is not being scrubbed, its ready bit is clear
  have hElse : ∀ call, (∀ w i k, s.calls p ≠ .claim w (.scrubReady i k)) →
      Round c (s.setCall p call) := by
    intro call hCall
    refine h.setCall call fun i hPc hReady => ?_
    obtain ⟨w, k, hScrub, -⟩ := ((h.unready i hReady).2 p).2 hPc
    exact absurd hScrub (hCall w i k)
  cases hMove with
  | @search w b pc hCall hPc =>
      have hMoved := hElse (.claim w (claim_slot s.pool w b pc).2)
        (by rcases hPc with ⟨k, m, rfl⟩ | ⟨i, x, rfl⟩ <;> simp [hCall])
      exact { hMoved with }
  | own hCall => exact h.own hTenancy hCall (hFresh _ _ hCall)
  | scrubReady hCall => exact h.scrub hTenancy hCall
  | @scrubEvicted w i k hCall =>
      have hMoved := hElse (.claim w (if k = 0 then .scrubEvicted i 1 else .returned i))
        (by simp [hCall])
      exact { hMoved with }
  | @giveUp w i hCall hOwner =>
      rw [hCall] at hc
      have hMoved := h.giveUp (.release w (.setFree i)) (s.workers p).pc.succeeded hc.2.1
        (hKept w i hCall hOwner)
      exact { hMoved with }
  | refuse hCall hOwner => exact hElse _ (by simp [hCall])
  | @free w i hCall =>
      have hMoved := hElse (.release w (.clearActive i 0)) (by simp [hCall])
      exact { hMoved with }
  | @cleanUp w i k hCall =>
      have hMoved := hElse (.release w (if k = 0 then .clearActive i 1 else .returned))
        (by simp [hCall])
      exact { hMoved with }

end Barrier
