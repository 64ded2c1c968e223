import SwarmLoRA.Barrier.Crossing
import SwarmLoRA.Barrier.Round

namespace Barrier

open Ipc Aggregator Machine

namespace State

/-- A command of the slot is on the ring or in the batch that is being executed. -/
def outstanding (s : State) (i : Slot) : Prop :=
  ∃ cmd ∈ s.ring.log.drop s.agg.finished, cmd.slot_id = i

instance (s : State) (i : Slot) : Decidable (s.outstanding i) := by
  unfold outstanding
  infer_instance

/-- The step reserves an entry of the ring. -/
def reserves (s : State) : Label → Bool
  | .work p _ spurious =>
      match (s.workers p).pc with
      | .op _ _ (.submit _ _ pc) => s.ring.reserves spurious pc
      | _ => false
  | _ => false

/-- The slots that the step makes active. -/
def activates (s : State) : Label → SlotMask
  | .aggregate _ _ =>
      if s.agg.pc = .exchangeJoins 1 then s.agg.joins.copyWord 1 s.ctrl.pending_slot_joins
      else .zero
  | _ => .zero

/-- The commands that a drain cannot reach. -/
def beyondDrain (s : State) : Label → List Submission
  | .aggregate _ _ =>
      if s.agg.pc = .fetch then s.ring.log.drop (s.agg.taken + MAX_DRAIN) else []
  | _ => []

theorem outstanding_iff {s : State} {i : Slot} : s.outstanding i ↔
    ∃ ticket cmd, s.agg.finished ≤ ticket ∧ s.ring.log[ticket]? = some cmd ∧
      cmd.slot_id = i := by
  constructor
  · rintro ⟨cmd, hIn, hSlot⟩
    obtain ⟨n, hn⟩ := List.mem_iff_getElem?.mp hIn
    rw [List.getElem?_drop] at hn
    exact ⟨s.agg.finished + n, cmd, by omega, hn, hSlot⟩
  · rintro ⟨ticket, cmd, hFrom, hCmd, hSlot⟩
    refine ⟨cmd, List.mem_iff_getElem?.mpr ⟨ticket - s.agg.finished, ?_⟩, hSlot⟩
    rw [List.getElem?_drop, Nat.add_sub_cancel' hFrom, hCmd]

end State

/-- The condition on a step: a slot changes hands only without marks and never between
its last ready signal and the batch; a slot is activated only when no command of an
earlier tenancy is left on the ring; an entry is reserved only when the ring has room
for it; and a drain begins only when it can reach every command of an active slot. -/
structure Undisturbed (s : State) (l : Label) : Prop where
  claimed : Unmarked s l
  released : ∀ i ∈ s.releases l, ¬(s.agg.active_mask.test_bit i = true ∧
    s.ctrl.per_slot_ready_mask.test_bit i = true ∧ s.outstanding i)
  activated : ∀ i, (s.activates l).test_bit i = true → ¬s.outstanding i
  room : s.reserves l = true → s.ring.log.length < s.agg.finished + s.ring.capacity
  reached : ∀ cmd ∈ s.beyondDrain l, s.agg.active_mask.test_bit cmd.slot_id = false

instance (s : State) (l : Label) : Decidable (Unmarked s l) := Option.decidableForallMem _

instance (s : State) (l : Label) : Decidable (Undisturbed s l) :=
  decidable_of_iff (Unmarked s l ∧
    (∀ i ∈ s.releases l, ¬(s.agg.active_mask.test_bit i = true ∧
      s.ctrl.per_slot_ready_mask.test_bit i = true ∧ s.outstanding i)) ∧
    (∀ i, (s.activates l).test_bit i = true → ¬s.outstanding i) ∧
    (s.reserves l = true → s.ring.log.length < s.agg.finished + s.ring.capacity) ∧
    ∀ cmd ∈ s.beyondDrain l, s.agg.active_mask.test_bit cmd.slot_id = false)
    ⟨fun ⟨h1, h2, h3, h4, h5⟩ => ⟨h1, h2, h3, h4, h5⟩,
      fun h => ⟨h.claimed, h.released, h.activated, h.room, h.reached⟩⟩

/-- What a batch must be when it is executed: one command for each active slot and for no other, of
the worker that owns it and of the present round, all with one operation and one layer. -/
structure BatchIntact (s : State) : Prop where
  slots : (s.batch.map (·.slot_id)).Nodup
  covers : ∀ i, s.agg.active_mask.test_bit i = true ↔ ∃ cmd ∈ s.batch, cmd.slot_id = i
  owned : ∀ cmd ∈ s.batch, s.pool.owner_worker_id cmd.slot_id = (cmd.worker_id : Int) ∧
    cmd.round = s.ctrl.barrier_done_epoch
  same : ∀ cmd ∈ s.batch, ∀ cmd' ∈ s.batch,
    cmd.op_type = cmd'.op_type ∧ cmd.layer_idx = cmd'.layer_idx

variable {c : Config} {s s' : State} {p : Nat} {i : Slot} {timer : Bool} {sample : Slot → Nat}

/-- The main loop goes on within a round, or drops slots and commands from it. -/
theorem Round.shrink (h : Round c s) (hPc : ∀ q, (s'.workers q).pc = (s.workers q).pc)
    (hCalls : s'.calls = s.calls)
    (hEpoch : s'.ctrl.barrier_done_epoch = s.ctrl.barrier_done_epoch)
    (hLog : s'.ring.log = s.ring.log)
    (hActive : ∀ i, s'.agg.active_mask.test_bit i = true →
      s.agg.active_mask.test_bit i = true ∧ s'.agg.due = s.agg.due)
    (hReady : ∀ i, s'.ctrl.per_slot_ready_mask.test_bit i = true →
      s.ctrl.per_slot_ready_mask.test_bit i = true)
    (hFinished : s.agg.finished ≤ s'.agg.finished)
    (hOpen : s'.agg.pc.clearing = false →
      s.agg.pc.clearing = false ∧ s'.agg.finished = s.agg.finished)
    (hJoins : ∀ i, s'.joinPending i = true → s.joinPending i = true)
    (hPhase : Phase s') : Round c s' := by
  refine ⟨?_, ?_, ?_, ?_, ?_, ?_, ?_, hPhase⟩
  · simpa only [hPc] using h.op
  · intro i q hi hq
    rw [hPc] at hq ⊢
    obtain ⟨hOld, hDue⟩ := hActive i hi
    rw [hEpoch, hDue]
    exact h.in_step i q hOld hq
  · intro hClearing i hi hOn
    obtain ⟨q, k, x, hq⟩ := h.ready (hOpen hClearing).1 i (hActive i hi).1 (hReady i hOn)
    exact ⟨q, k, x, by rw [hPc, hEpoch, hq]⟩
  · intro t cmd q hFrom hCmd hi hq
    rw [hPc] at hq ⊢
    rw [hLog] at hCmd
    obtain ⟨hOld, hDue⟩ := hActive _ hi
    rw [hEpoch, hDue]
    exact h.mine t cmd q (by omega) hCmd hOld hq
  · intro t t' cmd cmd' hFrom hFrom' hCmd hCmd' hSame hi
    rw [hLog] at hCmd hCmd'
    exact h.unique t t' cmd cmd' (by omega) (by omega) hCmd hCmd' hSame (hActive _ hi).1
  · intro hClearing i q k x hi hq
    rw [hPc, hEpoch] at hq
    rw [hLog, (hOpen hClearing).2]
    exact h.present (hOpen hClearing).1 i q k x (hActive i hi).1 hq
  · intro i hOn
    obtain ⟨hPending, hPcs⟩ := h.unready i (hReady i hOn)
    refine ⟨?_, fun q => ?_⟩
    · by_contra hNow
      simp [hJoins i (by simpa using hNow)] at hPending
    · rw [hPc, hCalls]
      exact hPcs q

/-- The commands of active slots on the ring are no more than the active slots. -/
theorem Round.length_le_popcount (h : Round c s) {tickets : List Nat} (hNodup : tickets.Nodup)
    (hTickets : ∀ t ∈ tickets, s.agg.finished ≤ t ∧
      ∃ cmd, s.ring.log[t]? = some cmd ∧ s.agg.active_mask.test_bit cmd.slot_id = true) :
    tickets.length ≤ s.agg.active_mask.popcount := by
  let slot : Nat → Slot := fun t => ((s.ring.log[t]?).map (·.slot_id)).getD 0
  have hSlot : ∀ {t cmd}, s.ring.log[t]? = some cmd → slot t = cmd.slot_id := by
    intro t cmd hCmd
    simp [slot, hCmd]
  have hDistinct : (tickets.map slot).Nodup := by
    refine hNodup.map_on fun t ht t' ht' hSame => ?_
    obtain ⟨hFrom, cmd, hCmd, hi⟩ := hTickets t ht
    obtain ⟨hFrom', cmd', hCmd', -⟩ := hTickets t' ht'
    rw [hSlot hCmd, hSlot hCmd'] at hSame
    exact h.unique t t' cmd cmd' hFrom hFrom' hCmd hCmd' hSame hi
  have hLe := SlotMask.length_le_popcount (m := s.agg.active_mask) hDistinct (by
    intro i hi
    obtain ⟨t, ht, rfl⟩ := List.mem_map.mp hi
    obtain ⟨-, cmd, hCmd, hActive⟩ := hTickets t ht
    rw [hSlot hCmd]
    exact hActive)
  simpa using hLe

theorem test_bit_load_zero {a : AggregatorState} {m : SlotMask} {j : Slot} :
    (a.load 0 m).test_bit j = true ↔ wordIndex j = 0 ∧ m.test_bit j = true := by
  rw [AggregatorState.load, SlotMask.test_bit_copyWord]
  split <;> simp_all

theorem test_bit_load_one {a : AggregatorState} {m : SlotMask} {j : Slot} :
    (a.load 1 m).test_bit j = if wordIndex j = 0 then a.seen.test_bit j else m.test_bit j := by
  rw [AggregatorState.load, SlotMask.test_bit_copyWord]
  by_cases hw : wordIndex j = 0
  · simp [hw]
  · simp [word_eq_one hw]

theorem Round.phase_tick {pc : AggregatorPc} {seen : SlotMask} (h : Round c s)
    (hCounts : Counts c s) (hQuit : s.ctrl.quit_flag = false)
    (hTick : Tick s timer s.agg.pc pc seen) :
    Phase { s with agg := { s.agg with pc, seen } } := by
  have hPhase := h.phase
  have hShown := hCounts.shown
  unfold Phase at hPhase ⊢
  unfold Shown at hShown
  generalize hPc : s.agg.pc = old at hTick hPhase hShown
  cases hTick with
  | fetchQuit hSet | spinQuit hSet => simp [hQuit] at hSet
  | loadReady => exact fun _ j _ hSeen => (test_bit_load_zero.mp hSeen).2
  | allReady hZero =>
      intro j hj
      have hSeen : (s.agg.load 1 s.ctrl.per_slot_ready_mask).test_bit j = true := by
        have := (SlotMask.is_zero_iff _).mp hZero j
        simpa [hj] using this
      rw [test_bit_load_one] at hSeen
      split at hSeen
      · exact hPhase rfl j hj hSeen
      · exact hSeen
  | found hReady _ => exact hPhase
  | loadActive =>
      refine ⟨hPhase.1, hPhase.2.1, fun _ j hw hj => test_bit_load_zero.mpr ⟨hw, ?_⟩⟩
      rw [hShown]
      exact hj
  | loadedActive =>
      refine ⟨hPhase.1, hPhase.2.1, fun j hj => ?_, by simp⟩
      rw [test_bit_load_one]
      split
      next hw => exact hPhase.2.2 rfl j hw hj
      next =>
        rw [hShown]
        exact hj
  | patient | noneStuck | someEvicted hSome => simp
  | _ => trivial

/-- With no slot left the main loop returns to the boundary. -/
theorem Counts.empty (h : Counts c s) (hPc : s.agg.pc.counted = true) (hEmpty : s.agg.N = 0)
    (i : Slot) : s.agg.active_mask.test_bit i = false := by
  rw [h.count hPc] at hEmpty
  exact (SlotMask.popcount_eq_zero_iff _).mp hEmpty i

theorem Round.tick {pc : AggregatorPc} {seen : SlotMask} (h : Round c s)
    (hCounts : Counts c s) (hQuit : s.ctrl.quit_flag = false)
    (hTick : Tick s timer s.agg.pc pc seen) :
    Round c { s with agg := { s.agg with pc, seen } } := by
  have hPhase := h.phase_tick hCounts hQuit hTick
  refine h.shrink (fun _ => rfl) rfl rfl rfl ?_ (fun _ => id) le_rfl ?_ (fun _ => id) hPhase
  · intro i hi
    refine ⟨hi, ?_⟩
    have hEmpty := fun hPc hN => hCounts.empty hPc hN i
    change s.agg.active_mask.test_bit i = true at hi
    simp only [AggregatorState.due]
    generalize s.agg.pc = old at hTick hEmpty
    cases hTick with
    | allEvicted hN => simp [hEmpty rfl hN] at hi
    | fetchQuit hSet => simp [hQuit] at hSet
    | _ => rfl
  · intro hOpen
    refine ⟨?_, rfl⟩
    change pc.clearing = false at hOpen
    generalize s.agg.pc = old at hTick
    cases hTick <;> first | rfl | simp [AggregatorPc.clearing] at hOpen

/-- Slots enter between tokens: their workers wait for the activation, their ready bits
are clear, and no command of theirs is on the ring. -/
theorem Round.applyJoins {joins : SlotMask} (h : Round c s) (hTenancy : Tenancy s)
    (hPc : s.agg.pc = .exchangeJoins 1)
    (hJoins : joins = s.agg.joins.copyWord 1 s.ctrl.pending_slot_joins)
    (hFresh : ∀ i, joins.test_bit i = true → ¬s.outstanding i)
    {processedTag : Slot → Nat} :
    Round c { s with
      agg := { s.agg with
        joins := .zero, active_mask := s.agg.active_mask ||| joins
        N := (s.agg.active_mask ||| joins).popcount, pc := .storeActive 0 }
      ctrl := { s.ctrl with
        pending_slot_joins := s.ctrl.pending_slot_joins.copyWord 1 .zero }
      processedTag } := by
  have hDue : s.agg.due = 0 := by simp [AggregatorState.due, hPc, AggregatorPc.boundary]
  have hOpen : s.agg.pc.clearing = false := by rw [hPc]; rfl
  have hNew : ∀ {i}, joins.test_bit i = true → s.joinPending i = true := by
    intro i hi
    rw [hJoins, SlotMask.test_bit_copyWord] at hi
    unfold State.joinPending
    split at hi <;> simp [hi]
  have hSplit : ∀ {i}, (s.agg.active_mask ||| joins).test_bit i = true →
      s.agg.active_mask.test_bit i = true ∨ joins.test_bit i = true := by
    intro i hi
    simpa using hi
  refine ⟨h.op, ?_, ?_, ?_, ?_, ?_, ?_, trivial⟩
  · intro i q hi hq
    change (s.workers q).pc.InStep _ 0 _
    rcases hSplit hi with hOld | hNow
    · exact hDue ▸ h.in_step i q hOld hq
    · have hPc := hTenancy.joining i q (hNew hNow) hq
      revert hPc
      cases (s.workers q).pc <;> simp [WorkerPc.joining, WorkerPc.InStep]
  · intro _ i hi hReady
    rcases hSplit hi with hOld | hNow
    · exact h.ready hOpen i hOld hReady
    · have := (h.unready i hReady).1
      simp [hNew hNow] at this
  · intro t cmd q hFrom hCmd hi hq
    rcases hSplit hi with hOld | hNow
    · have hMine := h.mine t cmd q hFrom hCmd hOld hq
      rw [hDue] at hMine
      exact hMine
    · exact absurd (State.outstanding_iff.mpr ⟨t, cmd, hFrom, hCmd, rfl⟩) (hFresh _ hNow)
  · intro t t' cmd cmd' hFrom hFrom' hCmd hCmd' hSame hi
    rcases hSplit hi with hOld | hNow
    · exact h.unique t t' cmd cmd' hFrom hFrom' hCmd hCmd' hSame hOld
    · exact absurd (State.outstanding_iff.mpr ⟨t, cmd, hFrom, hCmd, rfl⟩) (hFresh _ hNow)
  · intro _ i q k x hi hq
    change (s.workers q).pc = _ ∨ (s.workers q).pc = _ at hq
    rcases hSplit hi with hOld | hNow
    · exact h.present hOpen i q k x hOld hq
    · have hPending := hTenancy.joining i q (hNew hNow)
      rcases hq with hq | hq <;> simp [hq, WorkerPc.slot, WorkerPc.joining] at hPending
  · intro i hReady
    refine ⟨?_, (h.unready i hReady).2⟩
    have hNone := (h.unready i hReady).1
    simp only [State.joinPending, Bool.or_eq_false_iff] at hNone ⊢
    refine ⟨?_, SlotMask.test_bit_zero i⟩
    rw [SlotMask.test_bit_copyWord]
    split
    · exact SlotMask.test_bit_zero i
    · exact hNone.1

/-- What the end of a round does to the locals of the main loop. -/
theorem nextOp_frame {a : AggregatorState} (hOp : a.op_idx < c.ops_per_token) :
    (a.nextOp c).due = (a.op_idx + 1) % c.ops_per_token ∧
      (a.nextOp c).active_mask = a.active_mask ∧ (a.nextOp c).finished = a.finished ∧
      (a.nextOp c).joins = a.joins ∧ ((a.nextOp c).pc = .loadReady 0 ∨ (a.nextOp c).pc = .top) := by
  rcases nextOp_cases a c with ⟨hMore, hSame⟩ | ⟨hLast, hSame⟩ <;> rw [hSame]
  · exact ⟨(Nat.mod_eq_of_lt hMore).symm, rfl, rfl, rfl, .inl rfl⟩
  · refine ⟨?_, rfl, rfl, rfl, .inr rfl⟩
    have hEnd : a.op_idx + 1 = c.ops_per_token := by omega
    simp [AggregatorState.due, AggregatorPc.boundary, hEnd]

/-- The round is published: its workers are through and the next one begins empty. -/
theorem Round.advanceEpoch (h : Round c s) (hCounts : Counts c s)
    (hPc : s.agg.pc = .advanceEpoch) :
    Round c { s with
      agg := { s.agg with commands := [], tickets := [] }.nextOp c
      ctrl := { s.ctrl with barrier_done_epoch := s.ctrl.barrier_done_epoch + 1 } } := by
  have hPhase := h.phase
  simp only [Phase, hPc] at hPhase
  obtain ⟨hWaiting, hNone, hClear⟩ := hPhase
  have hOp := hCounts.op_idx (by rw [hPc]; rfl)
  have hDue : s.agg.due = s.agg.op_idx := by simp [AggregatorState.due, hPc, AggregatorPc.boundary]
  obtain ⟨hDue', hActive, hFinished, hJoins, hAt⟩ :=
    nextOp_frame (a := { s.agg with commands := [], tickets := [] }) hOp
  refine ⟨h.op, ?_, ?_, ?_, ?_, ?_, ?_, ?_⟩
  · intro i q hi hq
    simp only [hActive] at hi
    simp only [hDue']
    obtain ⟨k, x, hWait⟩ := hWaiting i q hi hq
    have hIn := h.in_step i q hi hq
    rw [hWait] at hIn ⊢
    rcases hIn with ⟨-, hk⟩ | ⟨hLt, -⟩
    · exact .inr ⟨Nat.lt_succ_self _, by rw [← hDue, hk]⟩
    · omega
  · intro _ i hi hReady
    simp only [hActive] at hi
    have := hClear i hi
    change s.ctrl.per_slot_ready_mask.test_bit i = true at hReady
    simp [this] at hReady
  · intro t cmd q hFrom hCmd hi
    simp only [hActive, hFinished] at hi hFrom
    simp [hNone t cmd hFrom hCmd] at hi
  · intro t t' cmd cmd' hFrom hFrom' hCmd hCmd' hSame hi
    simp only [hActive, hFinished] at hi hFrom hFrom'
    exact h.unique t t' cmd cmd' hFrom hFrom' hCmd hCmd' hSame hi
  · intro _ i q k x hi hq
    simp only [hActive] at hi
    obtain ⟨k', x', hWait⟩ := hWaiting i q hi (by rcases hq with hq | hq <;> rw [hq] <;> rfl)
    rcases hq with hq | hq <;> simp [hWait] at hq
  · intro i hReady
    have hOld := h.unready i hReady
    simpa only [State.joinPending, hJoins] using hOld
  · unfold Phase
    rcases hAt with hAt | hAt <;> simp [hAt]

/-- When every active slot is ready, every worker of one waits for the round. -/
theorem Round.waiting (h : Round c s) (hTenancy : Tenancy s)
    (hOpen : s.agg.pc.clearing = false) (hReady : AllReady s) : AllWaiting s := by
  intro i q hi hq
  obtain ⟨r, k, x, hr⟩ := h.ready hOpen i hi (hReady i hi)
  obtain rfl := hTenancy.holder_unique hq (i := i) (q := r) (by rw [hr]; rfl)
  exact ⟨k, x, hr⟩

/-- The pointers of the batch still lead to the commands that were taken. -/
theorem Drain.batch_eq (h : Drain c s) (hPc : s.agg.pc = .execute) :
    s.batch = s.agg.tickets.map (fun t => (s.ring.entries (t % s.ring.capacity)).command) ∧
      ∀ t ∈ s.agg.tickets,
        s.ring.log[t]? = some (s.ring.entries (t % s.ring.capacity)).command := by
  obtain ⟨filling, hConsistent, -⟩ := h.ring
  have hBatching : s.agg.pc.batching = true := by rw [hPc]; rfl
  refine ⟨?_, fun t ht => ?_⟩
  · rw [State.batch, h.commands hBatching, List.map_map]
    rfl
  · obtain ⟨hFrom, hTo, -⟩ := (h.tickets hBatching t).mp ht
    exact hConsistent.held t hFrom hTo

/-- Every command of the batch is the one that the owner of its slot submitted for
the operation that is due, in this round. -/
theorem Round.batch (h : Round c s) (hDrain : Drain c s)
    (hPc : s.agg.pc = .execute) {cmd : Submission} (hCmd : cmd ∈ s.batch) :
    s.agg.active_mask.test_bit cmd.slot_id = true ∧
    ∃ q k x, (s.workers q).pc = .op cmd.slot_id k (.wait s.ctrl.barrier_done_epoch x) ∧
      cmd = c.submission s.agg.op_idx cmd.slot_id q s.ctrl.barrier_done_epoch := by
  have hPhase := h.phase
  simp only [Phase, hPc] at hPhase
  obtain ⟨hBatch, hLog⟩ := hDrain.batch_eq hPc
  rw [hBatch, List.mem_map] at hCmd
  obtain ⟨t, ht, rfl⟩ := hCmd
  obtain ⟨hFrom, -, cmd, hAt, hActive⟩ := (hDrain.tickets (by rw [hPc]; rfl) t).mp ht
  obtain rfl := Option.some.inj ((hLog t ht).symm.trans hAt)
  refine ⟨hActive, ?_⟩
  obtain ⟨q, k, x, hq⟩ := h.ready (by rw [hPc]; rfl) _ hActive (hPhase.1 _ hActive)
  refine ⟨q, k, x, hq, ?_⟩
  rcases h.mine t _ q hFrom hAt hActive (by rw [hq]; rfl) with hLeaving | ⟨-, hSame⟩
  · simp [hq, WorkerPc.leaving] at hLeaving
  · have hDue : s.agg.due = s.agg.op_idx := by
      simp [AggregatorState.due, hPc, AggregatorPc.boundary]
    rwa [hDue] at hSame

theorem Round.batchIntact (h : Round c s) (hTenancy : Tenancy s) (hDrain : Drain c s)
    (hPc : s.agg.pc = .execute) : BatchIntact s := by
  have hPhase := h.phase
  simp only [Phase, hPc] at hPhase
  obtain ⟨hReady, hNone⟩ := hPhase
  have hOpen : s.agg.pc.clearing = false := by rw [hPc]; rfl
  have hTickets := hDrain.tickets (by rw [hPc]; rfl)
  obtain ⟨hBatch, hLog⟩ := hDrain.batch_eq hPc
  refine ⟨?_, fun i => ⟨fun hi => ?_, ?_⟩, ?_, ?_⟩
  · rw [hBatch, List.map_map]
    refine (hDrain.nodup (by rw [hPc]; rfl)).map_on fun t ht t' ht' hSame => ?_
    obtain ⟨hFrom, -, cmd, hAt, hActive⟩ := (hTickets t).mp ht
    obtain rfl := Option.some.inj ((hLog t ht).symm.trans hAt)
    exact h.unique t t' _ _ hFrom ((hTickets t').mp ht').1 hAt (hLog t' ht') hSame hActive
  · obtain ⟨q, k, x, hq⟩ := h.ready hOpen i hi (hReady i hi)
    obtain ⟨t, cmd, hFrom, hAt, rfl⟩ := h.present hOpen i q k x hi (.inr hq)
    have hTo : t < s.agg.taken := by
      by_contra hLate
      simp [hNone t cmd (by omega) hAt] at hi
    have ht := (hTickets t).mpr ⟨hFrom, hTo, cmd, hAt, hi⟩
    refine ⟨cmd, ?_, rfl⟩
    rw [hBatch, List.mem_map]
    exact ⟨t, ht, Option.some.inj ((hLog t ht).symm.trans hAt)⟩
  · rintro ⟨cmd, hCmd, rfl⟩
    exact (h.batch hDrain hPc hCmd).1
  · intro cmd hCmd
    obtain ⟨-, q, k, x, hq, hSame⟩ := h.batch hDrain hPc hCmd
    rw [hSame]
    exact ⟨(hTenancy.holder _ q).mpr (by rw [hq]; rfl), rfl⟩
  · intro cmd hCmd cmd' hCmd'
    obtain ⟨-, q, k, x, hq, hSame⟩ := h.batch hDrain hPc hCmd
    obtain ⟨-, q', k', x', hq', hSame'⟩ := h.batch hDrain hPc hCmd'
    rw [hSame, hSame']
    exact ⟨rfl, rfl⟩

/-- An operation of a token is for the embedding, for the LM head or for a layer. -/
theorem Config.opAt_layer {op_idx : Nat} (hOp : op_idx < c.ops_per_token) :
    (c.opAt op_idx).1 = OP_EMBED ∨ (c.opAt op_idx).1 = OP_LM_HEAD ∨
      (0 ≤ (c.opAt op_idx).2 ∧ (c.opAt op_idx).2 < (c.num_layers : Int)) := by
  unfold Config.ops_per_token at hOp
  unfold Config.opAt
  split
  next => exact .inl rfl
  next =>
    split
    next => exact .inr (.inl rfl)
    next =>
      right; right
      dsimp only
      omega

/-- The executor's checks let such a batch pass. -/
theorem Round.batchPasses (h : Round c s) (hTenancy : Tenancy s) (hDrain : Drain c s)
    (hCounts : Counts c s) (hPc : s.agg.pc = .execute) : s.batchPasses c = true := by
  have hOp := hCounts.op_idx (by rw [hPc]; rfl)
  have hBatch := fun cmd (hCmd : cmd ∈ s.batch) => h.batch hDrain hPc hCmd
  simp only [State.batchPasses, Bool.and_eq_true, List.all_eq_true, decide_eq_true_eq]
  refine ⟨fun cmd hCmd => ?_, ?_⟩
  · obtain ⟨-, q, k, x, hq, hSame⟩ := hBatch cmd hCmd
    have hSlot : (s.workers q).pc.slot = some cmd.slot_id := by rw [hq]; rfl
    refine ⟨(hTenancy.held hSlot).1, ?_⟩
    rw [(hTenancy.holder _ q).mpr hSlot, hSame]
    rfl
  · split
    next => rfl
    next first hFirst =>
      obtain ⟨-, q, k, x, hq, hSame⟩ := hBatch first (List.mem_of_mem_head? hFirst)
      rw [hSame]
      rcases Config.opAt_layer hOp with hEmbed | hHead | hLayer
      · simp [Config.submission, hEmbed]
      · simp [Config.submission, hHead]
      · simp [Config.submission, hLayer]

/-- A batch is never empty. -/
theorem Round.commands_ne_nil (h : Round c s) (hDrain : Drain c s) (hCounts : Counts c s)
    (hPc : s.agg.pc = .storeTail) : s.agg.commands ≠ [] := by
  have hPhase := h.phase
  simp only [Phase, hPc] at hPhase
  obtain ⟨hReady, hNone⟩ := hPhase
  have hOpen : s.agg.pc.clearing = false := by rw [hPc]; rfl
  have hSome : s.agg.active_mask.popcount ≠ 0 := by
    rw [← hCounts.count (by rw [hPc]; rfl)]
    exact hCounts.nonempty (by rw [hPc]; rfl)
  rw [Ne, SlotMask.popcount_eq_zero_iff, not_forall] at hSome
  obtain ⟨i, hi⟩ := hSome
  rw [Bool.not_eq_false] at hi
  obtain ⟨q, k, x, hq⟩ := h.ready hOpen i hi (hReady i hi)
  obtain ⟨t, cmd, hFrom, hAt, rfl⟩ := h.present hOpen i q k x hi (.inr hq)
  have hTo : t < s.agg.taken := by
    by_contra hLate
    simp [hNone t cmd (by omega) hAt] at hi
  have ht := (hDrain.tickets (by rw [hPc]; rfl) t).mpr ⟨hFrom, hTo, cmd, hAt, hi⟩
  rw [hDrain.commands (by rw [hPc]; rfl), Ne, List.map_eq_nil_iff]
  exact List.ne_nil_of_mem ht

/-- When the drain ends, every command of an active slot has been taken: the batch has
as many commands as there are active slots, or no command is so far behind. -/
theorem Round.noneFrom_take (h : Round c s) (hDrain : Drain c s) (hCounts : Counts c s)
    (hPc : s.agg.pc = .take) (hEnd : (s.agg.takeEntry s.ring).drainNext = .storeTail) :
    NoneFrom s (s.agg.taken + 1) := by
  have hPhase := h.phase
  simp only [Phase, hPc] at hPhase
  have hAfter := hDrain.takeEntry hPc
    (.inr rfl : AggregatorPc.storeTail = .spin ∨ AggregatorPc.storeTail = .storeTail)
  have hN := hCounts.count (by rw [hPc]; rfl)
  simp only [AggregatorState.drainNext, ite_eq_right_iff, reduceCtorEq, imp_false, not_and_or,
    not_lt] at hEnd
  intro ticket cmd hFrom hCmd
  rcases hEnd with hFull | hCap
  · by_contra hActive
    rw [Bool.not_eq_false] at hActive
    have hTickets := hAfter.tickets rfl
    have hLength : (s.agg.takeEntry s.ring).commands.length =
        (s.agg.takeEntry s.ring).tickets.length := by
      have hCommands := congrArg List.length (hAfter.commands rfl)
      simpa using hCommands
    have hNew : ticket ∉ (s.agg.takeEntry s.ring).tickets := by
      intro hOld
      have hTo := ((hTickets ticket).mp hOld).2.1
      simp only [AggregatorState.takeEntry] at hTo
      omega
    -- one command more than there are active slots
    have hNodup : (ticket :: (s.agg.takeEntry s.ring).tickets).Nodup :=
      List.nodup_cons.mpr ⟨hNew, hAfter.nodup rfl⟩
    have hCount := h.length_le_popcount hNodup (fun t ht => by
        obtain ⟨filling, hConsistent, -⟩ := hDrain.ring
        rcases List.mem_cons.mp ht with rfl | ht
        · have := hConsistent.finished_le
          exact ⟨by omega, cmd, hCmd, hActive⟩
        · obtain ⟨hFrom, -, hKept⟩ := (hTickets t).mp ht
          exact ⟨hFrom, hKept⟩)
    rw [List.length_cons, ← hN, ← hLength] at hCount
    change s.agg.N ≤ _ at hFull
    omega
  · have hDrained := hAfter.drained rfl
    simp only [AggregatorState.takeEntry] at hDrained hCap
    exact hPhase.2 ticket cmd (by omega) hCmd

/-- Between two positions of the same part of a round the same operation is due. -/
theorem AggregatorState.due_of_same {a : AggregatorState} {pc : AggregatorPc} (hPc : a.pc = pc)
    (pc' : AggregatorPc) (hBoundary : pc'.boundary = pc.boundary) :
    (if pc'.boundary then 0 else a.op_idx) = a.due := by
  rw [hBoundary, AggregatorState.due, hPc]

/-- The slots that are left in the middle of a round are published. If none is left, the round is
over. -/
theorem Round.storeMidLeaves (h : Round c s) (hCounts : Counts c s) {k : Fin 2}
    (hPc : s.agg.pc = .storeMidLeaves k) :
    Round c { s with
      agg := { s.agg with
        pc := if k = 0 then .storeMidLeaves 1 else if s.agg.N = 0 then .top else .evictCheck }
      ctrl := { s.ctrl with
        active_slot_mask := s.ctrl.active_slot_mask.copyWord k s.agg.active_mask } } := by
  have hWord : k = 0 ∨ k = 1 := by omega
  refine h.shrink (fun _ => rfl) rfl rfl rfl (fun i hi => ⟨hi, ?_⟩) (fun _ => id) le_rfl
    (fun _ => ⟨by rw [hPc]; rfl, rfl⟩) (fun _ => id) ?_
  · have hEmpty := fun hN => hCounts.empty (by rw [hPc]; rfl) hN i
    rcases hWord with rfl | rfl
    · exact s.agg.due_of_same hPc (.storeMidLeaves 1) rfl
    · by_cases hN : s.agg.N = 0
      · change s.agg.active_mask.test_bit i = true at hi
        simp [hEmpty hN] at hi
      · simpa [AggregatorState.due, hN] using s.agg.due_of_same hPc .evictCheck rfl
  · unfold Phase
    rcases hWord with rfl | rfl
    · trivial
    · by_cases hN : s.agg.N = 0 <;> simp [hN]

/-- A drain begins with a batch to be filled, in reach of all the commands that it is to take. -/
theorem Round.beginDrain (h : Round c s) (hDrain : Drain c s) (hCounts : Counts c s)
    (hPc : s.agg.pc = .fetch) (hReached : NoneFrom s (s.agg.taken + MAX_DRAIN)) :
    Round c { s with
      agg := { s.agg.beginDrain s.ring with pc := (s.agg.beginDrain s.ring).drainNext } } := by
  have hPhase := h.phase
  simp only [Phase, hPc] at hPhase
  have hSpin : (s.agg.beginDrain s.ring).drainNext = .spin := by
    have hN := hCounts.nonempty (by rw [hPc]; rfl)
    simp [AggregatorState.drainNext, AggregatorState.beginDrain, MAX_DRAIN]
    omega
  rw [hSpin]
  refine h.shrink (fun _ => rfl) rfl rfl rfl
    (fun i hi => ⟨hi, s.agg.due_of_same hPc .spin rfl⟩) (fun _ => id) le_rfl
    (fun _ => ⟨by rw [hPc]; rfl, rfl⟩) (fun _ => id) ⟨hPhase, ?_⟩
  have hSettled := hDrain.settled (by rw [hPc]; rfl)
  rwa [← hSettled] at hReached

/-- An entry is taken off the ring. When it is the last one, no command of an active slot is left. -/
theorem Round.takeEntry (h : Round c s) (hDrain : Drain c s) (hCounts : Counts c s)
    (hPc : s.agg.pc = .take) :
    Round c { s with
      ring := s.ring.clearReady s.agg.tail
      agg := { s.agg.takeEntry s.ring with pc := (s.agg.takeEntry s.ring).drainNext } } := by
  have hPhase := h.phase
  simp only [Phase, hPc] at hPhase
  rcases drainNext_cases (s.agg.takeEntry s.ring) with hNext | hNext <;> rw [hNext]
  · exact h.shrink (fun _ => rfl) rfl rfl rfl
      (fun i hi => ⟨hi, s.agg.due_of_same hPc .spin rfl⟩) (fun _ => id) le_rfl
      (fun _ => ⟨by rw [hPc]; rfl, rfl⟩) (fun _ => id) hPhase
  · exact h.shrink (fun _ => rfl) rfl rfl rfl
      (fun i hi => ⟨hi, s.agg.due_of_same hPc .storeTail rfl⟩) (fun _ => id) le_rfl
      (fun _ => ⟨by rw [hPc]; rfl, rfl⟩) (fun _ => id)
      ⟨hPhase.1, h.noneFrom_take hDrain hCounts hPc hNext⟩

/-- The batch has been executed: every worker of an active slot waits for the end of the round. -/
theorem Round.executed (h : Round c s) (hTenancy : Tenancy s) (hDrain : Drain c s)
    (hPc : s.agg.pc = .execute) {output : Slot → Output} :
    Round c { s with
      agg := { s.agg with pc := .loadActive 0, finished := s.agg.taken }
      output := output } := by
  have hPhase := h.phase
  simp only [Phase, hPc] at hPhase
  obtain ⟨filling, hConsistent, -⟩ := hDrain.ring
  exact h.shrink (fun _ => rfl) rfl rfl rfl
    (fun i hi => ⟨hi, s.agg.due_of_same hPc (.loadActive 0) rfl⟩) (fun _ => id)
    hConsistent.finished_le (by simp [AggregatorPc.clearing]) (fun _ => id)
    ⟨h.waiting hTenancy (by rw [hPc]; rfl) hPhase.1, hPhase.2, by simp⟩

/-- The ready bits that the main loop has seen are cleared, word by word. -/
theorem Round.clearReady (h : Round c s) {k : Fin 2} (hPc : s.agg.pc = .clearReady k) :
    Round c { s with
      agg := { s.agg with pc := if k = 0 then .clearReady 1 else .advanceEpoch }
      ctrl := { s.ctrl with
        per_slot_ready_mask := s.ctrl.per_slot_ready_mask.andWord k (~~~s.agg.seen) } } := by
  have hWord : ∀ k : Fin 2, k = 0 ∨ k = 1 := by decide
  have hPhase := h.phase
  simp only [Phase, hPc] at hPhase
  obtain ⟨hWaiting, hNone, hSeen, hFirst⟩ := hPhase
  have hCleared : ∀ j, s.agg.active_mask.test_bit j = true →
      (wordIndex j = k ∨ (k = 1 ∧ wordIndex j = 0)) →
      (s.ctrl.per_slot_ready_mask.andWord k (~~~s.agg.seen)).test_bit j = false := by
    intro j hj hw
    rw [SlotMask.test_bit_andWord]
    split
    next => simp [hSeen j hj]
    next hOther => exact hFirst (by tauto) j (by tauto) hj
  refine h.shrink (fun _ => rfl) rfl rfl rfl (fun i hi => ⟨hi, ?_⟩) (fun i => ?_) le_rfl ?_
    (fun _ => id) ?_
  · rcases hWord k with rfl | rfl
    · exact s.agg.due_of_same hPc (.clearReady 1) rfl
    · exact s.agg.due_of_same hPc .advanceEpoch rfl
  · rw [SlotMask.test_bit_andWord]
    split <;> simp +contextual
  · rcases hWord k with rfl | rfl <;> simp [AggregatorPc.clearing]
  · rcases hWord k with rfl | rfl
    · exact ⟨hWaiting, hNone, hSeen, fun _ j hw hj => hCleared j hj (.inl hw)⟩
    · exact ⟨hWaiting, hNone, fun j hj => hCleared j hj (by
        rcases hWord (wordIndex j) with hw | hw
        · exact .inr ⟨rfl, hw⟩
        · exact .inl hw)⟩

/-- A step of the main loop keeps the round. -/
theorem Round.aggregate (h : Round c s) (hTenancy : Tenancy s) (hDrain : Drain c s)
    (hCounts : Counts c s) (hQuit : s.ctrl.quit_flag = false)
    (hMove : AggregateMove c s timer sample s') (hStill : s'.ctrl.quit_flag = false)
    (hFresh : s.agg.pc = .exchangeJoins 1 → ∀ i,
      (s.agg.joins.copyWord 1 s.ctrl.pending_slot_joins).test_bit i = true → ¬s.outstanding i)
    (hReached : s.agg.pc = .fetch → NoneFrom s (s.agg.taken + MAX_DRAIN)) : Round c s' := by
  have hFrame := hMove.frame
  have hShrink := h.shrink hMove.worker_pc hFrame.calls
  have hJoins := (hMove.maskFrame hTenancy).joins
  have hLog := hFrame.log
  have hPhase := h.phase
  unfold Phase at hPhase
  have hSame : ∀ {pc : AggregatorPc}, s.agg.pc = pc → ∀ pc' : AggregatorPc,
      pc'.boundary = pc.boundary → (if pc'.boundary then 0 else s.agg.op_idx) = s.agg.due :=
    fun hPc pc' hBoundary => s.agg.due_of_same hPc pc' hBoundary
  have hMask : ∀ {m o : SlotMask} {i : Slot}, (m &&& o).test_bit i = true →
      m.test_bit i = true := by
    intro m o i hi
    rw [SlotMask.test_bit_and, Bool.and_eq_true] at hi
    exact hi.1
  cases hMove with
  | tick hTick => exact h.tick hCounts hQuit hTick
  | applyJoins hPc hBits => exact h.applyJoins hTenancy hPc hBits (hBits ▸ hFresh hPc)
  | advanceEpoch hPc _ => exact h.advanceEpoch hCounts hPc
  | storeMidLeaves hPc => exact h.storeMidLeaves hCounts hPc
  | fetch hPc _ => exact h.beginDrain hDrain hCounts hPc (hReached hPc)
  | take hPc => exact h.takeEntry hDrain hCounts hPc
  | execute hPc _ => exact h.executed hTenancy hDrain hPc
  | clearReady hPc => exact h.clearReady hPc
  | throw hPc hPasses => simp [h.batchPasses hTenancy hDrain hCounts hPc] at hPasses
  | droppedEmpty hPc _ hNone => exact absurd hNone (h.commands_ne_nil hDrain hCounts hPc)
  | droppedQuit hPc hSet | decideQuit hPc hSet => simp [hQuit] at hSet
  | spinTimeout hPc _ _ => simp at hStill
  | advanceBreaking hPc hSet => simp [hCounts.breaking] at hSet
  | exchangeLeaves hPc | exchangeJoins hPc | noJoins hPc | storeActive hPc | storedNone hPc _ =>
      exact hShrink rfl hLog (fun i hi => ⟨hi, hSame hPc _ rfl⟩) (fun _ => id) le_rfl
        (fun _ => ⟨by rw [hPc]; rfl, rfl⟩) hJoins trivial
  | applyLeaves hPc =>
      exact hShrink rfl hLog (fun i hi => ⟨hMask hi, hSame hPc _ rfl⟩) (fun _ => id)
        le_rfl (fun _ => ⟨by rw [hPc]; rfl, rfl⟩) hJoins trivial
  | storedActive hPc _ =>
      exact hShrink rfl hLog (fun i hi => ⟨hi, by simp [AggregatorState.due, hPc,
        AggregatorPc.boundary]⟩) (fun _ => id) le_rfl (fun _ => ⟨by rw [hPc]; rfl, rfl⟩) hJoins
        (by simp [Phase])
  | midLeaves hPc _ | evict hPc _ =>
      exact hShrink rfl hLog (fun i hi => ⟨hMask hi, hSame hPc _ rfl⟩) (fun _ => id)
        le_rfl (fun _ => ⟨by rw [hPc]; rfl, rfl⟩) hJoins trivial
  | signalEvicted hPc _ =>
      exact hShrink rfl hLog (fun i hi => ⟨hi, hSame hPc _ rfl⟩) (fun _ => id) le_rfl
        (fun _ => ⟨by rw [hPc]; rfl, rfl⟩) hJoins trivial
  | @clearMidLeaves k hPc | @storeEvicted k hPc =>
      have hWord : k = 0 ∨ k = 1 := by omega
      rcases hWord with rfl | rfl <;>
        exact hShrink rfl hLog (fun i hi => ⟨hi, hSame hPc _ rfl⟩) (fun _ => id)
          le_rfl (fun _ => ⟨by rw [hPc]; rfl, rfl⟩) hJoins trivial
  | batched hPc _ _ =>
      rw [hPc] at hPhase
      exact hShrink rfl hLog (fun i hi => ⟨hi, hSame hPc _ rfl⟩) (fun _ => id) le_rfl
        (fun _ => ⟨by rw [hPc]; rfl, rfl⟩) hJoins hPhase

/-- Everything about the rounds, as long as the main loop has not been told to quit. The parts keep
each other: the drain relies on the round, and the round on the counts. -/
structure Running (c : Config) (s : State) : Prop where
  quit : s.ctrl.quit_flag = false
  pc : s.agg.pc ≠ .threw
  counts : Counts c s
  drain : Drain c s
  round : Round c s

/-- The main loop has been told to quit and executes no further batch. -/
structure Stopping (s : State) : Prop where
  quit : s.ctrl.quit_flag = true
  pc : s.agg.pc ≠ .execute ∧ s.agg.pc ≠ .threw

theorem AggregateMove.quit (hMove : AggregateMove c s timer sample s')
    (hQuit : s.ctrl.quit_flag = true) : s'.ctrl.quit_flag = true := by
  cases hMove <;> first | exact hQuit | rfl

theorem Stopping.aggregate (h : Stopping s) (hMove : AggregateMove c s timer sample s') :
    Stopping s' := by
  refine ⟨hMove.quit h.quit, ?_⟩
  have hQuit := h.quit
  obtain ⟨hExecute, hThrew⟩ := h.pc
  have hNext : ∀ {a : AggregatorState}, (a.nextOp c).pc ≠ .execute ∧ (a.nextOp c).pc ≠ .threw := by
    intro a
    rcases nextOp_pc a c with hPc | hPc <;> simp [hPc]
  cases hMove with
  | tick hTick =>
      generalize s.agg.pc = old at hTick
      cases hTick <;> simp
  | batched hPc hNot _ | fetch hPc hNot => simp [hQuit] at hNot
  | execute hPc _ | throw hPc _ => exact absurd hPc hExecute
  | clearMidLeaves hPc | storeEvicted hPc | clearReady hPc =>
      dsimp only
      split <;> simp
  | storeMidLeaves hPc =>
      dsimp only
      split <;> (try split) <;> simp
  | take hPc =>
      dsimp only
      rcases drainNext_cases (s.agg.takeEntry s.ring) with hPc' | hPc' <;> simp [hPc']
  | droppedEmpty hPc hNot _ => exact hNext
  | advanceEpoch hPc _ => exact hNext
  | _ => simp

/-- The other parties leave the quit flag and the active mask alone. -/
theorem Move.others {l : Label} (hMove : Move c s l s') :
    (s'.agg = s.agg ∧ s'.ctrl.quit_flag = s.ctrl.quit_flag ∧
      s'.ctrl.active_slot_mask = s.ctrl.active_slot_mask) ∨
      ∃ timer sample, l = .aggregate timer sample ∧ AggregateMove c s timer sample s' := by
  cases hMove with
  | worker hLive hMove =>
      left
      cases hMove <;> exact ⟨rfl, rfl, rfl⟩
  | call hMove =>
      left
      cases hMove <;> exact ⟨rfl, rfl, rfl⟩
  | aggregate hMove => exact .inr ⟨_, _, rfl, hMove⟩
  | _ => exact .inl ⟨rfl, rfl, rfl⟩

theorem Stopping.move {l : Label} (h : Stopping s) (hMove : Move c s l s') : Stopping s' := by
  rcases hMove.others with ⟨hAgg, hQuit, -⟩ | ⟨_, _, rfl, hAggregate⟩
  · exact ⟨hQuit.trans h.quit, hAgg ▸ h.pc⟩
  · exact h.aggregate hAggregate

/-- A worker that only moves on has no entry reserved, before or after. -/
theorem Advance.filling {l : Label} {pc pc' : WorkerPc} (hMove : Advance c s p l pc pc') :
    pc.filling c p = none ∧ pc'.filling c p = none := by
  cases hMove with
  | failPending hPending => rcases hPending with rfl | rfl <;> exact ⟨rfl, rfl⟩
  | failActive hRunning =>
      rcases hRunning with rfl | rfl | ⟨k, stage, rfl, hStage⟩
      · exact ⟨rfl, rfl⟩
      · exact ⟨rfl, rfl⟩
      · cases stage with
        | submit e x spc => exact absurd rfl (hStage e x spc).1
        | _ => exact ⟨rfl, rfl⟩
  | _ => exact ⟨rfl, rfl⟩

/-- Whatever a worker does but a submission leaves the ring alone. -/
theorem Drain.worker {l : Label} (h : Drain c s) (hLive : (s.workers p).crashed = false)
    (hMove : WorkerMove c s p l s')
    (hRoom : s.reserves l = true → s.ring.log.length < s.agg.finished + s.ring.capacity) :
    Drain c s' := by
  -- a worker that moves on without submitting has no entry reserved before or after
  have hStill : ∀ pc : WorkerPc, pc.filling c p = none → (s.workers p).pc.filling c p = none →
      Drain c (s.setPc p pc) := by
    intro pc hAfter hBefore
    refine h.of_workers rfl rfl fun q hq => ?_
    rw [State.setPc_crashed] at hq
    refine ⟨hq, ?_⟩
    rw [State.setPc_pc]
    split
    next hqp =>
      subst hqp
      rw [hAfter, hBefore]
    next => rfl
  cases hMove with
  | @advance l pc' hMove => exact hStill pc' hMove.filling.2 hMove.filling.1
  | submit hPc => exact h.submit hLive hPc fun hReserves => hRoom (by simpa [State.reserves, hPc])
  | claimThrew hPc hCall => exact { hStill .idle rfl (by rw [hPc]; rfl) with }
  | @claimReturned i _ _ hPc hCall => exact { hStill (.prepared i) rfl (by rw [hPc]; rfl) with }
  | @join i _ _ hPc => exact { hStill (.polling i) rfl (by rw [hPc]; rfl) with }
  | @evicted i _ _ hPc _ => exact { hStill (.leave i false) rfl (by rw [hPc]; rfl) with }
  | @prepare i k e v _ hPc =>
      exact { hStill (.op i k (.submit e v .loadHead)) rfl (by rw [hPc]; rfl) with }
  | @signal i k e x _ _ hPc => exact { hStill (.op i k (.wait e x)) rfl (by rw [hPc]; rfl) with }
  | @sample i k e x _ _ hPc _ =>
      refine h.of_workers rfl rfl fun q hq => ?_
      by_cases hqp : q = p
      · subst hqp
        exact ⟨hLive, by simp [hPc, WorkerPc.filling]⟩
      · simp only [Function.update_of_ne hqp] at hq ⊢
        exact ⟨hq, by simp⟩
  | @leave i f _ _ hPc =>
      exact { hStill (if f then .awaitLeave i else .release i false) (by cases f <;> rfl)
        (by rw [hPc]; rfl) with }
  | @release i f _ _ hPc => exact { hStill (.releasing i f) rfl (by rw [hPc]; rfl) with }
  | @releaseThrew i f _ _ hPc _ => exact { hStill (.released f) rfl (by rw [hPc]; rfl) with }
  | finish hPc hCall => exact { hStill .idle rfl (by rw [hPc]; rfl) with }

/-- A connection thread moves its worker only before it has submitted anything. -/
theorem Drain.call (h : Drain c s) (hTenancy : Tenancy s) (hMove : CallMove s p s') :
    Drain c s' := by
  have hc := hTenancy.coherent p
  have hStill : ∀ pc : WorkerPc, pc.filling c p = none →
      ((s.workers p).crashed = false → (s.workers p).pc.filling c p = none) →
      Drain c (s.setPc p pc) := by
    intro pc hAfter hBefore
    refine h.of_workers rfl rfl fun q hq => ?_
    rw [State.setPc_crashed] at hq
    refine ⟨hq, ?_⟩
    rw [State.setPc_pc]
    split
    next hqp =>
      subst hqp
      rw [hAfter, hBefore hq]
    next => rfl
  cases hMove with
  | @own w i hCall =>
      rw [hCall] at hc
      have hPc : (s.workers p).pc = .claiming := hc.2
      have hMoved := hStill (.claimed i) rfl fun _ => by rw [hPc]; rfl
      exact { hMoved with }
  | giveUp hCall hOwner =>
      rw [hCall] at hc
      have hMoved := hStill (.released (s.workers p).pc.succeeded) rfl fun hLive => by
        rcases hc.2.2 with hCrashed | ⟨f, hPc⟩
        · simp [hLive] at hCrashed
        · rw [hPc]
          rfl
      exact { hMoved with }
  | _ => exact { h with }

theorem Drain.move {l : Label} (h : Drain c s) (hTenancy : Tenancy s)
    (hQuit : s.ctrl.quit_flag = false) (hMove : Move c s l s')
    (hStill : s'.ctrl.quit_flag = false)
    (hRoom : s.reserves l = true → s.ring.log.length < s.agg.finished + s.ring.capacity) :
    Drain c s' := by
  have hUpdate : ∀ q w, (w.crashed = false → (s.workers q).crashed = false ∧
      w.pc.filling c q = (s.workers q).pc.filling c q) →
      Drain c { s with workers := Function.update s.workers q w } := by
    intro q w hSame
    refine h.of_workers rfl rfl fun r hr => ?_
    by_cases hrq : r = q
    · subst hrq
      simpa using hSame (by simpa using hr)
    · simp only [Function.update_of_ne hrq] at hr ⊢
      exact ⟨hr, trivial⟩
  cases hMove with
  | worker hLive hMove => exact h.worker hLive hMove hRoom
  | call hMove => exact h.call hTenancy hMove
  | aggregate hMove => exact h.aggregate hQuit hMove hStill
  | @request q _ _ w hPc hLive hWorker =>
      have hMoved := hUpdate q w fun _ => ⟨hLive, by rw [hWorker, hPc]; rfl⟩
      exact { hMoved with }
  | @crash q hLive =>
      have hMoved := hUpdate q { s.workers q with crashed := true } (by simp)
      exact { hMoved with }
  | @disconnect q i hCrashed _ _ _ =>
      have hMoved := hUpdate q { s.workers q with handler := .sleeping i } (by simp [hCrashed])
      exact { hMoved with }
  | @deferredRelease q i hSleeping =>
      have hCrashed := (hTenancy.sleeping q i hSleeping).1
      have hMoved := hUpdate q { s.workers q with handler := .done } (by simp [hCrashed])
      exact { hMoved with }

/-- Every step keeps the round, as long as the quit flag is not set. -/
theorem Round.move {l : Label} (h : Round c s) (hTenancy : Tenancy s) (hDrain : Drain c s)
    (hCounts : Counts c s) (hQuit : s.ctrl.quit_flag = false) (hMove : Move c s l s')
    (hStill : s'.ctrl.quit_flag = false) (hGuard : Undisturbed s l) : Round c s' := by
  have hUpdate : ∀ q w, w.pc = (s.workers q).pc →
      Round c { s with workers := Function.update s.workers q w } := fun q w hPc =>
    h.withWorkers _ fun r => by by_cases hrq : r = q <;> simp [hrq, hPc]
  cases hMove with
  | worker hLive hMove => exact h.worker hTenancy hDrain hQuit hLive hMove
  | @call q b _ hMove =>
      refine h.call hTenancy hMove (fun w i hCall => ?_) fun w i hCall hOwner => ?_
      · exact (hGuard.claimed i (by simp [State.claims, hCall])).1
      · rw [← State.outstanding_iff]
        exact hGuard.released i (by simp [State.releases, hCall, hOwner])
  | @aggregate timer sample _ hMove =>
      refine h.aggregate hTenancy hDrain hCounts hQuit hMove hStill (fun hPc i hi => ?_)
        fun hPc t cmd hFrom hCmd => ?_
      · exact hGuard.activated i (by simpa [State.activates, hPc] using hi)
      · refine hGuard.reached cmd ?_
        rw [State.beyondDrain, if_pos hPc, List.mem_iff_getElem?]
        exact ⟨t - (s.agg.taken + MAX_DRAIN), by
          rw [List.getElem?_drop, Nat.add_sub_cancel' hFrom, hCmd]⟩
  | @request q _ _ w hPc hLive hWorker =>
      have hMoved := h.setPc hTenancy (p := q) .claiming (by rw [hPc]; rfl) trivial (by simp)
        (by simp [WorkerPc.slot])
      have hCalled := hMoved.setCall (p := q) (.claim q (.loadFree 0 {})) (by simp)
      subst hWorker
      exact hCalled.withWorkers _ fun r => by by_cases hrq : r = q <;> simp [hrq]
  | @crash q hLive => exact hUpdate q { s.workers q with crashed := true } rfl
  | @disconnect q i hCrashed _ hOver _ =>
      have hMoved := hUpdate q { s.workers q with handler := .sleeping i } rfl
      have hCalled := hMoved.setCall (p := q) .idle fun j hPc hReady => by
        obtain ⟨w, k, hScrub, -⟩ := ((h.unready j hReady).2 q).2 (by simpa using hPc)
        simp [hScrub, callOver] at hOver
      exact { hCalled with }
  | @deferredRelease q i hSleeping =>
      have hIdle := (hTenancy.sleeping q i hSleeping).2.2
      have hMoved := hUpdate q { s.workers q with handler := .done } rfl
      have hCalled := hMoved.setCall (p := q) (.release q (release_slot_entry s.pool i))
        fun j hPc hReady => by
          obtain ⟨w, k, hScrub, -⟩ := ((h.unready j hReady).2 q).2 (by simpa using hPc)
          simp [hIdle] at hScrub
      exact hCalled

/-- The only step into the quit state while batches run is the spin limit. -/
theorem Running.stops (h : Running c s) (hMove : AggregateMove c s timer sample s')
    (hQuit : s'.ctrl.quit_flag = true) : Stopping s' := by
  refine ⟨hQuit, ?_⟩
  have hOff := h.quit
  cases hMove with
  | spinTimeout hPc _ _ => simp
  | _ => simp [hOff] at hQuit

theorem Running.aggregate_pc (h : Running c s) (hTenancy : Tenancy s)
    (hMove : AggregateMove c s timer sample s') : s'.agg.pc ≠ .threw := by
  have hNext : ∀ {a : AggregatorState}, (a.nextOp c).pc ≠ .threw := by
    intro a
    rcases nextOp_pc a c with hPc | hPc <;> simp [hPc]
  cases hMove with
  | tick hTick =>
      generalize s.agg.pc = old at hTick
      cases hTick <;> simp
  | throw hPc hFails => simp [h.round.batchPasses hTenancy h.drain h.counts hPc] at hFails
  | clearMidLeaves hPc | storeEvicted hPc | clearReady hPc =>
      dsimp only
      split <;> simp
  | storeMidLeaves hPc =>
      dsimp only
      split <;> (try split) <;> simp
  | fetch hPc _ =>
      dsimp only
      rcases drainNext_cases (s.agg.beginDrain s.ring) with hPc' | hPc' <;> simp [hPc']
  | take hPc =>
      dsimp only
      rcases drainNext_cases (s.agg.takeEntry s.ring) with hPc' | hPc' <;> simp [hPc']
  | droppedEmpty hPc hNot _ => exact hNext
  | advanceEpoch hPc _ => exact hNext
  | _ => simp

theorem Running.move {l : Label} (h : Running c s) (hTenancy : Tenancy s) (hMove : Move c s l s')
    (hGuard : Undisturbed s l) : Running c s' ∨ Stopping s' := by
  cases hQuit : s'.ctrl.quit_flag with
  | true =>
      rcases hMove.others with ⟨-, hSame, -⟩ | ⟨_, _, rfl, hAggregate⟩
      · simp [hSame, h.quit] at hQuit
      · exact .inr (h.stops hAggregate hQuit)
  | false =>
      left
      have hDrain := h.drain.move hTenancy h.quit hMove hQuit hGuard.room
      have hRound := h.round.move hTenancy h.drain h.counts h.quit hMove hQuit hGuard
      rcases hMove.others with ⟨hAgg, -, hShown⟩ | ⟨_, _, rfl, hAggregate⟩
      · exact ⟨hQuit, hAgg ▸ h.pc, h.counts.of_same hAgg hShown, hDrain, hRound⟩
      · exact ⟨hQuit, h.aggregate_pc hTenancy hAggregate, h.counts.aggregate h.quit hAggregate,
          hDrain, hRound⟩

theorem Running.initial (h : Initial s) : Running c s := by
  have hPc : ∀ p, (s.workers p).pc = .idle := fun p => (h.workers p).1
  obtain ⟨hCapacity, hHead, hTail, hLog, hReady⟩ := h.ring
  refine ⟨by simp [h.ctrl], by simp [h.agg], ?_, ?_, ?_⟩
  · refine ⟨?_, ?_, ?_, ?_, ?_⟩ <;> simp [Shown, h.agg, AggregatorPc.counted, AggregatorPc.busy,
      AggregatorPc.boundary]
  · refine ⟨⟨fun _ => none, ⟨by omega, ?_, ?_, ?_, ?_, ?_, ?_, ?_, ?_, ?_⟩, ?_⟩, ?_, ?_, ?_, ?_, ?_,
      ?_, ?_⟩ <;>
      simp [h.agg, hLog, hHead, hTail, hReady, hPc, WorkerPc.filling, AggregatorPc.draining,
        AggregatorPc.batching]
  · refine ⟨?_, ?_, ?_, ?_, ?_, ?_, ?_, ?_⟩
    · simp [hPc, WorkerPc.WithinToken]
    · simp [hPc, WorkerPc.slot]
    · intro _ i hi
      simp [h.agg] at hi
    · simp [hLog]
    · simp [hLog]
    · simp [hPc]
    · intro i hi
      simp only [h.ctrl] at hi
      have := SlotMask.test_bit_zero i
      simp [SlotMask.zero] at this
      simp [this] at hi
    · simp [Phase, h.agg]

/-- In every run whose steps meet the condition, the main loop runs with intact rounds
or stops. -/
theorem running_of_reach {guard : State → Label → Prop}
    (hGuard : ∀ s l, guard s l → Undisturbed s l) (run : (machine c).Reach guard s) :
    Running c s ∨ Stopping s :=
  run.invariant_of_reach (fun s => Running c s ∨ Stopping s) (fun _ h => .inl (.initial h))
    fun _ _ _ prior h hMeets hStep => by
      have hTenancy := tenancy_of_reach (fun s l h => (hGuard s l h).claimed) prior
      rcases h with h | h
      · exact h.move hTenancy (move_of_step hStep) (hGuard _ _ hMeets)
      · exact .inr (h.move (move_of_step hStep))

/-- In every run whose steps meet the condition, every batch that is executed is one command of
every active slot, all of them of the present round and of one operation, and the main loop never
throws. The condition is on the state before a step: no slot changes hands with marks of its former
owner on it, none is activated over an old command, no entry of the ring is overwritten and no drain
stops short of a command. -/
theorem batch_intact_of_undisturbed (run : (machine c).Reach Undisturbed s) :
    s.agg.pc ≠ .threw ∧ (s.agg.pc = .execute → BatchIntact s) := by
  have hTenancy := tenancy_of_reach (fun _ _ h => h.claimed) run
  rcases running_of_reach (fun _ _ h => h) run with h | h
  · exact ⟨h.pc, fun hPc => h.round.batchIntact hTenancy h.drain hPc⟩
  · exact ⟨h.pc.2, fun hPc => absurd hPc h.pc.1⟩

/-- Two workers join and submit, and the commands of both are about to be executed together. -/
theorem batch_intact_of_two_workers : ∃ s, (machine oneLayer).Reach Undisturbed s ∧
    s.batch = [⟨OP_EMBED, 0, 0, 0, 0⟩, ⟨OP_EMBED, 0, 1, 1, 0⟩] ∧ BatchIntact s := by
  have hRun : ((machine oneLayer).replayUnder Undisturbed twoSlotStart
      (joinSchedule 0 1 ++ joinSchedule 1 1 ++ rounds 9 ++ works 0 10 ++ works 1 10 ++
        rounds 8)).map (fun s => (s.agg.pc, s.batch)) =
      some (.execute, [⟨OP_EMBED, 0, 0, 0, 0⟩, ⟨OP_EMBED, 0, 1, 1, 0⟩]) := by
    decide +kernel
  obtain ⟨s, hReplay, hBoth⟩ := Option.map_eq_some_iff.mp hRun
  obtain ⟨hPc, hBatch⟩ := Prod.mk.inj hBoth
  have run := System.reach_of_replayUnder (.start (twoSlotStart_initial oneLayer)) hReplay
  exact ⟨s, run, hBatch, (batch_intact_of_undisturbed run).2 hPc⟩

/-- Worker 0 submits, crashes before it signals ready, is evicted and gives back slot 0.
Worker 1 claims the slot and joins, and the next drain keeps the command of worker 0,
since its slot is active again. -/
theorem stale_command_is_executed : ¬ ∀ s, (machine oneLayer).Reachable s →
    s.agg.pc ≠ .threw ∧ (s.agg.pc = .execute → BatchIntact s) := by
  intro hAll
  have hRun : ((machine oneLayer).replay twoSlotStart
      (joinSchedule 0 1 ++ rounds 9 ++ works 0 9 ++
        rounds 3 ++ .aggregate true (fun _ => 1) :: rounds 6 ++
        [.crash 0, .disconnect 0 0, .deferredRelease 0] ++ rpcs 0 4 ++
        joinSchedule 1 1 ++ rounds 11 ++ works 1 10 ++ rounds 6)).map
      (fun s => (s.agg.pc, s.batch, s.pool.owner_worker_id 0)) =
        some (.execute, [⟨OP_EMBED, 0, 0, 0, 0⟩], 1) := by decide +kernel
  obtain ⟨s, hReplay, hBoth⟩ := Option.map_eq_some_iff.mp hRun
  simp only [Prod.mk.injEq] at hBoth
  obtain ⟨hPc, hBatch, hOwner⟩ := hBoth
  have run := System.reachable_of_replay (.start (twoSlotStart_initial oneLayer)) hReplay
  have hOwned := ((hAll s run).2 hPc).owned ⟨OP_EMBED, 0, 0, 0, 0⟩ (by simp [hBatch])
  simp [hOwner] at hOwned

end Barrier
