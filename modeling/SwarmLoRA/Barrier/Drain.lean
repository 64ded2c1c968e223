import SwarmLoRA.Barrier.Tenancy

namespace Barrier

open Ipc Aggregator Machine

namespace AggregatorPc

/-- Between two tokens, where leaves and joins are processed. -/
def boundary : AggregatorPc → Bool
  | .top | .loadLeaves _ | .exchangeLeaves _ | .loadJoins _ | .exchangeJoins _ | .storeActive _
  | .stopped => true
  | _ => false

/-- A batch is being taken off the ring. -/
def draining : AggregatorPc → Bool
  | .spin | .take | .storeTail => true
  | _ => false

/-- A batch has been begun and is not yet executed. -/
def batching : AggregatorPc → Bool
  | .spin | .take | .storeTail | .execute | .threw => true
  | _ => false

/-- The round is over for the workers but not yet published. -/
def clearing : AggregatorPc → Bool
  | .loadActive _ | .clearReady _ | .advanceEpoch => true
  | _ => false

/-- At least one slot is active. -/
def busy : AggregatorPc → Bool
  | .loadReady _ | .decide | .loadMidLeaves _ | .evictCheck | .loadStuck _ | .fetch | .spin | .take
  | .storeTail | .execute | .loadActive _ | .clearReady _ | .advanceEpoch => true
  | _ => false

/-- `N` counts the slots of the active mask. -/
def counted : AggregatorPc → Bool
  | .storeActive _ | .clearMidLeaves _ | .storeMidLeaves _ | .storeEvicted _ | .signalEvicted => true
  | pc => pc.busy

end AggregatorPc

/-- The active mask that the workers see is the one that the main loop has, or the
main loop is about to store it. -/
def Shown (s : State) : Prop :=
  match s.agg.pc with
  | .storeActive k | .storeMidLeaves k | .storeEvicted k => k = 1 → ∀ i, wordIndex i = 0 →
      s.ctrl.active_slot_mask.test_bit i = s.agg.active_mask.test_bit i
  | .top | .loadLeaves _ | .exchangeLeaves _ | .loadJoins _ | .exchangeJoins _ | .clearMidLeaves _
  | .stopped | .threw => True
  | _ => ∀ i, s.ctrl.active_slot_mask.test_bit i = s.agg.active_mask.test_bit i

structure Counts (c : Config) (s : State) : Prop where
  shown : Shown s
  count : s.agg.pc.counted = true → s.agg.N = s.agg.active_mask.popcount
  nonempty : s.agg.pc.busy = true → s.agg.N ≠ 0
  op_idx : s.agg.pc.boundary = false → s.agg.op_idx < c.ops_per_token
  breaking : s.agg.breaking = false

variable {c : Config} {s s' : State} {p : Nat} {timer : Bool} {sample : Slot → Nat}

theorem copyWord_one {m o : SlotMask}
    (h : ∀ i, wordIndex i = 0 → m.test_bit i = o.test_bit i) (i : Slot) :
    (m.copyWord 1 o).test_bit i = o.test_bit i := by
  rw [SlotMask.test_bit_copyWord]
  split
  next => rfl
  next hw => exact h i (by omega)

theorem copyWord_zero (m o : SlotMask) {i : Slot} (h : wordIndex i = 0) :
    (m.copyWord 0 o).test_bit i = o.test_bit i := by
  rw [SlotMask.test_bit_copyWord, if_pos h]

theorem Counts.tick {pc : AggregatorPc} {seen : SlotMask} (h : Counts c s)
    (hQuit : s.ctrl.quit_flag = false) (hTick : Tick s timer s.agg.pc pc seen) :
    Counts c { s with agg := { s.agg with pc, seen } } := by
  obtain ⟨hShown, hCount, hNonempty, hOp, hBreaking⟩ := h
  unfold Shown at hShown
  generalize hPc : s.agg.pc = old at *
  refine ⟨?_, ?_, ?_, ?_, hBreaking⟩ <;> cases hTick <;>
    simp_all [Shown, AggregatorPc.counted, AggregatorPc.busy, AggregatorPc.boundary]

theorem Counts.nextOp {a : AggregatorState} (h : Counts c s) (hPc : s.agg.pc.busy = true)
    (hShown : ∀ i, s.ctrl.active_slot_mask.test_bit i = s.agg.active_mask.test_bit i)
    (hNext : s'.agg = a.nextOp c) (hActive : a.active_mask = s.agg.active_mask)
    (hN : a.N = s.agg.N) (hBreaking : a.breaking = s.agg.breaking)
    (hCtrl : s'.ctrl.active_slot_mask = s.ctrl.active_slot_mask) : Counts c s' := by
  have hNonempty := h.nonempty hPc
  have hCount := h.count (by
    revert hPc
    cases s.agg.pc <;> simp [AggregatorPc.busy, AggregatorPc.counted])
  rcases nextOp_cases a c with ⟨hMore, hSame⟩ | ⟨-, hSame⟩ <;> rw [hSame] at hNext
  · refine ⟨?_, ?_, ?_, ?_, ?_⟩ <;> simp only [hNext, Shown]
    · simpa only [hActive, hCtrl] using hShown
    · rw [hN, hActive]
      exact fun _ => hCount
    · rw [hN]
      exact fun _ => hNonempty
    · exact fun _ => hMore
    · rw [hBreaking, h.breaking]
  · refine ⟨?_, ?_, ?_, ?_, ?_⟩ <;> simp only [hNext, Shown]
    · simp [AggregatorPc.counted, AggregatorPc.busy]
    · simp [AggregatorPc.busy]
    · simp [AggregatorPc.boundary]
    · rw [hBreaking, h.breaking]

theorem Counts.aggregate (h : Counts c s) (hQuit : s.ctrl.quit_flag = false)
    (hMove : AggregateMove c s timer sample s') : Counts c s' := by
  have hWord : ∀ k : Fin 2, k = 0 ∨ k = 1 := by decide
  obtain ⟨hShown, hCount, hNonempty, hOp, hBreaking⟩ := id h
  unfold Shown at hShown
  cases hMove with
  | tick hTick => exact h.tick hQuit hTick
  | storeActive hPc =>
      refine ⟨?_, ?_, ?_, ?_, hBreaking⟩
      · exact fun _ i hi => copyWord_zero _ _ hi
      · simpa [hPc, AggregatorPc.counted] using hCount
      · simp [AggregatorPc.busy]
      · simp [AggregatorPc.boundary]
  | storedActive hPc hSome =>
      refine ⟨?_, ?_, ?_, ?_, rfl⟩
      · simp only [hPc] at hShown
        exact copyWord_one (hShown trivial)
      · simpa [hPc, AggregatorPc.counted, AggregatorPc.busy] using hCount
      · exact fun _ => hSome
      · simp [Config.ops_per_token]
  | @clearMidLeaves k hPc =>
      rcases hWord k with rfl | rfl <;> refine ⟨?_, ?_, ?_, ?_, hBreaking⟩ <;>
        simp_all [Shown, AggregatorPc.counted, AggregatorPc.busy, AggregatorPc.boundary]
  | @storeMidLeaves k hPc =>
      simp only [hPc] at hShown
      rcases hWord k with rfl | rfl
      · refine ⟨fun _ i hi => copyWord_zero _ _ hi, ?_, ?_, ?_, hBreaking⟩ <;>
          simp_all [AggregatorPc.counted, AggregatorPc.busy, AggregatorPc.boundary]
      · by_cases hN : s.agg.N = 0
        · refine ⟨?_, ?_, ?_, ?_, hBreaking⟩ <;>
            simp [hN, Shown, AggregatorPc.counted, AggregatorPc.busy, AggregatorPc.boundary]
        · refine ⟨?_, ?_, ?_, ?_, hBreaking⟩
          · simpa only [Shown, Fin.isValue, Fin.reduceEq, if_false, hN] using
              copyWord_one (hShown rfl)
          · simpa [hN, hPc, AggregatorPc.counted, AggregatorPc.busy] using hCount
          · simp [hN]
          · simpa [hN, hPc, AggregatorPc.boundary] using hOp
  | @storeEvicted k hPc =>
      simp only [hPc] at hShown
      rcases hWord k with rfl | rfl
      · refine ⟨fun _ i hi => copyWord_zero _ _ hi, ?_, ?_, ?_, hBreaking⟩ <;>
          simp_all [AggregatorPc.counted, AggregatorPc.busy, AggregatorPc.boundary]
      · refine ⟨copyWord_one (hShown rfl), ?_, ?_, ?_, hBreaking⟩ <;>
          simp_all [AggregatorPc.counted, AggregatorPc.busy, AggregatorPc.boundary]
  | fetch hPc _ =>
      simp only [hPc] at hShown hCount hNonempty hOp
      rcases drainNext_cases (s.agg.beginDrain s.ring) with hNext | hNext <;>
        refine ⟨?_, ?_, ?_, ?_, hBreaking⟩ <;> simp only [hNext, Shown]
      all_goals assumption
  | take hPc =>
      simp only [hPc] at hShown hCount hNonempty hOp
      rcases drainNext_cases (s.agg.takeEntry s.ring) with hNext | hNext <;>
        refine ⟨?_, ?_, ?_, ?_, hBreaking⟩ <;> simp only [hNext, Shown]
      all_goals assumption
  | droppedEmpty hPc _ hNone =>
      exact h.nextOp (by rw [hPc]; rfl) (by simpa only [hPc] using hShown) rfl rfl rfl rfl rfl
  | @clearReady k hPc =>
      rcases hWord k with rfl | rfl <;> refine ⟨?_, ?_, ?_, ?_, hBreaking⟩ <;>
        simp_all [Shown, AggregatorPc.counted, AggregatorPc.busy, AggregatorPc.boundary]
  | advanceEpoch hPc _ =>
      exact h.nextOp (by rw [hPc]; rfl) (by simpa only [hPc] using hShown) rfl rfl rfl rfl rfl
  | _ =>
      refine ⟨?_, ?_, ?_, ?_, ?_⟩ <;>
        simp_all [Shown, AggregatorPc.counted, AggregatorPc.busy, AggregatorPc.boundary]

theorem Counts.of_same (h : Counts c s) (hAgg : s'.agg = s.agg)
    (hCtrl : s'.ctrl.active_slot_mask = s.ctrl.active_slot_mask) : Counts c s' := by
  obtain ⟨hShown, hCount, hNonempty, hOp, hBreaking⟩ := h
  unfold Shown at hShown
  refine ⟨?_, ?_, ?_, ?_, ?_⟩
  · unfold Shown
    rw [hAgg, hCtrl]
    exact hShown
  all_goals rw [hAgg]; assumption

/-- The entry that the worker has reserved and not marked ready. -/
def WorkerPc.filling (c : Config) (p : Nat) : WorkerPc → Option (Filling Submission)
  | .op i k (.submit e _ spc) => spc.filling (c.submission k i p e)
  | _ => none

theorem WorkerPc.submitted_filling (i : Slot) (k e x : Nat) (spc : SubmitPc) :
    (WorkerPc.submitted i k e x spc).filling c p = spc.filling (c.submission k i p e) := by
  cases spc <;> rfl

/-- The ring and what the main loop has taken off it. A worker that has crashed may
have left an entry reserved for ever. -/
structure Drain (c : Config) (s : State) : Prop where
  ring : ∃ filling : Nat → Option (Filling Submission),
    s.ring.Consistent Submission.layout filling s.agg.finished s.agg.taken ∧
    ∀ p, (s.workers p).crashed = false → filling p = (s.workers p).pc.filling c p
  tail : (if s.agg.pc.draining then s.agg.tail else s.ring.tail) = s.agg.taken % s.ring.capacity
  settled : s.agg.pc.batching = false → s.agg.finished = s.agg.taken
  found : s.agg.pc = .take → (s.ring.entries s.agg.tail).ready = true
  drained : s.agg.pc.draining = true → s.agg.finished + s.agg.drained = s.agg.taken
  commands : s.agg.pc.batching = true → s.agg.commands = s.agg.tickets.map (· % s.ring.capacity)
  nodup : s.agg.pc.batching = true → s.agg.tickets.Nodup
  tickets : s.agg.pc.batching = true → ∀ ticket, ticket ∈ s.agg.tickets ↔
    s.agg.finished ≤ ticket ∧ ticket < s.agg.taken ∧
      ∃ cmd, s.ring.log[ticket]? = some cmd ∧ s.agg.active_mask.test_bit cmd.slot_id = true

theorem AggregatorPc.batching_of_draining {pc : AggregatorPc} (h : pc.batching = false) :
    pc.draining = false := by
  cases pc <;> simp_all [AggregatorPc.batching, AggregatorPc.draining]

/-- Outside a batch only the ring and the two counters matter. -/
theorem Drain.of_outside (h : Drain c s) (hBefore : s.agg.pc.batching = false)
    (hAfter : s'.agg.pc.batching = false) (hRing : s'.ring = s.ring)
    (hTaken : s'.agg.taken = s.agg.taken) (hFinished : s'.agg.finished = s.agg.finished)
    (hWorkers : ∀ p, ((s'.workers p).crashed = false → (s.workers p).crashed = false) ∧
      (s'.workers p).pc = (s.workers p).pc) : Drain c s' := by
  obtain ⟨filling, hConsistent, hFilling⟩ := h.ring
  have hTail := h.tail
  refine ⟨⟨filling, ?_, fun p hp => ?_⟩, ?_, ?_, ?_, ?_, ?_, ?_, ?_⟩
  · rw [hRing, hTaken, hFinished]
    exact hConsistent
  · rw [(hWorkers p).2]
    exact hFilling p ((hWorkers p).1 hp)
  · rw [AggregatorPc.batching_of_draining hBefore] at hTail
    rw [AggregatorPc.batching_of_draining hAfter, hRing, hTaken]
    exact hTail
  · intro _
    rw [hTaken, hFinished]
    exact h.settled hBefore
  · intro hPc
    simp [hPc, AggregatorPc.batching] at hAfter
  · simp [AggregatorPc.batching_of_draining hAfter]
  all_goals simp [hAfter]

/-- The main loop takes the oldest entry, which is the one at its tail. -/
theorem Drain.take (h : Drain c s) (hPc : s.agg.pc = .take) :
    (s.ring.entries s.agg.tail).ticket = s.agg.taken ∧
      s.ring.log[s.agg.taken]? = some (s.ring.entries s.agg.tail).command := by
  obtain ⟨filling, hConsistent, -⟩ := h.ring
  have hTail : s.agg.tail = s.agg.taken % s.ring.capacity := by
    simpa [hPc, AggregatorPc.draining] using h.tail
  have hReady := h.found hPc
  rw [hTail] at hReady
  have hTicket := hConsistent.ticket_at_tail hReady
  have hLog := (hConsistent.ready _ hReady).2.1
  rw [hTicket] at hLog
  rw [hTail]
  exact ⟨hTicket, hLog⟩

theorem Drain.takeEntry (h : Drain c s) (hPc : s.agg.pc = .take) {pc : AggregatorPc}
    (hNext : pc = .spin ∨ pc = .storeTail) :
    Drain c { s with
      ring := s.ring.clearReady s.agg.tail
      agg := { s.agg.takeEntry s.ring with pc } } := by
  obtain ⟨filling, hConsistent, hFilling⟩ := h.ring
  obtain ⟨hTicket, hLog⟩ := h.take hPc
  have hTail : s.agg.tail = s.agg.taken % s.ring.capacity := by
    simpa [hPc, AggregatorPc.draining] using h.tail
  have hReady := h.found hPc
  have hDraining : pc.draining = true := by rcases hNext with rfl | rfl <;> rfl
  have hBatching : s.agg.pc.batching = true := by rw [hPc]; rfl
  have hDrained := h.drained (by rw [hPc]; rfl)
  refine ⟨⟨filling, ?_, hFilling⟩, ?_, ?_, ?_, ?_, ?_, ?_, ?_⟩
  · rw [hTail] at hReady ⊢
    exact hConsistent.take hReady
  · simp only [hDraining, if_true]
    simp [AggregatorState.takeEntry, CommandRing.clearReady, hTail, Nat.mod_add_mod]
  · intro hOutside
    rcases hNext with rfl | rfl <;> simp [AggregatorPc.batching] at hOutside
  · intro hTake
    rcases hNext with rfl | rfl <;> simp at hTake
  · intro _
    simp only [AggregatorState.takeEntry]
    omega
  · intro _
    have hCommands := h.commands hBatching
    simp only [AggregatorState.takeEntry, CommandRing.clearReady, hCommands, hTicket]
    split
    next => simp [hTail]
    next => rfl
  · intro _
    have hNew : s.agg.taken ∉ s.agg.tickets := by
      rw [h.tickets hBatching]
      omega
    simp only [AggregatorState.takeEntry, hTicket]
    split
    next =>
      refine List.Nodup.append (h.nodup hBatching) (List.nodup_singleton _) ?_
      simpa using hNew
    next => exact h.nodup hBatching
  · intro _ ticket
    have hOld := h.tickets hBatching ticket
    have hLe := hConsistent.finished_le
    have hHere : ticket ∈ (if s.agg.active_mask.test_bit (s.ring.entries s.agg.tail).command.slot_id
        then s.agg.tickets ++ [s.agg.taken] else s.agg.tickets) ↔ ticket ∈ s.agg.tickets ∨
        (ticket = s.agg.taken ∧ s.agg.active_mask.test_bit
          (s.ring.entries s.agg.tail).command.slot_id = true) := by
      split
      next hKeep => simp [hKeep]
      next hDrop => simp [hDrop]
    simp only [AggregatorState.takeEntry, CommandRing.clearReady, hTicket]
    rw [hHere, hOld]
    constructor
    · rintro (⟨hFrom, hTo, cmd⟩ | ⟨rfl, hKeep⟩)
      · exact ⟨hFrom, by omega, cmd⟩
      · exact ⟨hLe, by omega, _, hLog, hKeep⟩
    · rintro ⟨hFrom, hTo, cmd, hCmd, hKeep⟩
      by_cases hLast : ticket = s.agg.taken
      · subst hLast
        rw [hLog] at hCmd
        obtain rfl := Option.some.inj hCmd
        exact .inr ⟨rfl, hKeep⟩
      · exact .inl ⟨hFrom, by omega, cmd, hCmd, hKeep⟩

/-- A drain begins with nothing taken. -/
theorem Drain.beginDrain (h : Drain c s) (hPc : s.agg.pc = .fetch) {pc : AggregatorPc}
    (hNext : pc = .spin ∨ pc = .storeTail) :
    Drain c { s with agg := { s.agg.beginDrain s.ring with pc } } := by
  have hTail : s.ring.tail = s.agg.taken % s.ring.capacity := by
    simpa [hPc, AggregatorPc.draining] using h.tail
  have hSettled := h.settled (by rw [hPc]; rfl)
  have hDraining : pc.draining = true := by rcases hNext with rfl | rfl <;> rfl
  refine ⟨h.ring, ?_, ?_, ?_, ?_, fun _ => rfl, fun _ => List.nodup_nil, ?_⟩
  · rw [if_pos hDraining]
    exact hTail
  · intro hOutside
    rcases hNext with rfl | rfl <;> simp [AggregatorPc.batching] at hOutside
  · intro hTake
    rcases hNext with rfl | rfl <;> simp at hTake
  · intro _
    simp only [AggregatorState.beginDrain]
    omega
  · intro _ ticket
    simp only [AggregatorState.beginDrain, List.not_mem_nil, false_iff]
    omega

/-- The batch is over, executed or dropped. -/
theorem Drain.finish (h : Drain c s) (hOutside : s'.agg.pc.batching = false)
    (hRing : s'.ring = { s.ring with
      tail := if s.agg.pc.draining then s.agg.tail else s.ring.tail })
    (hTaken : s'.agg.taken = s.agg.taken) (hFinished : s'.agg.finished = s.agg.taken)
    (hWorkers : s'.workers = s.workers) : Drain c s' := by
  obtain ⟨filling, hConsistent, hFilling⟩ := h.ring
  have hc := hConsistent.finish
  refine ⟨⟨filling, ?_, ?_⟩, ?_, ?_, ?_, ?_, ?_, ?_, ?_⟩
  · rw [hRing, hTaken, hFinished]
    exact { hc with }
  · rw [hWorkers]
    exact hFilling
  · rw [AggregatorPc.batching_of_draining hOutside, hRing, hTaken]
    exact h.tail
  · intro _
    rw [hTaken, hFinished]
  · intro hTake
    simp [hTake, AggregatorPc.batching] at hOutside
  · simp [AggregatorPc.batching_of_draining hOutside]
  all_goals simp [hOutside]

/-- Within a batch the main loop moves on without touching the ring. -/
theorem Drain.of_inside (h : Drain c s) {pc : AggregatorPc} {seen : SlotMask}
    (hBefore : s.agg.pc.batching = true) (hAfter : pc.batching = true)
    (hDraining : pc.draining = s.agg.pc.draining)
    (hFound : pc = .take → (s.ring.entries s.agg.tail).ready = true) :
    Drain c { s with agg := { s.agg with pc, seen } } := by
  refine ⟨h.ring, ?_, ?_, hFound, ?_, fun _ => h.commands hBefore, fun _ => h.nodup hBefore,
    fun _ => h.tickets hBefore⟩
  · simp only [hDraining]
    exact h.tail
  · simp [hAfter]
  · simp only [hDraining]
    exact h.drained

theorem Drain.tick {pc : AggregatorPc} {seen : SlotMask} (h : Drain c s)
    (hQuit : s.ctrl.quit_flag = false) (hTick : Tick s timer s.agg.pc pc seen) :
    Drain c { s with agg := { s.agg with pc, seen } } := by
  generalize hPc : s.agg.pc = old at hTick
  cases hTick with
  | found hReady _ =>
      exact h.of_inside (by rw [hPc]; rfl) rfl (by rw [hPc]; rfl) fun _ => hReady
  | spinQuit hSet => simp [hQuit] at hSet
  | _ => exact h.of_outside (by rw [hPc]; rfl) rfl rfl rfl rfl fun _ => ⟨id, rfl⟩

/-- The tail is stored before the batch is executed. -/
theorem Drain.storeTail (h : Drain c s) (hPc : s.agg.pc = .storeTail) :
    Drain c { s with
      ring := { s.ring with tail := s.agg.tail }, agg := { s.agg with pc := .execute } } := by
  obtain ⟨filling, hConsistent, hFilling⟩ := h.ring
  have hTail := h.tail
  rw [hPc] at hTail
  refine ⟨⟨filling, { hConsistent with }, hFilling⟩, hTail, by simp [AggregatorPc.batching],
    by simp, by simp [AggregatorPc.draining], fun _ => h.commands (by rw [hPc]; rfl),
    fun _ => h.nodup (by rw [hPc]; rfl), fun _ => h.tickets (by rw [hPc]; rfl)⟩

theorem Drain.aggregate (h : Drain c s) (hQuit : s.ctrl.quit_flag = false)
    (hMove : AggregateMove c s timer sample s') (hStill : s'.ctrl.quit_flag = false) :
    Drain c s' := by
  have hWord : ∀ k : Fin 2, k = 0 ∨ k = 1 := by decide
  have hNext : ∀ a : AggregatorState, (a.nextOp c).pc.batching = false := by
    intro a
    rcases nextOp_pc a c with hPc | hPc <;> rw [hPc] <;> rfl
  cases hMove with
  | tick hTick => exact h.tick hQuit hTick
  | @clearMidLeaves k hPc =>
      rcases hWord k with rfl | rfl <;>
        exact h.of_outside (by rw [hPc]; rfl) rfl rfl rfl rfl fun _ => ⟨id, rfl⟩
  | @storeMidLeaves k hPc =>
      refine h.of_outside (by rw [hPc]; rfl) ?_ rfl rfl rfl fun _ => ⟨id, rfl⟩
      dsimp only
      split <;> (try split) <;> rfl
  | @storeEvicted k hPc =>
      rcases hWord k with rfl | rfl <;>
        exact h.of_outside (by rw [hPc]; rfl) rfl rfl rfl rfl fun _ => ⟨id, rfl⟩
  | @clearReady k hPc =>
      rcases hWord k with rfl | rfl <;>
        exact h.of_outside (by rw [hPc]; rfl) rfl rfl rfl rfl fun _ => ⟨id, rfl⟩
  | evict hPc hStuck =>
      refine h.of_outside (by rw [hPc]; rfl) rfl rfl rfl rfl fun p => ?_
      dsimp only
      split <;> exact ⟨id, rfl⟩
  | fetch hPc _ => exact h.beginDrain hPc (drainNext_cases _)
  | take hPc => exact h.takeEntry hPc (drainNext_cases _)
  | batched hPc _ hSome => exact h.storeTail hPc
  | droppedEmpty hPc _ hNone =>
      exact h.finish (hNext _) (by rw [hPc]; rfl) (nextOp_taken ..) (nextOp_finished ..) rfl
  | execute hPc hPasses =>
      exact h.finish rfl (by rw [hPc]; rfl) rfl rfl rfl
  | throw hPc hPasses =>
      exact h.of_inside (by rw [hPc]; rfl) rfl (by rw [hPc]; rfl) (by simp)
  | advanceEpoch hPc _ =>
      exact h.of_outside (by rw [hPc]; rfl) (hNext _) rfl (nextOp_taken ..) (nextOp_finished ..)
        fun _ => ⟨id, rfl⟩
  | spinTimeout hPc _ _ => simp at hStill
  | droppedQuit hPc hSet => simp [hQuit] at hSet
  | exchangeLeaves hPc | applyLeaves hPc | noJoins hPc | exchangeJoins hPc | applyJoins hPc _
  | storeActive hPc | storedNone hPc _ | storedActive hPc _ | decideQuit hPc _ | midLeaves hPc _
  | signalEvicted hPc _ | advanceBreaking hPc _ =>
      exact h.of_outside (by rw [hPc]; rfl) rfl rfl rfl rfl fun _ => ⟨id, rfl⟩

/-- A step of another party that leaves the ring alone. -/
theorem Drain.of_workers (h : Drain c s) (hAgg : s'.agg = s.agg) (hRing : s'.ring = s.ring)
    (hWorkers : ∀ p, (s'.workers p).crashed = false → (s.workers p).crashed = false ∧
      (s'.workers p).pc.filling c p = (s.workers p).pc.filling c p) : Drain c s' := by
  obtain ⟨filling, hConsistent, hFilling⟩ := h.ring
  refine ⟨⟨filling, ?_, fun p hp => ?_⟩, ?_, ?_, ?_, ?_, ?_, ?_, ?_⟩
  · rw [hAgg, hRing]
    exact hConsistent
  · rw [(hWorkers p hp).2]
    exact hFilling p (hWorkers p hp).1
  all_goals rw [hAgg]; try rw [hRing]
  · exact h.tail
  · exact h.settled
  · exact h.found
  · exact h.drained
  · exact h.commands
  · exact h.nodup
  · exact h.tickets

/-- A step of a `submit_slot_command` call, given room for one that reserves. -/
theorem Drain.submit {i : Slot} {k e x : Nat} {b : Bool} {spc : SubmitPc} (h : Drain c s)
    (hLive : (s.workers p).crashed = false)
    (hPc : (s.workers p).pc = .op i k (.submit e x spc))
    (hRoom : s.ring.reserves b spc = true →
      s.ring.log.length < s.agg.finished + s.ring.capacity) :
    Drain c { s.setPc p
        (.submitted i k e x (s.ring.submit Submission.layout (c.submission k i p e) b spc).2) with
      ring := (s.ring.submit Submission.layout (c.submission k i p e) b spc).1 } := by
  obtain ⟨filling, hConsistent, hFilling⟩ := h.ring
  have hBefore : filling p = spc.filling (c.submission k i p e) := by
    rw [hFilling p hLive, hPc]
    rfl
  obtain ⟨hCapacity, hTail, hReady⟩ :=
    s.ring.submit_frame Submission.layout (c.submission k i p e) b spc
  have hAfter := hConsistent.submit hBefore hRoom Prod.mk.eta.symm
  refine ⟨⟨_, hAfter, fun q hq => ?_⟩, ?_, h.settled, fun hTake => hReady _ (h.found hTake),
    h.drained, ?_, h.nodup, ?_⟩
  · by_cases hqp : q = p
    · subst hqp
      simp [WorkerPc.submitted_filling]
    · rw [Function.update_of_ne hqp, State.setPc_pc, if_neg hqp]
      exact hFilling q (by simpa using hq)
  · simp only [State.setPc_agg, hCapacity, hTail]
    exact h.tail
  · simp only [State.setPc_agg, hCapacity]
    exact h.commands
  · intro hBatching ticket
    rw [State.setPc_agg] at hBatching ⊢
    rw [h.tickets hBatching]
    have hTaken := hConsistent.taken_le
    have hLog : ticket < s.agg.taken → (s.ring.submit Submission.layout
        (c.submission k i p e) b spc).1.log[ticket]? = s.ring.log[ticket]? := by
      intro hLt
      rw [CommandRing.submit_log]
      split
      · exact List.getElem?_append_left (by omega)
      · rfl
    constructor
    · rintro ⟨hFrom, hTo, hCmd⟩
      exact ⟨hFrom, hTo, by rwa [hLog hTo]⟩
    · rintro ⟨hFrom, hTo, hCmd⟩
      exact ⟨hFrom, hTo, by rwa [hLog hTo] at hCmd⟩

end Barrier
