import SwarmLoRA.Barrier.Ledger

namespace Barrier

open Ipc Aggregator Machine

/-- An orderly step that leaves no command behind in the ring, and takes no slot over with
a leave pending. -/
structure Steady (s : State) (l : Label) : Prop where
  orderly : Orderly s l
  undisturbed : Undisturbed s l
  unleft : Unleft s l

/-- What is known of the states of steady runs, put together from the invariants of the masks, of
the rounds, of the outputs and of the ledger. -/
structure Known (c : Config) (s : State) : Prop where
  tenancy : Tenancy s
  locals : Locals s
  membership : Membership s
  running : Running c s
  produced : Produced c s
  marks : Marks s
  ledger : Ledger c s
  raised : Raised s

instance (s : State) (l : Label) : Decidable (Orderly s l) :=
  decidable_of_iff (s.breaks l = false ∧ (s.evicts l).is_zero = true ∧ s.spinsOut l = false ∧
    (∀ i ∈ s.givesBack l, s.ctrl.slot_is_active i = false) ∧ s.pool.num_slots < s.ring.capacity)
    ⟨fun ⟨h1, h2, h3, h4, h5⟩ => ⟨h1, (SlotMask.is_zero_iff _).mp h2, h3, h4, h5⟩,
      fun h => ⟨h.unbroken, (SlotMask.is_zero_iff _).mpr h.unevicted, h.patient, h.acknowledged,
        h.room⟩⟩

variable {c : Config} {s s' : State} {p : Nat} {i : Slot} {timer : Bool} {sample : Slot → Nat}

theorem Known.initial (h : Initial s) : Known c s :=
  ⟨.initial h, .initial h, .initial h, .initial h, .initial h, .initial h, .initial h, .initial h⟩

theorem Known.move {l : Label} (h : Known c s) (hSteady : Steady s l)
    (hStep : step c s l = some s') : Known c s' := by
  obtain ⟨hTenancy, hLocals, hMembership, hRunning, hProduced, hMarks, hLedger, hRaised⟩ := h
  obtain ⟨hOrderly, hUndisturbed, hUnleft⟩ := hSteady
  have hMove := move_of_step hStep
  have hStays := hRunning.stays hTenancy hMove hUndisturbed hOrderly.patient
  exact {
    tenancy := hTenancy.step hUndisturbed.claimed hStep
    locals := hLocals.move hMove
    membership := hMembership.move hLocals hTenancy hMove hUnleft
    running := hStays
    produced := hProduced.move hTenancy hRunning hMove hStays.quit
    marks := hMarks.move hTenancy hLocals hMembership hOrderly hMove
    ledger := hLedger.move hTenancy hMarks hRunning hOrderly hMove
    raised := hRaised.move hTenancy hLocals hMarks hRunning hOrderly hMove }

theorem known_of_reach (run : (machine c).Reach Steady s) : Known c s :=
  run.invariant (Known c) (fun _ => Known.initial) fun _ _ _ h hSteady hStep => h.move hSteady hStep

/-- Distinct slots below a bound are no more than the bound. -/
theorem length_le_of_lt {slots : List Slot} {n : Int} (hNodup : slots.Nodup)
    (hBelow : ∀ i ∈ slots, (i : Int) < n) : slots.length ≤ n.toNat := by
  have hValues : (slots.map Fin.val).Nodup := hNodup.map Fin.val_injective
  have hSubset : (slots.map Fin.val) ⊆ List.range n.toNat := by
    intro x hx
    obtain ⟨i, hi, rfl⟩ := List.mem_map.mp hx
    have := hBelow i hi
    rw [List.mem_range]
    omega
  simpa using (hValues.subperm hSubset).length_le

namespace Known

/-- The commands that are not done with are of distinct slots. -/
theorem outstanding_nodup (h : Known c s) :
    ((s.ring.log.drop s.agg.finished).map (·.slot_id)).Nodup := by
  rw [List.nodup_iff_injective_getElem]
  rintro ⟨a, ha⟩ ⟨b, hb⟩ hSame
  simp only [List.length_map, List.length_drop] at ha hb
  simp only [List.getElem_map, List.getElem_drop] at hSame
  have hLog : ∀ {n} (hn : s.agg.finished + n < s.ring.log.length),
      s.ring.log[s.agg.finished + n]? = some s.ring.log[s.agg.finished + n] :=
    fun hn => List.getElem?_eq_getElem hn
  have hTicket := h.running.round.unique _ _ _ _ (Nat.le_add_right ..) (Nat.le_add_right ..)
    (hLog (n := a) (by omega)) (hLog (n := b) (by omega)) hSame
    (h.ledger.active h.marks (Nat.le_add_right ..) (hLog (by omega)))
  simp only [Fin.mk.injEq]
  omega

theorem outstanding_mem (h : Known c s) {cmd : Submission}
    (hCmd : cmd ∈ s.ring.log.drop s.agg.finished) :
    ∃ q k stage, (s.workers q).pc = .op cmd.slot_id k stage ∧
      (s.workers q).pc.reserved s.ctrl.barrier_done_epoch = true := by
  obtain ⟨n, hn⟩ := List.mem_iff_getElem?.mp hCmd
  rw [List.getElem?_drop] at hn
  obtain ⟨q, hSlot, hReserved⟩ := h.ledger.backed _ cmd (Nat.le_add_right ..) hn
  obtain ⟨k, stage, hPc⟩ := WorkerPc.op_of_reserved hSlot hReserved
  exact ⟨q, k, stage, hPc, hReserved⟩

/-- Nobody holds the slot whose new owner a claim is about to store. -/
theorem unheld {l : Label} (h : Known c s) (hClaims : i ∈ s.claims l) :
    WorkerPc.idle.Fits s i := by
  cases l with
  | rpc p b =>
      simp only [State.claims, Option.mem_def] at hClaims
      split at hClaims
      next w j hCall =>
        obtain rfl := Option.some.inj hClaims
        exact h.marks.free j fun q hq => (h.tenancy.held hq).2 p (by rw [hCall]; rfl)
      next => simp at hClaims
  | _ => simp [State.claims] at hClaims

/-- The slot that is taken from its owner is not active. -/
theorem given_back {l : Label} (h : Known c s) (hReleases : i ∈ s.releases l) :
    s.agg.active_mask.test_bit i = false := by
  cases l with
  | rpc p b =>
      simp only [State.releases, Option.mem_def] at hReleases
      split at hReleases
      next w j hCall =>
        simp only [Option.ite_none_right_eq_some, Option.some.injEq] at hReleases
        obtain ⟨-, rfl⟩ := hReleases
        have hc := h.tenancy.coherent p
        rw [hCall] at hc
        obtain ⟨-, hSlot, hWhy⟩ := hc
        obtain ⟨f, hPc⟩ := hWhy.resolve_left (by simp [(h.marks.unharmed p).live])
        have hFits := h.marks.fits j p hSlot
        rw [hPc] at hFits
        exact hFits.2.1
      next => simp at hReleases
  | _ => simp [State.releases] at hReleases

/-- A slot that is being activated has no command on the ring. -/
theorem activated {l : Label} (h : Known c s) (hActivates : (s.activates l).test_bit i = true) :
    ¬s.outstanding i := by
  rintro ⟨cmd, hCmd, rfl⟩
  obtain ⟨q, k, stage, hPc, -⟩ := h.outstanding_mem hCmd
  have hNone := (h.marks.active hPc).1
  simp only [State.joinPending, Bool.or_eq_false_iff] at hNone
  cases l with
  | aggregate timer sample =>
      simp only [State.activates] at hActivates
      split at hActivates
      · simp [hNone] at hActivates
      · simp at hActivates
  | _ => simp [State.activates] at hActivates

/-- A worker that reserves an entry has none yet, so there are fewer commands on the ring
than slots. -/
theorem room {l : Label} (h : Known c s) (hRoom : s.pool.num_slots < s.ring.capacity)
    (hReserves : s.reserves l = true) :
    s.ring.log.length < s.agg.finished + s.ring.capacity := by
  cases l with
  | work p v b =>
      simp only [State.reserves] at hReserves
      split at hReserves
      next i k e x spc hPc =>
        have hSlot : (s.workers p).pc.slot = some i := by rw [hPc]; rfl
        have hNew : i ∉ (s.ring.log.drop s.agg.finished).map (·.slot_id) := by
          intro hOld
          obtain ⟨cmd, hCmd, rfl⟩ := List.mem_map.mp hOld
          obtain ⟨q, k', stage, hq, hReserved⟩ := h.outstanding_mem hCmd
          obtain rfl := h.tenancy.holder_unique hSlot (q := q) (by rw [hq]; rfl)
          rw [hPc] at hReserved
          cases spc <;> simp [WorkerPc.reserved, CommandRing.reserves] at hReserved hReserves
        have hLength := length_le_of_lt (List.nodup_cons.mpr ⟨hNew, h.outstanding_nodup⟩)
          (n := s.pool.num_slots) fun j hj => by
            rcases List.mem_cons.mp hj with rfl | hj
            · exact (h.tenancy.held hSlot).1
            · obtain ⟨cmd, hCmd, rfl⟩ := List.mem_map.mp hj
              obtain ⟨q, k', stage, hq, -⟩ := h.outstanding_mem hCmd
              exact (h.tenancy.held (p := q) (by rw [hq]; rfl)).1
        simp only [List.length_cons, List.length_map, List.length_drop] at hLength
        omega
      next => simp at hReserves
  | _ => simp [State.reserves] at hReserves

/-- There are never more commands on the ring than one drain can take off it. -/
theorem reached {l : Label} (h : Known c s) : s.beyondDrain l = [] := by
  cases l with
  | aggregate timer sample =>
      simp only [State.beyondDrain]
      split
      next hPc =>
        have hSettled := h.running.drain.settled (by rw [hPc]; rfl)
        have hLength := h.outstanding_nodup.length_le_card
        simp only [List.length_map, List.length_drop, Fintype.card_fin] at hLength
        rw [List.drop_eq_nil_iff]
        simp only [MAX_DRAIN]
        omega
      next => rfl
  | _ => rfl

/-- An orderly step that is taken from such a state is steady. -/
theorem steady {l : Label} (h : Known c s) (hOrderly : Orderly s l) : Steady s l where
  orderly := hOrderly
  unleft := fun _ hClaims => (h.unheld hClaims).2.2.2
  undisturbed := {
    claimed := fun _ hClaims => by
      obtain ⟨hJoins, hIn, hShown, -⟩ := h.unheld hClaims
      simp [State.isActive, hJoins, hIn, hShown]
    released := fun _ hReleases hKept => by simp [h.given_back hReleases] at hKept
    activated := fun _ => h.activated
    room := h.room hOrderly.room
    reached := by simp [h.reached] }

end Known

theorem known_of_orderly (run : (machine c).Reach Orderly s) : Known c s :=
  known_of_reach (run.transfer fun _ _ _ prior hOrderly _ => (known_of_reach prior).steady hOrderly)

/-- What holds in every state of the barrier: batches are intact, a worker that has waited
finds the output of the command that it has submitted, outside of the end of a round a
ready bit is set exactly for the workers that wait in it, and a slot is in the active set
as its worker has asked for. -/
structure LockStep (c : Config) (s : State) : Prop where
  intact : s.agg.pc = .execute → BatchIntact s
  output : ∀ p i k e x, (s.workers p).pc = .op i k (.fetch e x) →
    c.submission k i p e ∈ s.ring.log ∧ ∃ token, s.output i = c.result k x e token
  once : ∀ (ticket ticket' : Nat) (cmd cmd' : Submission), s.ring.log[ticket]? = some cmd →
    s.ring.log[ticket']? = some cmd' → cmd.slot_id = cmd'.slot_id → cmd.round = cmd'.round →
    ticket = ticket'
  ready : s.agg.pc.clearing = false → ∀ i, s.ctrl.per_slot_ready_mask.test_bit i = true ↔
    ∃ p k x, (s.workers p).pc = .op i k (.wait s.ctrl.barrier_done_epoch x)
  cleared : s.agg.pc = .advanceEpoch → ∀ i, s.ctrl.per_slot_ready_mask.test_bit i = false
  joined : ∀ p i, (s.workers p).pc = .polling i →
    s.joinPending i = true ∨ s.agg.active_mask.test_bit i = true
  running : ∀ p i, (s.workers p).pc.slot = some i → (s.workers p).pc.running = true →
    s.agg.active_mask.test_bit i = true
  left : ∀ p i f, (s.workers p).pc = .awaitLeave i ∨ (s.workers p).pc = .release i f →
    s.agg.active_mask.test_bit i = true → s.leavePending i = true
  acknowledged : ∀ p i f, (s.workers p).pc = .awaitLeave i ∨ (s.workers p).pc = .release i f →
    s.ctrl.slot_is_active i = false →
    s.agg.active_mask.test_bit i = false ∧ s.leavePending i = false

/-- What every step keeps: a drain ends in the execution of its batch, a round is closed
only after that, the epoch advances only when the round is closed, and a join or a leave
stays pending until its slot is in or out, and no slot goes in or out without one. -/
structure KeepsStep (s s' : State) : Prop where
  drains : s.agg.pc = .storeTail → s'.agg.pc = .storeTail ∨ s'.agg.pc = .execute
  executes : s.agg.pc = .execute → s'.agg.pc = .execute ∨ s'.agg.pc = .loadActive 0
  closes : s'.agg.pc.clearing = true → s.agg.pc.clearing = true ∨ s.agg.pc = .execute
  advances : s'.ctrl.barrier_done_epoch = s.ctrl.barrier_done_epoch ∨
    (s.agg.pc = .advanceEpoch ∧ s'.ctrl.barrier_done_epoch = s.ctrl.barrier_done_epoch + 1)
  joins : ∀ i, s.joinPending i = true →
    s'.joinPending i = true ∨ s'.agg.active_mask.test_bit i = true
  leaves : ∀ i, s.leavePending i = true →
    s'.leavePending i = true ∨ s'.agg.active_mask.test_bit i = false
  enters : ∀ i, s.agg.active_mask.test_bit i = false → s'.agg.active_mask.test_bit i = true →
    s.joinPending i = true
  removes : ∀ i, s.agg.active_mask.test_bit i = true → s'.agg.active_mask.test_bit i = false →
    s.leavePending i = true

theorem Known.lockStep (h : Known c s) : LockStep c s where
  intact := h.running.round.batchIntact h.tenancy h.running.drain
  output := fun p i k e x hPc => by
    have hActive := (h.marks.active hPc).2.1
    have hSlot : (s.workers p).pc.slot = some i := by rw [hPc]; rfl
    have hIn := h.running.round.in_step i p hActive hSlot
    rw [hPc] at hIn
    exact ⟨h.ledger.handed p _ (by rw [hPc]; rfl),
      h.produced.output p i k e x hActive hSlot (by rw [hPc]; rfl) (.inl hIn.1)⟩
  once := h.ledger.once
  ready := fun hOpen i => by
    constructor
    · exact fun hi => h.running.round.ready hOpen i (h.raised.active i hi) hi
    · rintro ⟨p, k, x, hPc⟩
      exact h.raised.kept hOpen p i k x hPc
  cleared := fun hPc i => by
    have hPhase := h.running.round.phase
    simp only [Phase, hPc] at hPhase
    by_contra hOn
    rw [Bool.not_eq_false] at hOn
    have hNone := hPhase.2.2 i (h.raised.active i hOn)
    simp [hOn] at hNone
  joined := fun p i hPc => by
    obtain ⟨hLive, hKept⟩ := h.marks.unharmed p
    rcases h.membership.waiting i p hLive hPc with hPending | hIn | hEvicted
    · exact .inl hPending
    · exact .inr hIn
    · simp [hKept (by simp [hPc])] at hEvicted
  running := fun p i hSlot hRunning => by
    obtain ⟨hLive, hKept⟩ := h.marks.unharmed p
    rcases h.membership.running i p hLive hSlot hRunning with hIn | hEvicted
    · exact hIn
    · have hBusy : (s.workers p).pc ≠ .idle := fun hPc => by simp [hPc, WorkerPc.slot] at hSlot
      simp [hKept hBusy] at hEvicted
  left := fun p i f hPc hIn => by
    rcases hPc with hPc | hPc
    all_goals
      have hFits := h.marks.fits i p (by rw [hPc]; rfl)
      rw [hPc] at hFits
      exact (hFits.2.1 hIn).2
  acknowledged := fun p i f hPc hOff => by
    rcases hPc with hPc | hPc
    all_goals
      have hFits := h.marks.fits i p (by rw [hPc]; rfl)
      rw [hPc] at hFits
      exact hFits.2.2.2 hOff

/-- The other parties do not touch the epoch, and take back no join and no leave. -/
theorem Move.frame {l : Label} (hMove : Move c s l s') (hMarks : Marks s) (hTenancy : Tenancy s) :
    (s'.agg = s.agg ∧ s'.ctrl.barrier_done_epoch = s.ctrl.barrier_done_epoch ∧
      ∀ i, (s.joinPending i = true → s'.joinPending i = true) ∧
        (s.leavePending i = true → s'.leavePending i = true)) ∨
      ∃ timer sample, l = .aggregate timer sample ∧ AggregateMove c s timer sample s' := by
  cases hMove with
  | worker hLive hMove =>
      have hPending := hMove.pending
      have hAgg : s'.agg = s.agg := by cases hMove <;> rfl
      refine .inl ⟨hAgg, by cases hMove <;> rfl, fun i => ?_⟩
      simp only [State.joinPending, State.leavePending, hAgg, Bool.or_eq_true]
      exact ⟨Or.imp_left (hPending i).1, Or.imp_left (hPending i).2⟩
  | call hMove =>
      refine .inl ?_
      cases hMove <;> exact ⟨rfl, rfl, fun _ => ⟨id, id⟩⟩
  | aggregate hMove => exact .inr ⟨_, _, rfl, hMove⟩
  | @disconnect q i hCrashed _ _ _ => simp [(hMarks.unharmed q).live] at hCrashed
  | deferredRelease hSleeping => exact (hMarks.awake hTenancy _ _ hSleeping).elim
  | _ => exact .inl ⟨rfl, rfl, fun _ => ⟨id, id⟩⟩

theorem Known.keepsStep_aggregate (h : Known c s) (hOrderly : Orderly s (.aggregate timer sample))
    (hMove : AggregateMove c s timer sample s') : KeepsStep s s' where
  drains := fun hPc => by
    have hQuit := h.running.quit
    cases hMove with
    | batched _ _ _ => exact .inr rfl
    | droppedQuit _ hSet => simp [hQuit] at hSet
    | droppedEmpty _ _ hNone =>
        exact absurd hNone (h.running.round.commands_ne_nil h.running.drain h.running.counts hPc)
    | tick hTick =>
        rw [hPc] at hTick
        cases hTick
    | _ => simp [hPc] at *
  executes := fun hPc => by
    cases hMove with
    | execute _ _ => exact .inr rfl
    | throw _ hFails =>
        simp [h.running.round.batchPasses h.tenancy h.running.drain h.running.counts hPc] at hFails
    | tick hTick =>
        rw [hPc] at hTick
        cases hTick
    | _ => simp [hPc] at *
  closes := fun hClosing => by
    cases h.running.turn hMove with
    | goesOn _ _ hClearing => exact .inl (hClearing ▸ hClosing)
    | executes hPc _ _ _ => exact .inr hPc
    | publishes _ hOpen _ _ => simp [hOpen] at hClosing
  advances := by
    cases h.running.turn hMove with
    | goesOn hEpoch _ _ | executes _ _ hEpoch _ => exact .inl hEpoch
    | publishes hPc _ hEpoch _ => exact .inr ⟨hPc, hEpoch⟩
  joins := fun _ => hMove.join_kept h.locals
  leaves := fun _ => hMove.leave_kept h.locals
  enters := fun i hOut hIn => by
    rcases hMove.active i with hSame | ⟨-, hPending⟩ | ⟨hGone, -⟩
    · simp [hSame, hOut] at hIn
    · exact hPending
    · simp [hGone] at hIn
  removes := fun i hIn hOut => by
    by_contra hNone
    have hStill := hMove.stays h.locals hOrderly.unevicted hIn (by simpa using hNone)
    simp [hOut] at hStill

theorem Known.keepsStep {l : Label} (h : Known c s) (hOrderly : Orderly s l)
    (hStep : step c s l = some s') : KeepsStep s s' := by
  rcases (move_of_step hStep).frame h.marks h.tenancy with
    ⟨hAgg, hEpoch, hPending⟩ | ⟨_, _, rfl, hMove⟩
  · refine ⟨fun hPc => ?_, fun hPc => ?_, fun hClosing => ?_, .inl hEpoch,
      fun i hi => .inl ((hPending i).1 hi), fun i hi => .inl ((hPending i).2 hi),
      fun i hOut hIn => ?_, fun i hIn hOut => ?_⟩
    · exact .inl (hAgg ▸ hPc)
    · exact .inl (hAgg ▸ hPc)
    · exact .inl (hAgg ▸ hClosing)
    · simp [hAgg, hOut] at hIn
    · simp [hAgg, hIn] at hOut
  · exact h.keepsStep_aggregate hOrderly hMove

/-- Every orderly run is in lock-step, and so is every step that continues it. Orderly is what is
asked of the parties: no crash, no timeout, no eviction, no exception within a token, and a slot
given back only after its leave has been acknowledged. -/
theorem lock_step_of_orderly (run : (machine c).Reach Orderly s) :
    LockStep c s ∧ ∀ l s', Orderly s l → (machine c).step s l = some s' → KeepsStep s s' :=
  ⟨(known_of_orderly run).lockStep, fun _ _ hOrderly hStep =>
    (known_of_orderly run).keepsStep hOrderly hStep⟩

/-- Two workers join, and each of them waits for the first round and finds its output. -/
theorem lock_step_of_two_workers : ∃ s, (machine oneLayer).Reach Orderly s ∧
    (s.workers 0).pc = .op 0 0 (.fetch 0 7) ∧ (s.workers 1).pc = .op 1 0 (.fetch 0 7) ∧
    s.output 1 = oneLayer.result 0 7 0 1 ∧ LockStep oneLayer s ∧
    ∀ l s', Orderly s l → (machine oneLayer).step s l = some s' → KeepsStep s s' := by
  have hRun : ((machine oneLayer).replayUnder Orderly twoSlotStart
      (joinSchedule 0 1 ++ joinSchedule 1 1 ++ rounds 9 ++ works 0 10 ++ works 1 10 ++
        rounds 14 ++ works 0 1 ++ works 1 1)).map
      (fun s => ((s.workers 0).pc, (s.workers 1).pc, s.output 1)) =
        some (.op 0 0 (.fetch 0 7), .op 1 0 (.fetch 0 7), oneLayer.result 0 7 0 1) := by
    decide +kernel
  obtain ⟨s, hReplay, hAll⟩ := Option.map_eq_some_iff.mp hRun
  simp only [Prod.mk.injEq] at hAll
  obtain ⟨hFirst, hSecond, hOutput⟩ := hAll
  have run := System.reach_of_replayUnder (.start (twoSlotStart_initial oneLayer)) hReplay
  exact ⟨s, run, hFirst, hSecond, hOutput, lock_step_of_orderly run⟩

end Barrier
