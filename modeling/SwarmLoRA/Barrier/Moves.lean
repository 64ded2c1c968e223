import SwarmLoRA.Barrier.Step

/-! What one step can do, said once. A step of a live worker or of a connection thread is one of
the moves below, with everything that the code has checked before it; a step of the main loop
touches no worker beyond its history variable. -/
namespace Barrier

open Ipc Aggregator Machine

namespace State

@[simp] theorem setPc_pc (s : State) (p q : Nat) (pc : WorkerPc) :
    ((s.setPc p pc).workers q).pc = if q = p then pc else (s.workers q).pc := by
  by_cases h : q = p
  · subst h
    simp [setPc]
  · simp [setPc, h]

@[simp] theorem setPc_crashed (s : State) (p q : Nat) (pc : WorkerPc) :
    ((s.setPc p pc).workers q).crashed = (s.workers q).crashed := by
  by_cases h : q = p
  · subst h
    simp [setPc]
  · simp [setPc, h]

@[simp] theorem setPc_handler (s : State) (p q : Nat) (pc : WorkerPc) :
    ((s.setPc p pc).workers q).handler = (s.workers q).handler := by
  by_cases h : q = p
  · subst h
    simp [setPc]
  · simp [setPc, h]

/-- The slot whose new owner the step stores. -/
def claims (s : State) : Label → Option Slot
  | .rpc p _ =>
      match s.calls p with
      | .claim _ (.storeOwner i) => some i
      | _ => none
  | _ => none

/-- The slot that the step takes away from its owner. -/
def releases (s : State) : Label → Option Slot
  | .rpc p _ =>
      match s.calls p with
      | .release w (.casOwner i) => if s.pool.owner_worker_id i = (w : Int) then some i else none
      | _ => none
  | _ => none

end State

/-- The moves of worker `p` that change nothing but its own position. -/
inductive Advance (c : Config) (s : State) (p : Nat) : Label → WorkerPc → WorkerPc → Prop where
  | activated {i v b} (hActive : s.ctrl.slot_is_active i = true) :
      Advance c s p (.work p v b) (.polling i) (.tokenStart i)
  | begin {i v b} (hEvicted : s.ctrl.is_slot_evicted i = false) :
      Advance c s p (.work p v b) (.tokenStart i) (.op i 0 .capture)
  | capture {i k v b} :
      Advance c s p (.work p v b) (.op i k .capture) (.op i k (.prepare s.ctrl.barrier_done_epoch))
  | published {i k e x v b} (hEpoch : e < s.ctrl.barrier_done_epoch) :
      Advance c s p (.work p v b) (.op i k (.wait e x)) (.op i k (.fetch e x))
  | quit {i k e x v b} (hQuit : s.ctrl.quit_flag = true) :
      Advance c s p (.work p v b) (.op i k (.wait e x)) (.leave i false)
  | fetched {i k e x v b} (hMore : k + 1 ≠ c.ops_per_token) :
      Advance c s p (.work p v b) (.op i k (.fetch e x)) (.op i (k + 1) .capture)
  | complete {i v b} (hDone : completes c (s.workers p) = true) :
      Advance c s p (.work p v b) (.tokenEnd i) (.leave i true)
  | again {i v b} (hDone : completes c (s.workers p) = false) :
      Advance c s p (.work p v b) (.tokenEnd i) (.tokenStart i)
  | acknowledged {i v b} (hActive : s.ctrl.slot_is_active i = false) :
      Advance c s p (.work p v b) (.awaitLeave i) (.release i true)
  | notActivated {i} (hActive : s.ctrl.slot_is_active i = false) :
      Advance c s p (.timeout p) (.polling i) (.leave i false)
  | notAcknowledged {i} (hActive : s.ctrl.slot_is_active i = true) :
      Advance c s p (.timeout p) (.awaitLeave i) (.release i true)
  | failPending {i pc} (hPending : pc = .prepared i ∨ pc = .polling i) :
      Advance c s p (.fail p) pc (.release i false)
  | failActive {i pc} (hRunning : pc = .tokenStart i ∨ pc = .tokenEnd i ∨ ∃ k stage,
        pc = .op i k stage ∧ ∀ e x spc, stage ≠ .submit e x spc ∧ stage ≠ .wait e x) :
      Advance c s p (.fail p) pc (.leave i false)

/-- The moves of a live worker, one for each kind of effect on the shared state. Every invariant
goes by cases on these instead of on the code. -/
inductive WorkerMove (c : Config) (s : State) (p : Nat) : Label → State → Prop where
  | advance {l pc'} (hMove : Advance c s p l (s.workers p).pc pc') :
      WorkerMove c s p l (s.setPc p pc')
  | claimThrew {v b} (hPc : (s.workers p).pc = .claiming) (hCall : s.calls p = .claim p .threw) :
      WorkerMove c s p (.work p v b) ((s.setCall p .idle).setPc p .idle)
  | claimReturned {i v b} (hPc : (s.workers p).pc = .claimed i)
      (hCall : s.calls p = .claim p (.returned i)) :
      WorkerMove c s p (.work p v b) ((s.setCall p .idle).setPc p (.prepared i))
  | join {i v b} (hPc : (s.workers p).pc = .prepared i) :
      WorkerMove c s p (.work p v b) { s.setPc p (.polling i) with
        ctrl := s.ctrl.slot_signal_join i
        joinTag := Function.update s.joinTag i (s.tenancy i) }
  | evicted {i v b} (hPc : (s.workers p).pc = .tokenStart i)
      (hEvicted : s.ctrl.is_slot_evicted i = true) :
      WorkerMove c s p (.work p v b) { s.setPc p (.leave i false) with
        ctrl := { s.ctrl with evicted_slot_mask := s.ctrl.evicted_slot_mask.clear_bit i } }
  | prepare {i k e v b} (hPc : (s.workers p).pc = .op i k (.prepare e)) :
      WorkerMove c s p (.work p v b) { s.setPc p (.op i k (.submit e v .loadHead)) with
        input := Function.update s.input i v }
  | submit {i k e x spc v b} (hPc : (s.workers p).pc = .op i k (.submit e x spc)) :
      WorkerMove c s p (.work p v b) { s.setPc p
          (.submitted i k e x (s.ring.submit Submission.layout (c.submission k i p e) b spc).2) with
        ring := (s.ring.submit Submission.layout (c.submission k i p e) b spc).1 }
  | signal {i k e x v b} (hPc : (s.workers p).pc = .op i k (.signal e x)) :
      WorkerMove c s p (.work p v b) { s.setPc p (.op i k (.wait e x)) with
        ctrl := s.ctrl.slot_signal_ready i }
  | sample {i k e x v b} (hPc : (s.workers p).pc = .op i k (.fetch e x))
      (hLast : k + 1 = c.ops_per_token) :
      WorkerMove c s p (.work p v b) { s with
        workers := Function.update s.workers p
          { takeToken (s.workers p) ⟨(s.output i).token_id,
              decide ((s.output i).round = e ∧ (s.output i).op_type = OP_LM_HEAD)⟩ with
            pc := .tokenEnd i } }
  | leave {i f v b} (hPc : (s.workers p).pc = .leave i f) :
      WorkerMove c s p (.work p v b)
        ((s.signalLeave i).setPc p (if f then .awaitLeave i else .release i false))
  | release {i f v b} (hPc : (s.workers p).pc = .release i f) :
      WorkerMove c s p (.work p v b)
        ((s.setCall p (.release p (release_slot_entry s.pool i))).setPc p (.releasing i f))
  | releaseThrew {i f v b} (hPc : (s.workers p).pc = .releasing i f)
      (hCall : s.calls p = .release p .threw) :
      WorkerMove c s p (.work p v b) ((s.setCall p .idle).setPc p (.released f))
  | finish {f v b} (hPc : (s.workers p).pc = .released f)
      (hCall : s.calls p = .idle ∨ ∃ w, s.calls p = .release w .returned) :
      WorkerMove c s p (.work p v b) { (s.setCall p .idle).setPc p .idle with
        completions := s.completions ++
          [⟨p, f, (s.workers p).evicted, (s.workers p).generated_tokens⟩] }

variable {c : Config} {s s' : State} {p : Nat}

/-- What a step of a worker within an operation can be. -/
theorem worker_move_of_op {i : Slot} {k v : Nat} {b : Bool} {stage : Stage}
    (hPc : (s.workers p).pc = .op i k stage) (hStep : opStep c s p v b i k stage = some s') :
    WorkerMove c s p (.work p v b) s' := by
  cases stage with
  | capture =>
      obtain rfl := Option.some.inj hStep
      exact .advance (hPc ▸ .capture)
  | prepare e =>
      obtain rfl := Option.some.inj hStep
      exact .prepare hPc
  | submit e x spc =>
      obtain rfl := Option.some.inj hStep
      exact .submit hPc
  | signal e x =>
      obtain rfl := Option.some.inj hStep
      exact .signal hPc
  | wait e x =>
      simp only [opStep] at hStep
      split at hStep
      next hEpoch =>
        obtain rfl := Option.some.inj hStep
        exact .advance (hPc ▸ .published hEpoch)
      next =>
        split at hStep
        next hQuit =>
          obtain rfl := Option.some.inj hStep
          exact .advance (hPc ▸ .quit hQuit)
        next => simp at hStep
  | fetch e x =>
      simp only [opStep] at hStep
      split at hStep
      next hLast =>
        obtain rfl := Option.some.inj hStep
        exact .sample hPc hLast
      next hMore =>
        obtain rfl := Option.some.inj hStep
        exact .advance (hPc ▸ .fetched hMore)

/-- What a step of its loop can be. -/
theorem worker_move_of_work {v : Nat} {b : Bool} (hStep : workStep c s p v b = some s') :
    WorkerMove c s p (.work p v b) s' := by
  cases hPc : (s.workers p).pc with
  | idle => simp [workStep, hPc] at hStep
  | claiming =>
      simp only [workStep, hPc, Option.ite_none_right_eq_some, Option.some.injEq] at hStep
      obtain ⟨hCall, rfl⟩ := hStep
      exact .claimThrew hPc hCall
  | claimed i =>
      simp only [workStep, hPc, Option.ite_none_right_eq_some, Option.some.injEq] at hStep
      obtain ⟨hCall, rfl⟩ := hStep
      exact .claimReturned hPc hCall
  | prepared i =>
      simp only [workStep, hPc, Option.some.injEq] at hStep
      subst hStep
      exact .join hPc
  | polling i =>
      simp only [workStep, hPc, Option.ite_none_right_eq_some, Option.some.injEq] at hStep
      obtain ⟨hActive, rfl⟩ := hStep
      exact .advance (hPc ▸ .activated hActive)
  | tokenStart i =>
      simp only [workStep, hPc] at hStep
      split at hStep
      next hEvicted =>
        obtain rfl := Option.some.inj hStep
        exact .evicted hPc hEvicted
      next hEvicted =>
        obtain rfl := Option.some.inj hStep
        exact .advance (hPc ▸ .begin (by simpa using hEvicted))
  | op i k stage =>
      simp only [workStep, hPc] at hStep
      exact worker_move_of_op hPc hStep
  | tokenEnd i =>
      simp only [workStep, hPc] at hStep
      split at hStep
      next hDone =>
        obtain rfl := Option.some.inj hStep
        exact .advance (hPc ▸ .complete hDone)
      next hDone =>
        obtain rfl := Option.some.inj hStep
        exact .advance (hPc ▸ .again (by simpa using hDone))
  | leave i f =>
      simp only [workStep, hPc, Option.some.injEq] at hStep
      subst hStep
      exact .leave hPc
  | awaitLeave i =>
      simp only [workStep, hPc, Option.ite_none_left_eq_some, Option.some.injEq] at hStep
      obtain ⟨hActive, rfl⟩ := hStep
      exact .advance (hPc ▸ .acknowledged (by simpa using hActive))
  | release i f =>
      simp only [workStep, hPc, Option.some.injEq] at hStep
      subst hStep
      exact .release hPc
  | releasing i f =>
      simp only [workStep, hPc, Option.ite_none_right_eq_some, Option.some.injEq] at hStep
      obtain ⟨hCall, rfl⟩ := hStep
      exact .releaseThrew hPc hCall
  | released f =>
      simp only [workStep, hPc] at hStep
      split at hStep
      next w hCall =>
        obtain rfl := Option.some.inj hStep
        exact .finish hPc (.inr ⟨w, hCall⟩)
      next hCall =>
        obtain rfl := Option.some.inj hStep
        exact .finish hPc (.inl hCall)
      next => simp at hStep

/-- A worker gives up waiting for its activation. -/
theorem worker_move_of_timeout (hStep : timeoutStep s p = some s') :
    WorkerMove c s p (.timeout p) s' := by
  unfold timeoutStep at hStep
  split at hStep
  next i hPc =>
    simp only [Option.ite_none_left_eq_some, Option.some.injEq] at hStep
    obtain ⟨hActive, rfl⟩ := hStep
    exact .advance (hPc ▸ .notActivated (by simpa using hActive))
  next i hPc =>
    simp only [Option.ite_none_right_eq_some, Option.some.injEq] at hStep
    obtain ⟨hActive, rfl⟩ := hStep
    exact .advance (hPc ▸ .notAcknowledged hActive)
  next => simp at hStep

/-- An exception of the worker. -/
theorem worker_move_of_fail (hStep : failStep s p = some s') : WorkerMove c s p (.fail p) s' := by
  unfold failStep at hStep
  split at hStep <;> rename_i hPc
  case h_9 => simp at hStep
  all_goals obtain rfl := Option.some.inj hStep
  case h_1 => exact .advance (.failPending (.inl hPc))
  case h_2 => exact .advance (.failPending (.inr hPc))
  case h_3 => exact .advance (.failActive (.inl hPc))
  case h_4 => exact .advance (.failActive (.inr (.inl hPc)))
  all_goals exact .advance (.failActive (.inr (.inr ⟨_, _, hPc, by simp⟩)))

/-- The moves of the connection thread that serves worker `p`: the atomic operations of a claim,
with the scrubbing of the slot's bits, and of a release. -/
inductive CallMove (s : State) (p : Nat) : State → Prop where
  | search {w b pc} (hCall : s.calls p = .claim w pc)
      (hPc : (∃ k m, pc = .loadFree k m) ∨ ∃ i x, pc = .casWord i x) :
      CallMove s p { s.setCall p (.claim w (claim_slot s.pool w b pc).2) with
        pool := (claim_slot s.pool w b pc).1 }
  | own {w i} (hCall : s.calls p = .claim w (.storeOwner i)) :
      CallMove s p { (s.setCall p (.claim w (.scrubReady i 0))).setPc p (.claimed i) with
        pool := (claim_slot s.pool w false (.storeOwner i)).1
        tenancy := Function.update s.tenancy i (s.tenancy i + 1) }
  | scrubReady {w i k} (hCall : s.calls p = .claim w (.scrubReady i k)) :
      CallMove s p {
        s.setCall p (.claim w (if k = 0 then .scrubReady i 1 else .scrubEvicted i 0)) with
        ctrl := claim_slot_scrub s.ctrl (.scrubReady i k) }
  | scrubEvicted {w i k} (hCall : s.calls p = .claim w (.scrubEvicted i k)) :
      CallMove s p {
        s.setCall p (.claim w (if k = 0 then .scrubEvicted i 1 else .returned i)) with
        ctrl := claim_slot_scrub s.ctrl (.scrubEvicted i k) }
  | giveUp {w i} (hCall : s.calls p = .release w (.casOwner i))
      (hOwner : s.pool.owner_worker_id i = (w : Int)) :
      CallMove s p { (s.setCall p (.release w (.setFree i))).setPc p
          (.released (s.workers p).pc.succeeded) with
        pool := (release_slot s.pool w (.casOwner i)).1
        input := Function.update s.input i 0
        output := Function.update s.output i ⟨0, 0, 0, 0, 0⟩ }
  | refuse {w i} (hCall : s.calls p = .release w (.casOwner i))
      (hOwner : s.pool.owner_worker_id i ≠ (w : Int)) :
      CallMove s p (s.setCall p (.release w .threw))
  | free {w i} (hCall : s.calls p = .release w (.setFree i)) :
      CallMove s p { s.setCall p (.release w (.clearActive i 0)) with
        pool := (release_slot s.pool w (.setFree i)).1 }
  | cleanUp {w i k} (hCall : s.calls p = .release w (.clearActive i k)) :
      CallMove s p { s.setCall p (.release w (if k = 0 then .clearActive i 1 else .returned)) with
        pool := (release_slot s.pool w (.clearActive i k)).1 }

/-- What a step of a connection thread can be. -/
theorem call_move_of_rpc {b : Bool} (hStep : rpcStep s p b = some s') : CallMove s p s' := by
  unfold rpcStep at hStep
  split at hStep
  next => simp at hStep
  next w pc hCall =>
    cases pc with
    | loadFree k m =>
        obtain rfl := Option.some.inj hStep
        exact .search hCall (.inl ⟨k, m, rfl⟩)
    | casWord i x =>
        obtain rfl := Option.some.inj hStep
        exact .search hCall (.inr ⟨i, x, rfl⟩)
    | storeOwner i =>
        obtain rfl := Option.some.inj hStep
        exact .own hCall
    | scrubReady i k =>
        obtain rfl := Option.some.inj hStep
        exact .scrubReady hCall
    | scrubEvicted i k =>
        obtain rfl := Option.some.inj hStep
        exact .scrubEvicted hCall
    | returned i => simp at hStep
    | threw => simp at hStep
  next w pc hCall =>
    cases pc with
    | casOwner i =>
        simp only at hStep
        split at hStep
        next hOwner =>
          obtain rfl := Option.some.inj hStep
          have hNext : (release_slot s.pool w (.casOwner i)).2 = .setFree i := by
            simp [release_slot, hOwner]
          rw [hNext]
          exact .giveUp hCall hOwner
        next hOwner =>
          obtain rfl := Option.some.inj hStep
          have hNext : release_slot s.pool w (.casOwner i) = (s.pool, .threw) := by
            simp [release_slot, hOwner]
          rw [hNext]
          exact .refuse hCall hOwner
    | setFree i =>
        obtain rfl := Option.some.inj hStep
        exact .free hCall
    | clearActive i k =>
        obtain rfl := Option.some.inj hStep
        exact .cleanUp hCall
    | returned => simp at hStep
    | threw => simp at hStep

/-- The steps of the main loop that change nothing but its position and the mask
it has loaded last. -/
inductive Tick (s : State) (timer : Bool) : AggregatorPc → AggregatorPc → SlotMask → Prop where
  | stop (hQuit : s.ctrl.quit_flag = true) : Tick s timer .top .stopped s.agg.seen
  | start (hQuit : s.ctrl.quit_flag = false) : Tick s timer .top (.loadLeaves 0) s.agg.seen
  | loadLeaves : Tick s timer (.loadLeaves 0) (.loadLeaves 1)
      (s.agg.load 0 s.ctrl.pending_slot_leaves)
  | noLeaves (hZero : (s.agg.load 1 s.ctrl.pending_slot_leaves).is_zero = true) :
      Tick s timer (.loadLeaves 1) (.loadJoins 0) (s.agg.load 1 s.ctrl.pending_slot_leaves)
  | someLeaves : Tick s timer (.loadLeaves 1) (.exchangeLeaves 0)
      (s.agg.load 1 s.ctrl.pending_slot_leaves)
  | loadJoins : Tick s timer (.loadJoins 0) (.loadJoins 1)
      (s.agg.load 0 s.ctrl.pending_slot_joins)
  | someJoins : Tick s timer (.loadJoins 1) (.exchangeJoins 0)
      (s.agg.load 1 s.ctrl.pending_slot_joins)
  | loadReady : Tick s timer (.loadReady 0) (.loadReady 1)
      (s.agg.load 0 s.ctrl.per_slot_ready_mask)
  | allReady (hZero : (s.agg.active_mask &&&
        ~~~s.agg.load 1 s.ctrl.per_slot_ready_mask).is_zero = true) :
      Tick s timer (.loadReady 1) .fetch (s.agg.load 1 s.ctrl.per_slot_ready_mask)
  | notReady (hZero : (s.agg.active_mask &&&
        ~~~s.agg.load 1 s.ctrl.per_slot_ready_mask).is_zero = false) :
      Tick s timer (.loadReady 1) .decide (s.agg.load 1 s.ctrl.per_slot_ready_mask)
  | checkLeaves (hQuit : s.ctrl.quit_flag = false) :
      Tick s timer .decide (.loadMidLeaves 0) s.agg.seen
  | skipLeaves (hQuit : s.ctrl.quit_flag = false) : Tick s timer .decide .evictCheck s.agg.seen
  | loadMidLeaves : Tick s timer (.loadMidLeaves 0) (.loadMidLeaves 1)
      (s.agg.load 0 s.ctrl.pending_slot_leaves)
  | noMidLeaves (hZero : (s.agg.load 1 s.ctrl.pending_slot_leaves &&&
        s.agg.active_mask).is_zero = true) :
      Tick s timer (.loadMidLeaves 1) .evictCheck (s.agg.load 1 s.ctrl.pending_slot_leaves)
  | patient : Tick s timer .evictCheck (.loadReady 0) s.agg.seen
  | impatient (hTimer : timer = true) : Tick s timer .evictCheck (.loadStuck 0) s.agg.seen
  | loadStuck : Tick s timer (.loadStuck 0) (.loadStuck 1)
      (s.agg.load 0 s.ctrl.per_slot_ready_mask)
  | noneStuck : Tick s timer (.loadStuck 1) (.loadReady 0)
      (s.agg.load 1 s.ctrl.per_slot_ready_mask)
  | allEvicted (hEmpty : s.agg.N = 0) : Tick s timer .signalEvicted .top s.agg.seen
  | someEvicted (hSome : s.agg.N ≠ 0) : Tick s timer .signalEvicted (.loadReady 0) s.agg.seen
  | fetchQuit (hQuit : s.ctrl.quit_flag = true) : Tick s timer .fetch .top s.agg.seen
  | found (hReady : (s.ring.entries s.agg.tail).ready = true)
      (hQuit : s.ctrl.quit_flag = false) : Tick s timer .spin .take s.agg.seen
  | spinQuit (hQuit : s.ctrl.quit_flag = true) : Tick s timer .spin .storeTail s.agg.seen
  | loadActive : Tick s timer (.loadActive 0) (.loadActive 1)
      (s.agg.load 0 s.ctrl.active_slot_mask)
  | loadedActive : Tick s timer (.loadActive 1) (.clearReady 0)
      (s.agg.load 1 s.ctrl.active_slot_mask)

namespace AggregatorState

/-- The locals when a drain begins. -/
def beginDrain (a : AggregatorState) (r : CommandRing Submission) : AggregatorState :=
  { a with commands := [], tickets := [], tail := r.tail, drained := 0, horizon := r.log.length }

/-- The locals after the entry at the tail has been taken off the ring. -/
def takeEntry (a : AggregatorState) (r : CommandRing Submission) : AggregatorState :=
  let entry := r.entries a.tail
  let keep := a.active_mask.test_bit entry.command.slot_id
  { a with
    commands := if keep then a.commands ++ [a.tail] else a.commands
    tickets := if keep then a.tickets ++ [entry.ticket] else a.tickets
    tail := (a.tail + 1) % r.capacity
    drained := a.drained + 1
    taken := a.taken + 1 }

end AggregatorState

/-- Behind a command the drain spins for the next one or stores the tail. -/
theorem drainNext_cases (a : AggregatorState) : a.drainNext = .spin ∨ a.drainNext = .storeTail := by
  unfold AggregatorState.drainNext
  split
  · exact .inl rfl
  · exact .inr rfl

/-- The next round of the same token, or the boundary. -/
theorem nextOp_cases (a : AggregatorState) (c : Config) :
    (a.op_idx + 1 < c.ops_per_token ∧
      a.nextOp c = { a with pc := .loadReady 0, op_idx := a.op_idx + 1 }) ∨
    (c.ops_per_token ≤ a.op_idx + 1 ∧ a.nextOp c = { a with pc := .top }) := by
  unfold AggregatorState.nextOp
  split
  next h => exact .inl ⟨h, rfl⟩
  next h => exact .inr ⟨by omega, rfl⟩

/-- After an operation comes the next one, or the end of the token. -/
theorem nextOp_pc (a : AggregatorState) (c : Config) :
    (a.nextOp c).pc = .loadReady 0 ∨ (a.nextOp c).pc = .top := by
  rcases nextOp_cases a c with ⟨-, hSame⟩ | ⟨-, hSame⟩ <;> rw [hSame]
  · exact .inl rfl
  · exact .inr rfl

section NextOp

variable (a : AggregatorState) (c : Config)

@[simp] theorem nextOp_active_mask : (a.nextOp c).active_mask = a.active_mask := by
  rcases nextOp_cases a c with ⟨-, hSame⟩ | ⟨-, hSame⟩ <;> rw [hSame]

@[simp] theorem nextOp_joins : (a.nextOp c).joins = a.joins := by
  rcases nextOp_cases a c with ⟨-, hSame⟩ | ⟨-, hSame⟩ <;> rw [hSame]

@[simp] theorem nextOp_leaves : (a.nextOp c).leaves = a.leaves := by
  rcases nextOp_cases a c with ⟨-, hSame⟩ | ⟨-, hSame⟩ <;> rw [hSame]

@[simp] theorem nextOp_taken : (a.nextOp c).taken = a.taken := by
  rcases nextOp_cases a c with ⟨-, hSame⟩ | ⟨-, hSame⟩ <;> rw [hSame]

@[simp] theorem nextOp_finished : (a.nextOp c).finished = a.finished := by
  rcases nextOp_cases a c with ⟨-, hSame⟩ | ⟨-, hSame⟩ <;> rw [hSame]

end NextOp

/-- The steps of the main loop, each with what its position allows and what it changes. Masks are
read and written word by word, so that others can move between the two words. -/
inductive AggregateMove (c : Config) (s : State) (timer : Bool) (sample : Slot → Nat) :
    State → Prop where
  | tick {pc seen} (hTick : Tick s timer s.agg.pc pc seen) :
      AggregateMove c s timer sample { s with agg := { s.agg with pc, seen } }
  | exchangeLeaves (hPc : s.agg.pc = .exchangeLeaves 0) :
      AggregateMove c s timer sample { s with
        agg := { s.agg with
          leaves := s.agg.leaves.copyWord 0 s.ctrl.pending_slot_leaves, pc := .exchangeLeaves 1 }
        ctrl := { s.ctrl with
          pending_slot_leaves := s.ctrl.pending_slot_leaves.copyWord 0 .zero } }
  | applyLeaves (hPc : s.agg.pc = .exchangeLeaves 1) :
      AggregateMove c s timer sample { s with
        agg := { s.agg with
          leaves := .zero, pc := .loadJoins 0
          active_mask := s.agg.active_mask &&&
            ~~~s.agg.leaves.copyWord 1 s.ctrl.pending_slot_leaves }
        ctrl := { s.ctrl with
          pending_slot_leaves := s.ctrl.pending_slot_leaves.copyWord 1 .zero } }
  | noJoins (hPc : s.agg.pc = .loadJoins 1) :
      AggregateMove c s timer sample { s with
        agg := { s.agg with
          seen := s.agg.load 1 s.ctrl.pending_slot_joins, pc := .storeActive 0
          N := s.agg.active_mask.popcount } }
  | exchangeJoins (hPc : s.agg.pc = .exchangeJoins 0) :
      AggregateMove c s timer sample { s with
        agg := { s.agg with
          joins := s.agg.joins.copyWord 0 s.ctrl.pending_slot_joins, pc := .exchangeJoins 1 }
        ctrl := { s.ctrl with
          pending_slot_joins := s.ctrl.pending_slot_joins.copyWord 0 .zero } }
  | applyJoins {joins} (hPc : s.agg.pc = .exchangeJoins 1)
      (hJoins : joins = s.agg.joins.copyWord 1 s.ctrl.pending_slot_joins) :
      AggregateMove c s timer sample { s with
        agg := { s.agg with
          joins := .zero, active_mask := s.agg.active_mask ||| joins
          N := (s.agg.active_mask ||| joins).popcount, pc := .storeActive 0 }
        ctrl := { s.ctrl with
          pending_slot_joins := s.ctrl.pending_slot_joins.copyWord 1 .zero }
        processedTag := fun i => if joins.test_bit i then s.joinTag i else s.processedTag i }
  | storeActive (hPc : s.agg.pc = .storeActive 0) :
      AggregateMove c s timer sample { s with
        agg := { s.agg with pc := .storeActive 1 }
        ctrl := { s.ctrl with
          active_slot_mask := s.ctrl.active_slot_mask.copyWord 0 s.agg.active_mask } }
  | storedNone (hPc : s.agg.pc = .storeActive 1) (hEmpty : s.agg.N = 0) :
      AggregateMove c s timer sample { s with
        agg := { s.agg with pc := .top }
        ctrl := { s.ctrl with
          active_slot_mask := s.ctrl.active_slot_mask.copyWord 1 s.agg.active_mask } }
  | storedActive (hPc : s.agg.pc = .storeActive 1) (hSome : s.agg.N ≠ 0) :
      AggregateMove c s timer sample { s with
        agg := { s.agg with pc := .loadReady 0, op_idx := 0, breaking := false }
        ctrl := { s.ctrl with
          active_slot_mask := s.ctrl.active_slot_mask.copyWord 1 s.agg.active_mask } }
  | decideQuit (hPc : s.agg.pc = .decide) (hQuit : s.ctrl.quit_flag = true) :
      AggregateMove c s timer sample { s with
        agg := { s.agg with pc := .loadActive 0, breaking := true } }
  | midLeaves {leaving} (hPc : s.agg.pc = .loadMidLeaves 1)
      (hLeaving : leaving = s.agg.load 1 s.ctrl.pending_slot_leaves &&& s.agg.active_mask) :
      AggregateMove c s timer sample { s with
        agg := { s.agg with
          seen := s.agg.load 1 s.ctrl.pending_slot_leaves
          active_mask := s.agg.active_mask &&& ~~~leaving
          stuck := leaving, N := (s.agg.active_mask &&& ~~~leaving).popcount
          pc := .clearMidLeaves 0 } }
  | clearMidLeaves {k} (hPc : s.agg.pc = .clearMidLeaves k) :
      AggregateMove c s timer sample { s with
        agg := { s.agg with pc := if k = 0 then .clearMidLeaves 1 else .storeMidLeaves 0 }
        ctrl := { s.ctrl with
          pending_slot_leaves := s.ctrl.pending_slot_leaves.andWord k (~~~s.agg.stuck) } }
  | storeMidLeaves {k} (hPc : s.agg.pc = .storeMidLeaves k) :
      AggregateMove c s timer sample { s with
        agg := { s.agg with
          pc := if k = 0 then .storeMidLeaves 1 else if s.agg.N = 0 then .top else .evictCheck }
        ctrl := { s.ctrl with
          active_slot_mask := s.ctrl.active_slot_mask.copyWord k s.agg.active_mask } }
  | evict {stuck} (hPc : s.agg.pc = .loadStuck 1)
      (hStuck : stuck = s.agg.active_mask &&& ~~~s.agg.load 1 s.ctrl.per_slot_ready_mask) :
      AggregateMove c s timer sample { s with
        agg := { s.agg with
          seen := s.agg.load 1 s.ctrl.per_slot_ready_mask, stuck
          active_mask := s.agg.active_mask &&& ~~~stuck
          N := (s.agg.active_mask &&& ~~~stuck).popcount, pc := .storeEvicted 0 }
        workers := fun p =>
          if (s.workers p).pc.generating && (s.workers p).pc.slot.any stuck.test_bit then
            { s.workers p with evicted := true }
          else s.workers p }
  | storeEvicted {k} (hPc : s.agg.pc = .storeEvicted k) :
      AggregateMove c s timer sample { s with
        agg := { s.agg with pc := if k = 0 then .storeEvicted 1 else .signalEvicted }
        ctrl := { s.ctrl with
          active_slot_mask := s.ctrl.active_slot_mask.copyWord k s.agg.active_mask } }
  | signalEvicted {i} (hPc : s.agg.pc = .signalEvicted) (hFirst : s.agg.stuck.find_first = some i) :
      AggregateMove c s timer sample { s with
        agg := { s.agg with pc := .signalEvicted, stuck := s.agg.stuck.clear_bit i }
        ctrl := { s.ctrl with evicted_slot_mask := s.ctrl.evicted_slot_mask.set_bit i } }
  | fetch (hPc : s.agg.pc = .fetch) (hQuit : s.ctrl.quit_flag = false) :
      AggregateMove c s timer sample { s with
        agg := { s.agg.beginDrain s.ring with pc := (s.agg.beginDrain s.ring).drainNext } }
  | spinTimeout (hPc : s.agg.pc = .spin) (hTimer : timer = true)
      (hEntry : (s.ring.entries s.agg.tail).ready = false) :
      AggregateMove c s timer sample { s with
        agg := { s.agg with pc := .storeTail }
        ctrl := { s.ctrl with quit_flag := true } }
  | take (hPc : s.agg.pc = .take) :
      AggregateMove c s timer sample { s with
        ring := s.ring.clearReady s.agg.tail
        agg := { s.agg.takeEntry s.ring with pc := (s.agg.takeEntry s.ring).drainNext } }
  | batched (hPc : s.agg.pc = .storeTail) (hQuit : s.ctrl.quit_flag = false)
      (hSome : s.agg.commands ≠ []) :
      AggregateMove c s timer sample { s with
        ring := { s.ring with tail := s.agg.tail }, agg := { s.agg with pc := .execute } }
  | droppedQuit (hPc : s.agg.pc = .storeTail) (hQuit : s.ctrl.quit_flag = true) :
      AggregateMove c s timer sample { s with
        ring := { s.ring with tail := s.agg.tail }
        agg := { s.agg with pc := .loadActive 0, finished := s.agg.taken } }
  | droppedEmpty (hPc : s.agg.pc = .storeTail) (hQuit : s.ctrl.quit_flag = false)
      (hNone : s.agg.commands = []) :
      AggregateMove c s timer sample { s with
        ring := { s.ring with tail := s.agg.tail }
        agg := { s.agg with finished := s.agg.taken }.nextOp c }
  | execute (hPc : s.agg.pc = .execute) (hPasses : s.batchPasses c = true) :
      AggregateMove c s timer sample { s with
        agg := { s.agg with pc := .loadActive 0, finished := s.agg.taken }
        output := s.computed sample }
  | throw (hPc : s.agg.pc = .execute) (hPasses : s.batchPasses c = false) :
      AggregateMove c s timer sample { s with agg := { s.agg with pc := .threw } }
  | clearReady {k} (hPc : s.agg.pc = .clearReady k) :
      AggregateMove c s timer sample { s with
        agg := { s.agg with pc := if k = 0 then .clearReady 1 else .advanceEpoch }
        ctrl := { s.ctrl with
          per_slot_ready_mask := s.ctrl.per_slot_ready_mask.andWord k (~~~s.agg.seen) } }
  | advanceBreaking (hPc : s.agg.pc = .advanceEpoch) (hBreaking : s.agg.breaking = true) :
      AggregateMove c s timer sample { s with
        agg := { s.agg with commands := [], tickets := [], pc := .top }
        ctrl := { s.ctrl with barrier_done_epoch := s.ctrl.barrier_done_epoch + 1 } }
  | advanceEpoch (hPc : s.agg.pc = .advanceEpoch) (hBreaking : s.agg.breaking = false) :
      AggregateMove c s timer sample { s with
        agg := { s.agg with commands := [], tickets := [] }.nextOp c
        ctrl := { s.ctrl with barrier_done_epoch := s.ctrl.barrier_done_epoch + 1 } }

section AggregateMove

variable {timer : Bool} {sample : Slot → Nat}

/-- A step that only looks at a mask. -/
theorem AggregateMove.ofTick {pc pc' : AggregatorPc} {seen : SlotMask} (hPc : s.agg.pc = pc)
    (hTick : Tick s timer pc pc' seen) :
    AggregateMove c s timer sample { s with agg := { s.agg with pc := pc', seen } } :=
  .tick (hPc ▸ hTick)

/-- The masks have two words. -/
theorem word_cases : ∀ k : Fin 2, k = 0 ∨ k = 1 := by decide

section Positions

variable {k : Fin 2}

/-- Leaves are looked at, one word after the other. -/
theorem aggregate_move_of_loadLeaves (hPc : s.agg.pc = .loadLeaves k)
    (hStep : aggregateStep c s timer sample = some s') : AggregateMove c s timer sample s' := by
  simp only [aggregateStep, hPc, Option.some.injEq] at hStep
  subst hStep
  rcases word_cases k with rfl | rfl
  · exact .ofTick hPc .loadLeaves
  · simp only [Fin.isValue, Fin.reduceEq, if_false]
    split
    next hZero => exact .ofTick hPc (.noLeaves hZero)
    next => exact .ofTick hPc .someLeaves

/-- Joins are looked at. -/
theorem aggregate_move_of_loadJoins (hPc : s.agg.pc = .loadJoins k)
    (hStep : aggregateStep c s timer sample = some s') : AggregateMove c s timer sample s' := by
  simp only [aggregateStep, hPc, Option.some.injEq] at hStep
  subst hStep
  rcases word_cases k with rfl | rfl
  · exact .ofTick hPc .loadJoins
  · simp only [Fin.isValue, Fin.reduceEq, if_false]
    split
    next => exact .noJoins hPc
    next => exact .ofTick hPc .someJoins

/-- The active set is shown to the workers. -/
theorem aggregate_move_of_storeActive (hPc : s.agg.pc = .storeActive k)
    (hStep : aggregateStep c s timer sample = some s') : AggregateMove c s timer sample s' := by
  simp only [aggregateStep, hPc, Option.some.injEq] at hStep
  subst hStep
  rcases word_cases k with rfl | rfl
  · exact .storeActive hPc
  · simp only [Fin.isValue, Fin.reduceEq, if_false]
    split
    next hEmpty => exact .storedNone hPc hEmpty
    next hSome => exact .storedActive hPc hSome

/-- Ready bits are looked at. -/
theorem aggregate_move_of_loadReady (hPc : s.agg.pc = .loadReady k)
    (hStep : aggregateStep c s timer sample = some s') : AggregateMove c s timer sample s' := by
  simp only [aggregateStep, hPc, Option.some.injEq] at hStep
  subst hStep
  rcases word_cases k with rfl | rfl
  · exact .ofTick hPc .loadReady
  · simp only [Fin.isValue, Fin.reduceEq, if_false]
    split
    next hZero => exact .ofTick hPc (.allReady hZero)
    next hZero => exact .ofTick hPc (.notReady (by simpa using hZero))

/-- The decision to drain, to wait or to evict. -/
theorem aggregate_move_of_decide (hPc : s.agg.pc = .decide)
    (hStep : aggregateStep c s timer sample = some s') : AggregateMove c s timer sample s' := by
  simp only [aggregateStep, hPc, Option.some.injEq] at hStep
  subst hStep
  split
  next hQuit => exact .decideQuit hPc hQuit
  next hQuit =>
    split
    next => exact .ofTick hPc (.checkLeaves (by simpa using hQuit))
    next => exact .ofTick hPc (.skipLeaves (by simpa using hQuit))

/-- Leaves are looked at in mid-operation. -/
theorem aggregate_move_of_loadMidLeaves (hPc : s.agg.pc = .loadMidLeaves k)
    (hStep : aggregateStep c s timer sample = some s') : AggregateMove c s timer sample s' := by
  simp only [aggregateStep, hPc, Option.some.injEq] at hStep
  subst hStep
  rcases word_cases k with rfl | rfl
  · exact .ofTick hPc .loadMidLeaves
  · simp only [Fin.isValue, Fin.reduceEq, if_false]
    split
    next hZero => exact .ofTick hPc (.noMidLeaves hZero)
    next => exact .midLeaves hPc rfl

/-- Ready bits are looked at for the last time before the timeout. -/
theorem aggregate_move_of_loadStuck (hPc : s.agg.pc = .loadStuck k)
    (hStep : aggregateStep c s timer sample = some s') : AggregateMove c s timer sample s' := by
  simp only [aggregateStep, hPc] at hStep
  rcases word_cases k with rfl | rfl
  · obtain rfl := Option.some.inj hStep
    exact .ofTick hPc .loadStuck
  · simp only [Fin.isValue, Fin.reduceEq, if_false] at hStep
    split at hStep <;> obtain rfl := Option.some.inj hStep
    next => exact .ofTick hPc .noneStuck
    next => exact .evict hPc rfl

/-- The eviction bits are set. -/
theorem aggregate_move_of_signalEvicted (hPc : s.agg.pc = .signalEvicted)
    (hStep : aggregateStep c s timer sample = some s') : AggregateMove c s timer sample s' := by
  simp only [aggregateStep, hPc] at hStep
  split at hStep <;> obtain rfl := Option.some.inj hStep
  next i hFirst => exact .signalEvicted hPc hFirst
  next =>
    split
    next hEmpty => exact .ofTick hPc (.allEvicted hEmpty)
    next hSome => exact .ofTick hPc (.someEvicted hSome)

/-- The drain spins on an entry that is not ready. -/
theorem aggregate_move_of_spin (hPc : s.agg.pc = .spin)
    (hStep : aggregateStep c s timer sample = some s') : AggregateMove c s timer sample s' := by
  simp only [aggregateStep, hPc] at hStep
  split at hStep
  next hReady =>
    obtain rfl := Option.some.inj hStep
    split
    next hQuit => exact .ofTick hPc (.spinQuit hQuit)
    next hQuit => exact .ofTick hPc (.found hReady (by simpa using hQuit))
  next hEntry =>
    split at hStep
    next hQuit =>
      obtain rfl := Option.some.inj hStep
      exact .ofTick hPc (.spinQuit hQuit)
    next =>
      split at hStep
      next hTimer =>
        obtain rfl := Option.some.inj hStep
        exact .spinTimeout hPc hTimer (by simpa using hEntry)
      next => simp at hStep

/-- The tail is stored, and the batch is what has been taken. -/
theorem aggregate_move_of_storeTail (hPc : s.agg.pc = .storeTail)
    (hStep : aggregateStep c s timer sample = some s') : AggregateMove c s timer sample s' := by
  simp only [aggregateStep, hPc, Option.some.injEq] at hStep
  subst hStep
  cases hQuit : s.ctrl.quit_flag with
  | true => simpa using AggregateMove.droppedQuit hPc hQuit
  | false =>
      by_cases hNone : s.agg.commands = []
      · rw [if_neg (by simp [hNone]), if_neg (by simp)]
        exact .droppedEmpty hPc hQuit hNone
      · simpa [hNone] using AggregateMove.batched hPc hQuit hNone

end Positions

/-- Every step of the main loop is one of its moves. -/
theorem aggregate_move_of_step (hStep : aggregateStep c s timer sample = some s') :
    AggregateMove c s timer sample s' := by
  cases hPc : s.agg.pc with
  | top =>
      simp only [aggregateStep, hPc, Option.some.injEq] at hStep
      subst hStep
      split
      next hQuit => exact .ofTick hPc (.stop hQuit)
      next hQuit => exact .ofTick hPc (.start (by simpa using hQuit))
  | loadLeaves k => exact aggregate_move_of_loadLeaves hPc hStep
  | exchangeLeaves k =>
      simp only [aggregateStep, hPc, Option.some.injEq] at hStep
      subst hStep
      rcases word_cases k with rfl | rfl
      · exact .exchangeLeaves hPc
      · exact .applyLeaves hPc
  | loadJoins k => exact aggregate_move_of_loadJoins hPc hStep
  | exchangeJoins k =>
      simp only [aggregateStep, hPc, Option.some.injEq] at hStep
      subst hStep
      rcases word_cases k with rfl | rfl
      · simpa using AggregateMove.exchangeJoins hPc
      · simpa using AggregateMove.applyJoins hPc rfl
  | storeActive k => exact aggregate_move_of_storeActive hPc hStep
  | loadReady k => exact aggregate_move_of_loadReady hPc hStep
  | decide => exact aggregate_move_of_decide hPc hStep
  | loadMidLeaves k => exact aggregate_move_of_loadMidLeaves hPc hStep
  | clearMidLeaves k =>
      simp only [aggregateStep, hPc, Option.some.injEq] at hStep
      subst hStep
      exact .clearMidLeaves hPc
  | storeMidLeaves k =>
      simp only [aggregateStep, hPc, Option.some.injEq] at hStep
      subst hStep
      exact .storeMidLeaves hPc
  | evictCheck =>
      simp only [aggregateStep, hPc, Option.some.injEq] at hStep
      subst hStep
      split
      next hTimer => exact .ofTick hPc (.impatient hTimer)
      next => exact .ofTick hPc .patient
  | loadStuck k => exact aggregate_move_of_loadStuck hPc hStep
  | storeEvicted k =>
      simp only [aggregateStep, hPc, Option.some.injEq] at hStep
      subst hStep
      exact .storeEvicted hPc
  | signalEvicted => exact aggregate_move_of_signalEvicted hPc hStep
  | fetch =>
      simp only [aggregateStep, hPc] at hStep
      split at hStep <;> obtain rfl := Option.some.inj hStep
      next hQuit => exact .ofTick hPc (.fetchQuit hQuit)
      next hQuit => exact .fetch hPc (by simpa using hQuit)
  | spin => exact aggregate_move_of_spin hPc hStep
  | take =>
      simp only [aggregateStep, hPc, Option.some.injEq] at hStep
      subst hStep
      exact .take hPc
  | storeTail => exact aggregate_move_of_storeTail hPc hStep
  | execute =>
      simp only [aggregateStep, hPc] at hStep
      split at hStep <;> obtain rfl := Option.some.inj hStep
      next hPasses => exact .execute hPc hPasses
      next hPasses => exact .throw hPc (by simpa using hPasses)
  | loadActive k =>
      simp only [aggregateStep, hPc, Option.some.injEq] at hStep
      subst hStep
      rcases word_cases k with rfl | rfl
      · exact .ofTick hPc .loadActive
      · exact .ofTick hPc .loadedActive
  | clearReady k =>
      simp only [aggregateStep, hPc, Option.some.injEq] at hStep
      subst hStep
      exact .clearReady hPc
  | advanceEpoch =>
      simp only [aggregateStep, hPc, Option.some.injEq] at hStep
      subst hStep
      split
      next hBreaking => exact .advanceBreaking hPc hBreaking
      next hBreaking => exact .advanceEpoch hPc (by simpa using hBreaking)
  | stopped => simp [aggregateStep, hPc] at hStep
  | threw => simp [aggregateStep, hPc] at hStep

/-- What no step of the main loop touches. Of a worker it may change that its request has been
evicted, and nothing else. -/
structure AggregateFrame (s s' : State) : Prop where
  pool : s'.pool = s.pool
  calls : s'.calls = s.calls
  workers : ∀ p, ∃ evicted, s'.workers p = { s.workers p with evicted }
  input : s'.input = s.input
  log : s'.ring.log = s.ring.log
  capacity : s'.ring.capacity = s.ring.capacity
  tenancy : s'.tenancy = s.tenancy
  joinTag : s'.joinTag = s.joinTag
  leaveTag : s'.leaveTag = s.leaveTag
  completions : s'.completions = s.completions

/-- What every step of the main loop leaves alone. -/
theorem AggregateMove.frame (hMove : AggregateMove c s timer sample s') : AggregateFrame s s' := by
  cases hMove with
  | evict hPc hStuck =>
      refine ⟨rfl, rfl, fun p => ?_, rfl, rfl, rfl, rfl, rfl, rfl, rfl⟩
      dsimp only
      split <;> exact ⟨_, rfl⟩
  | _ => exact ⟨rfl, rfl, fun _ => ⟨_, rfl⟩, rfl, rfl, rfl, rfl, rfl, rfl, rfl⟩

/-- A step of the main loop moves no worker. -/
theorem AggregateMove.worker_pc (hMove : AggregateMove c s timer sample s') (q : Nat) :
    (s'.workers q).pc = (s.workers q).pc := by
  obtain ⟨_, hq⟩ := hMove.frame.workers q
  rw [hq]

end AggregateMove

/-- The steps of the machine, by the party that moves: a worker, the thread that serves it, the main
loop, or the world outside with its requests and crashes. -/
inductive Move (c : Config) (s : State) : Label → State → Prop where
  | request {p : Nat} {max_tokens prefill_chunks : Nat} {worker : Worker} (hPc : (s.workers p).pc = .idle)
      (hLive : (s.workers p).crashed = false)
      (hWorker : worker = { s.workers p with
        pc := .claiming, max_tokens, prefill_chunks, generated_tokens := [], evicted := false }) :
      Move c s (.request p max_tokens prefill_chunks)
        { s.setCall p (.claim p (.loadFree 0 {})) with
          workers := Function.update s.workers p worker }
  | worker {l : Label} {p : Nat} {s' : State} (hLive : (s.workers p).crashed = false) (hMove : WorkerMove c s p l s') :
      Move c s l s'
  | call {p : Nat} {b : Bool} {s' : State} (hMove : CallMove s p s') : Move c s (.rpc p b) s'
  | crash {p : Nat} (hLive : (s.workers p).crashed = false) :
      Move c s (.crash p)
        { s with workers := Function.update s.workers p { s.workers p with crashed := true } }
  | disconnect {p : Nat} {i : Slot} (hCrashed : (s.workers p).crashed = true)
      (hScanning : (s.workers p).handler = .scanning) (hOver : callOver (s.calls p) = true)
      (hOwner : s.pool.owner_worker_id i = (p : Int)) :
      Move c s (.disconnect p i) { (s.signalLeave i).setCall p .idle with
        workers := Function.update s.workers p { s.workers p with handler := .sleeping i } }
  | deferredRelease {p : Nat} {i : Slot} (hSleeping : (s.workers p).handler = .sleeping i) :
      Move c s (.deferredRelease p)
        { s.setCall p (.release p (release_slot_entry s.pool i)) with
          workers := Function.update s.workers p { s.workers p with handler := .done } }
  | aggregate {timer : Bool} {sample : Slot → Nat} {s' : State} (hMove : AggregateMove c s timer sample s') :
      Move c s (.aggregate timer sample) s'

/-- What a step can be, whoever makes it. -/
theorem move_of_step {l : Label} (hStep : step c s l = some s') : Move c s l s' := by
  cases l with
  | request p max_tokens prefill_chunks =>
      simp only [step, Option.ite_none_right_eq_some, Option.some.injEq] at hStep
      obtain ⟨⟨hPc, hLive⟩, rfl⟩ := hStep
      exact .request hPc hLive rfl
  | work p v b =>
      simp only [step, Option.ite_none_left_eq_some] at hStep
      exact .worker (by simpa using hStep.1) (worker_move_of_work hStep.2)
  | timeout p =>
      simp only [step, Option.ite_none_left_eq_some] at hStep
      exact .worker (by simpa using hStep.1) (worker_move_of_timeout hStep.2)
  | fail p =>
      simp only [step, Option.ite_none_left_eq_some] at hStep
      exact .worker (by simpa using hStep.1) (worker_move_of_fail hStep.2)
  | rpc p b => exact .call (call_move_of_rpc hStep)
  | crash p =>
      simp only [step, Option.ite_none_left_eq_some, Option.some.injEq] at hStep
      obtain ⟨hLive, rfl⟩ := hStep
      exact .crash (by simpa using hLive)
  | disconnect p i =>
      simp only [step, Option.ite_none_right_eq_some, Option.some.injEq] at hStep
      obtain ⟨⟨hCrashed, hScanning, hOver, hOwner⟩, rfl⟩ := hStep
      exact .disconnect hCrashed hScanning hOver hOwner
  | deferredRelease p =>
      simp only [step] at hStep
      split at hStep
      next i hSleeping =>
        obtain rfl := Option.some.inj hStep
        exact .deferredRelease hSleeping
      next => simp at hStep
  | aggregate timer sample => exact .aggregate (aggregate_move_of_step hStep)

end Barrier
