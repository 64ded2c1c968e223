import Mathlib.Tactic.Simps.Basic
import SwarmLoRA.Machine.System
import SwarmLoRA.Barrier.State

namespace Barrier

open Ipc Aggregator Machine

namespace State

@[simps pool ctrl ring calls agg input output tenancy joinTag leaveTag processedTag completions]
def setPc (s : State) (p : Nat) (pc : WorkerPc) : State :=
  { s with workers := Function.update s.workers p { s.workers p with pc } }

@[simps]
def setCall (s : State) (p : Nat) (call : Call) : State :=
  { s with calls := Function.update s.calls p call }

/-- Set the leave bit on behalf of the slot's owner. -/
def signalLeave (s : State) (i : Slot) : State :=
  { s with
    ctrl := s.ctrl.slot_signal_leave i
    leaveTag := Function.update s.leaveTag i (s.tenancy i) }

end State

/-- `_handle_completions`: the request has all its tokens or ended with the
end-of-sequence token. -/
def completes (c : Config) (w : Worker) : Bool :=
  decide (w.max_tokens ≤ w.generated_tokens.length) ||
  match c.eos_token_id, w.generated_tokens.getLast? with
  | some eos, some token => token.token_id == eos
  | _, _ => false

/-- `lm_head_get_all`: a token sampled after an intermediate chunk is discarded. -/
def takeToken (w : Worker) (token : Token) : Worker :=
  if 0 < w.prefill_chunks then { w with prefill_chunks := w.prefill_chunks - 1 }
  else { w with generated_tokens := w.generated_tokens ++ [token] }

@[simp] theorem takeToken_crashed (w : Worker) (token : Token) :
    (takeToken w token).crashed = w.crashed := by
  unfold takeToken
  split <;> rfl

@[simp] theorem takeToken_evicted (w : Worker) (token : Token) :
    (takeToken w token).evicted = w.evicted := by
  unfold takeToken
  split <;> rfl

@[simp] theorem takeToken_handler (w : Worker) (token : Token) :
    (takeToken w token).handler = w.handler := by
  unfold takeToken
  split <;> rfl

/-- Where the worker stands after a step of `submit_slot_command`. A full ring raises
and so fails the request. -/
def WorkerPc.submitted (i : Slot) (op_idx epoch input : Nat) : SubmitPc → WorkerPc
  | .returned => .op i op_idx (.signal epoch input)
  | .full => .leave i false
  | pc => .op i op_idx (.submit epoch input pc)

/-- One operation of `_generate_one_token_all`: capture the epoch, write the input
buffer, submit the command, signal ready, wait for the epoch, read the output. The
wait raises when the quit flag is set. -/
def opStep (c : Config) (s : State) (p input : Nat) (spurious : Bool) (i : Slot) (op_idx : Nat) :
    Stage → Option State
  | .capture => some (s.setPc p (.op i op_idx (.prepare s.ctrl.barrier_done_epoch)))
  | .prepare epoch =>
      some { s.setPc p (.op i op_idx (.submit epoch input .loadHead)) with
        input := Function.update s.input i input }
  | .submit epoch input pc =>
      let next := s.ring.submit Submission.layout (c.submission op_idx i p epoch) spurious pc
      some { s.setPc p (.submitted i op_idx epoch input next.2) with ring := next.1 }
  | .signal epoch input =>
      some { s.setPc p (.op i op_idx (.wait epoch input)) with
        ctrl := s.ctrl.slot_signal_ready i }
  | .wait epoch input =>
      if epoch < s.ctrl.barrier_done_epoch then
        some (s.setPc p (.op i op_idx (.fetch epoch input)))
      else if s.ctrl.quit_flag then some (s.setPc p (.leave i false))
      else none
  | .fetch epoch _ =>
      if op_idx + 1 = c.ops_per_token then
        let output := s.output i
        let token : Token :=
          ⟨output.token_id, decide (output.round = epoch ∧ output.op_type = OP_LM_HEAD)⟩
        let worker := { takeToken (s.workers p) token with pc := .tokenEnd i }
        some { s with workers := Function.update s.workers p worker }
      else some (s.setPc p (.op i (op_idx + 1) .capture))

/-- The next step of a worker that is not waiting for its connection thread. -/
def workStep (c : Config) (s : State) (p input : Nat) (spurious : Bool) : Option State :=
  match (s.workers p).pc with
  | .idle => none
  | .claiming =>
      if s.calls p = .claim p .threw then some ((s.setCall p .idle).setPc p .idle) else none
  | .claimed i =>
      if s.calls p = .claim p (.returned i) then
        some ((s.setCall p .idle).setPc p (.prepared i))
      else none
  | .prepared i =>
      some { s.setPc p (.polling i) with
        ctrl := s.ctrl.slot_signal_join i
        joinTag := Function.update s.joinTag i (s.tenancy i) }
  | .polling i => if s.ctrl.slot_is_active i then some (s.setPc p (.tokenStart i)) else none
  | .tokenStart i =>
      if s.ctrl.is_slot_evicted i then
        some { s.setPc p (.leave i false) with
          ctrl := { s.ctrl with evicted_slot_mask := s.ctrl.evicted_slot_mask.clear_bit i } }
      else some (s.setPc p (.op i 0 .capture))
  | .op i op_idx stage => opStep c s p input spurious i op_idx stage
  | .tokenEnd i =>
      if completes c (s.workers p) then some (s.setPc p (.leave i true))
      else some (s.setPc p (.tokenStart i))
  | .leave i succeeded =>
      let after := if succeeded then .awaitLeave i else .release i false
      some ((s.signalLeave i).setPc p after)
  | .awaitLeave i => if s.ctrl.slot_is_active i then none else some (s.setPc p (.release i true))
  | .release i succeeded =>
      some ((s.setCall p (.release p (release_slot_entry s.pool i))).setPc p
        (.releasing i succeeded))
  | .releasing _ succeeded =>
      if s.calls p = .release p .threw then
        some ((s.setCall p .idle).setPc p (.released succeeded))
      else none
  | .released succeeded =>
      match s.calls p with
      | .release _ .returned | .idle =>
          let w := s.workers p
          let completion : Completion := ⟨p, succeeded, w.evicted, w.generated_tokens⟩
          some { (s.setCall p .idle).setPc p .idle with
            completions := s.completions ++ [completion] }
      | _ => none

/-- The timeouts of a worker: a slot that is not active in time is left and
released at once, and a leave that is not acknowledged in time is released. -/
def timeoutStep (s : State) (p : Nat) : Option State :=
  match (s.workers p).pc with
  | .polling i => if s.ctrl.slot_is_active i then none else some (s.setPc p (.leave i false))
  | .awaitLeave i => if s.ctrl.slot_is_active i then some (s.setPc p (.release i true)) else none
  | _ => none

/-- `_fail_all_active_slots` and the failures of single requests: an active slot is
left and released, a pending one is only released. -/
def failStep (s : State) (p : Nat) : Option State :=
  match (s.workers p).pc with
  | .prepared i | .polling i => some (s.setPc p (.release i false))
  | .tokenStart i | .tokenEnd i | .op i _ .capture | .op i _ (.prepare _) | .op i _ (.signal _ _)
  | .op i _ (.fetch _ _) => some (s.setPc p (.leave i false))
  | _ => none

/-- Whether the request whose slot is being released has completed. -/
def WorkerPc.succeeded : WorkerPc → Bool
  | .releasing _ succeeded => succeeded
  | _ => false

/-- The ownership of a slot changes hands in two atomic steps of the pool; the
worker's own position follows them. Releasing also zeroes the slot's buffers. -/
def rpcStep (s : State) (p : Nat) (spurious : Bool) : Option State :=
  match s.calls p with
  | .idle => none
  | .claim w pc =>
      let next := claim_slot s.pool w spurious pc
      let s' := { s.setCall p (.claim w next.2) with
        pool := next.1, ctrl := claim_slot_scrub s.ctrl pc }
      match pc with
      | .storeOwner i =>
          some { s'.setPc p (.claimed i) with
            tenancy := Function.update s.tenancy i (s.tenancy i + 1) }
      | .returned _ | .threw => none
      | _ => some s'
  | .release w pc =>
      let next := release_slot s.pool w pc
      let s' := { s.setCall p (.release w next.2) with pool := next.1 }
      match pc with
      | .casOwner i =>
          if s.pool.owner_worker_id i = w then
            some { s'.setPc p (.released (s.workers p).pc.succeeded) with
              input := Function.update s.input i 0
              output := Function.update s.output i ⟨0, 0, 0, 0, 0⟩ }
          else some s'
      | .returned | .threw => none
      | _ => some s'

namespace AggregatorState

/-- The condition of the drain loop. -/
def drainNext (a : AggregatorState) : AggregatorPc :=
  if a.commands.length < a.N ∧ a.drained < MAX_DRAIN then .spin else .storeTail

/-- Load one word of a shared mask into `seen`, starting from an empty one. -/
def load (a : AggregatorState) (k : Fin 2) (m : SlotMask) : SlotMask :=
  (if k = 0 then .zero else a.seen).copyWord k m

/-- The end of one round of the op loop. -/
def nextOp (a : AggregatorState) (c : Config) : AggregatorState :=
  if a.op_idx + 1 < c.ops_per_token then { a with pc := .loadReady 0, op_idx := a.op_idx + 1 }
  else { a with pc := .top }

end AggregatorState

namespace State

/-- The batch as the executor reads it through the pointers it kept. -/
def batch (s : State) : List Submission :=
  s.agg.commands.map fun index => (s.ring.entries index).command

/-- The executor's checks: every slot is in the pool and owned by the command's
worker, and a GEMM is for a layer of the model. -/
def batchPasses (s : State) (c : Config) : Bool :=
  (s.batch.all fun cmd => decide ((cmd.slot_id : Int) < s.pool.num_slots) &&
    decide (s.pool.owner_worker_id cmd.slot_id = (cmd.worker_id : Int))) &&
  match s.batch.head? with
  | none => true
  | some first => first.op_type == OP_EMBED || first.op_type == OP_LM_HEAD ||
      (decide (0 ≤ first.layer_idx) && decide (first.layer_idx < (c.num_layers : Int)))

/-- The whole batch is computed as one operation: that of its first command. -/
def computed (s : State) (sample : Slot → Nat) (i : Slot) : Output :=
  match s.batch.head? with
  | none => s.output i
  | some first =>
      if s.batch.any fun cmd => cmd.slot_id == i then
        ⟨first.op_type, first.layer_idx, s.input i, s.ctrl.barrier_done_epoch, sample i⟩
      else s.output i

end State

/-- The next step of `aggregator_main_loop_slots`. -/
def aggregateStep (c : Config) (s : State) (timerExpired : Bool) (sample : Slot → Nat) :
    Option State :=
  let a := s.agg
  match a.pc with
  | .top =>
      some { s with agg := { a with pc := if s.ctrl.quit_flag then .stopped else .loadLeaves 0 } }
  -- leaves are processed before joins, both between tokens
  | .loadLeaves k =>
      let seen := a.load k s.ctrl.pending_slot_leaves
      let pc := if k = 0 then .loadLeaves 1
        else if seen.is_zero then .loadJoins 0 else .exchangeLeaves 0
      some { s with agg := { a with seen, pc } }
  | .exchangeLeaves k =>
      let leaves := a.leaves.copyWord k s.ctrl.pending_slot_leaves
      let agg := if k = 0 then { a with leaves, pc := .exchangeLeaves 1 }
        else { a with
          leaves := .zero, active_mask := a.active_mask &&& ~~~leaves, pc := .loadJoins 0 }
      some { s with
        agg
        ctrl := { s.ctrl with
          pending_slot_leaves := s.ctrl.pending_slot_leaves.copyWord k .zero } }
  | .loadJoins k =>
      let seen := a.load k s.ctrl.pending_slot_joins
      let agg := if k = 0 then { a with seen, pc := .loadJoins 1 }
        else if seen.is_zero then
          { a with seen, pc := .storeActive 0, N := a.active_mask.popcount }
        else { a with seen, pc := .exchangeJoins 0 }
      some { s with agg }
  | .exchangeJoins k =>
      let joins := a.joins.copyWord k s.ctrl.pending_slot_joins
      let active_mask := a.active_mask ||| joins
      let agg := if k = 0 then { a with joins, pc := .exchangeJoins 1 }
        else { a with joins := .zero, active_mask, N := active_mask.popcount, pc := .storeActive 0 }
      some { s with
        agg
        ctrl := { s.ctrl with pending_slot_joins := s.ctrl.pending_slot_joins.copyWord k .zero }
        processedTag := fun i =>
          if k = 1 ∧ joins.test_bit i then s.joinTag i else s.processedTag i }
  | .storeActive k =>
      let agg := if k = 0 then { a with pc := .storeActive 1 }
        else if a.N = 0 then { a with pc := .top }
        else { a with pc := .loadReady 0, op_idx := 0, breaking := false }
      some { s with
        agg
        ctrl := { s.ctrl with
          active_slot_mask := s.ctrl.active_slot_mask.copyWord k a.active_mask } }
  -- aggregator_wait_for_slots
  | .loadReady k =>
      let seen := a.load k s.ctrl.per_slot_ready_mask
      let pc := if k = 0 then .loadReady 1
        else if (a.active_mask &&& ~~~seen).is_zero then .fetch else .decide
      some { s with agg := { a with seen, pc } }
  | .decide =>
      let agg := if s.ctrl.quit_flag then { a with pc := .loadActive 0, breaking := true }
        else if timerExpired then { a with pc := .loadMidLeaves 0 }
        else { a with pc := .evictCheck }
      some { s with agg }
  | .loadMidLeaves k =>
      let seen := a.load k s.ctrl.pending_slot_leaves
      let leaving := seen &&& a.active_mask
      let active_mask := a.active_mask &&& ~~~leaving
      let agg := if k = 0 then { a with seen, pc := .loadMidLeaves 1 }
        else if leaving.is_zero then { a with seen, pc := .evictCheck }
        else { a with
          seen, active_mask, stuck := leaving, N := active_mask.popcount, pc := .clearMidLeaves 0 }
      some { s with agg }
  | .clearMidLeaves k =>
      some { s with
        agg := { a with pc := if k = 0 then .clearMidLeaves 1 else .storeMidLeaves 0 }
        ctrl := { s.ctrl with
          pending_slot_leaves := s.ctrl.pending_slot_leaves.andWord k (~~~a.stuck) } }
  | .storeMidLeaves k =>
      let pc := if k = 0 then .storeMidLeaves 1 else if a.N = 0 then .top else .evictCheck
      some { s with
        agg := { a with pc }
        ctrl := { s.ctrl with
          active_slot_mask := s.ctrl.active_slot_mask.copyWord k a.active_mask } }
  | .evictCheck =>
      some { s with agg := { a with pc := if timerExpired then .loadStuck 0 else .loadReady 0 } }
  | .loadStuck k =>
      let seen := a.load k s.ctrl.per_slot_ready_mask
      let stuck := a.active_mask &&& ~~~seen
      let active_mask := a.active_mask &&& ~~~stuck
      if k = 0 then some { s with agg := { a with seen, pc := .loadStuck 1 } }
      else if stuck.is_zero then some { s with agg := { a with seen, pc := .loadReady 0 } }
      else
        let agg := { a with
          seen, stuck, active_mask, N := active_mask.popcount, pc := .storeEvicted 0 }
        some { s with
          agg
          workers := fun p =>
            let w := s.workers p
            let hit := w.pc.generating && w.pc.slot.any stuck.test_bit
            if hit then { w with evicted := true } else w }
  | .storeEvicted k =>
      some { s with
        agg := { a with pc := if k = 0 then .storeEvicted 1 else .signalEvicted }
        ctrl := { s.ctrl with
          active_slot_mask := s.ctrl.active_slot_mask.copyWord k a.active_mask } }
  | .signalEvicted =>
      match a.stuck.find_first with
      | some i =>
          some { s with
            agg := { a with stuck := a.stuck.clear_bit i }
            ctrl := { s.ctrl with evicted_slot_mask := s.ctrl.evicted_slot_mask.set_bit i } }
      | none => some { s with agg := { a with pc := if a.N = 0 then .top else .loadReady 0 } }
  -- fetch, filtered by the active mask
  | .fetch =>
      if s.ctrl.quit_flag then some { s with agg := { a with pc := .top } }
      else
        let a := { a with
          commands := [], tickets := [], tail := s.ring.tail, drained := 0
          horizon := s.ring.log.length }
        some { s with agg := { a with pc := a.drainNext } }
  | .spin =>
      if (s.ring.entries a.tail).ready then
        some { s with agg := { a with pc := if s.ctrl.quit_flag then .storeTail else .take } }
      else if s.ctrl.quit_flag then some { s with agg := { a with pc := .storeTail } }
      else if timerExpired then
        some { s with
          agg := { a with pc := .storeTail }
          ctrl := { s.ctrl with quit_flag := true } }
      else none
  | .take =>
      let entry := s.ring.entries a.tail
      let keep := a.active_mask.test_bit entry.command.slot_id
      let a := { a with
        commands := if keep then a.commands ++ [a.tail] else a.commands
        tickets := if keep then a.tickets ++ [entry.ticket] else a.tickets
        tail := (a.tail + 1) % s.ring.capacity
        drained := a.drained + 1
        taken := a.taken + 1 }
      some { s with ring := s.ring.clearReady s.agg.tail, agg := { a with pc := a.drainNext } }
  | .storeTail =>
      let dropped := a.commands.isEmpty || s.ctrl.quit_flag
      let after := if dropped = false then { a with pc := .execute }
        else if s.ctrl.quit_flag then { a with pc := .loadActive 0, finished := a.taken }
        else { a with finished := a.taken }.nextOp c
      some { s with ring := { s.ring with tail := a.tail }, agg := after }
  | .execute =>
      if s.batchPasses c then
        some { s with
          agg := { a with pc := .loadActive 0, finished := a.taken }
          output := s.computed sample }
      else some { s with agg := { a with pc := .threw } }
  -- aggregator_signal_done_slots
  | .loadActive k =>
      let seen := a.load k s.ctrl.active_slot_mask
      some { s with agg := { a with seen, pc := if k = 0 then .loadActive 1 else .clearReady 0 } }
  | .clearReady k =>
      some { s with
        agg := { a with pc := if k = 0 then .clearReady 1 else .advanceEpoch }
        ctrl := { s.ctrl with
          per_slot_ready_mask := s.ctrl.per_slot_ready_mask.andWord k (~~~a.seen) } }
  | .advanceEpoch =>
      let a := { a with commands := [], tickets := [] }
      some { s with
        agg := if a.breaking then { a with pc := .top } else a.nextOp c
        ctrl := { s.ctrl with barrier_done_epoch := s.ctrl.barrier_done_epoch + 1 } }
  | .stopped => none
  | .threw => none

/-- The connection thread of a worker has no claim or release under way. -/
def callOver : Call → Bool
  | .idle | .claim _ (.returned _) | .claim _ .threw | .release _ .returned
  | .release _ .threw => true
  | _ => false

def step (c : Config) (s : State) : Label → Option State
  | .request p max_tokens prefill_chunks =>
      let w := s.workers p
      if w.pc = .idle ∧ w.crashed = false then
        let worker : Worker := { w with
          pc := .claiming, max_tokens, prefill_chunks, generated_tokens := [], evicted := false }
        some { s.setCall p (.claim p (.loadFree 0 {})) with
          workers := Function.update s.workers p worker }
      else none
  | .work p input spurious =>
      if (s.workers p).crashed then none else workStep c s p input spurious
  | .timeout p => if (s.workers p).crashed then none else timeoutStep s p
  | .fail p => if (s.workers p).crashed then none else failStep s p
  | .rpc p spurious => rpcStep s p spurious
  | .crash p =>
      let w := s.workers p
      if w.crashed then none
      else some { s with workers := Function.update s.workers p { w with crashed := true } }
  | .disconnect p i =>
      let w := s.workers p
      if w.crashed ∧ w.handler = .scanning ∧ callOver (s.calls p) ∧
          s.pool.owner_worker_id i = (p : Int) then
        some { (s.signalLeave i).setCall p .idle with
          workers := Function.update s.workers p { w with handler := .sleeping i } }
      else none
  | .deferredRelease p =>
      let w := s.workers p
      match w.handler with
      | .sleeping i =>
          some { s.setCall p (.release p (release_slot_entry s.pool i)) with
            workers := Function.update s.workers p { w with handler := .done } }
      | _ => none
  | .aggregate timerExpired sample => aggregateStep c s timerExpired sample

/-- Everything as `create_queue` and `init_slot_pool` leave it, before the main loop
runs and with every worker idle. -/
structure Initial (s : State) : Prop where
  pool : ∃ cudaMalloc num_slots hidden_dim intermediate_dim num_kv_heads head_dim
    max_seq_per_step dtype_size, init_slot_pool cudaMalloc num_slots hidden_dim intermediate_dim
      num_kv_heads head_dim max_seq_per_step dtype_size = some s.pool
  ctrl : s.ctrl = {}
  ring : 2 ≤ s.ring.capacity ∧ s.ring.head = 0 ∧ s.ring.tail = 0 ∧ s.ring.log = [] ∧
    ∀ index, (s.ring.entries index).ready = false
  calls : ∀ p, s.calls p = .idle
  workers : ∀ p, (s.workers p).pc = .idle ∧ (s.workers p).crashed = false ∧
    (s.workers p).handler = .scanning
  agg : s.agg = ⟨.top, .zero, .zero, .zero, .zero, .zero, 0, 0, 0, 0, [], false, [], 0, 0, 0⟩
  completions : s.completions = []

def machine (c : Config) : System State Label := ⟨Initial, step c⟩

end Barrier
