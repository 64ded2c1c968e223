import Mathlib.Data.List.Basic
import Mathlib.Logic.Function.Basic
import SwarmLoRA.Machine.System

/-! The inference engine of a worker, the threads of its HTTP server and what the aggregator
does for its slots. One thread runs the engine. An HTTP thread hands its request over in a
queue, waits for the future of the request, and holds a permit of a semaphore meanwhile. -/
namespace Worker

open Machine

abbrev RequestId := Nat

abbrev SlotId := Nat

inductive Op where
  | embed
  | qkv_fused
  | o_proj
  | gate_up_fused
  | down_proj
  | lm_head
  deriving DecidableEq

structure Command where
  op : Op
  layer_idx : Nat
  slot_id : SlotId
  /-- The call of `_generate_one_token_all` that submits it. -/
  call : Nat
  deriving DecidableEq

/-- The first number in the output buffer of a slot, and the command of this
worker that wrote it, if it was one. -/
structure Output where
  value : Nat
  command : Option Command

/-- What `lm_head_get_all` read for a request, the slot that it read and the
call it was made in. -/
structure Token extends Output where
  slot_id : SlotId
  call : Nat

structure Config where
  eos_token_id : Option Nat
  num_layers : Nat
  max_seq_len : Nat
  prefill_chunk_size : Nat

/-- An HTTP thread, from the semaphore to its response. -/
inductive Handler where
  | refused
  | parsing
  /-- An exception in the parsing of the request ends the thread without a release. -/
  | raised
  | waiting
  | returned
  | gave_up
  deriving DecidableEq

def Handler.holds : Handler → Bool
  | .parsing | .raised | .waiting => true
  | .refused | .returned | .gave_up => false

def Handler.submitted : Handler → Bool
  | .waiting | .returned | .gave_up => true
  | .refused | .parsing | .raised => false

/-- An `InferenceRequest` with its HTTP thread and the `SlotState` it gets. The
empty list of chunks that are left stands for `None` as well. -/
structure Request where
  handler : Handler := .refused
  max_tokens : Nat := 0
  prompt_tokens : Nat := 0
  joined : Bool := false
  prefill_chunks : Nat := 0
  generated_tokens : List Token := []

/-- A dictionary from slots to slot states, in the order of insertion. -/
abbrev Dict := List (SlotId × RequestId)

namespace Dict

def set (d : Dict) (slot_id : SlotId) (r : RequestId) : Dict :=
  if d.any (·.1 = slot_id) then d.map fun e => if e.1 = slot_id then (slot_id, r) else e
  else d ++ [(slot_id, r)]

def pop (d : Dict) (slot_id : SlotId) : Dict := d.filter (·.1 ≠ slot_id)

end Dict

/-- What only the thread of the engine writes: the two dictionaries, and which
futures are set. -/
structure Table where
  pending_slots : Dict := []
  active_slots : Dict := []
  done : RequestId → Bool := fun _ => false

/-- The single effects of the cleanup of slots, between which other threads move. -/
inductive Action where
  | set_future (r : RequestId)
  | pop_pending (slot_id : SlotId)
  | add_active (slot_id : SlotId)
  | remove_active (slot_id : SlotId)
  | clear_pending
  deriving DecidableEq

namespace Table

def entries (t : Table) : Dict := t.pending_slots ++ t.active_slots

/-- The entries whose requests are not answered yet. -/
def undone (t : Table) : Dict := t.entries.filter fun e => !t.done e.2

def act (t : Table) : Action → Table
  | .set_future r => { t with done := Function.update t.done r true }
  | .pop_pending slot_id => { t with pending_slots := Dict.pop t.pending_slots slot_id }
  | .add_active slot_id =>
      match t.pending_slots.lookup slot_id with
      | some r => { t with
          pending_slots := Dict.pop t.pending_slots slot_id
          active_slots := Dict.set t.active_slots slot_id r }
      | none => t
  | .remove_active slot_id => { t with active_slots := Dict.pop t.active_slots slot_id }
  | .clear_pending => { t with pending_slots := [] }

def run (t : Table) (todo : List Action) : Table := todo.foldl act t

/-- `_fail_all_active_slots`. -/
def fail_all_active_slots (t : Table) : List Action :=
  (t.active_slots.flatMap fun e => [.set_future e.2, .remove_active e.1]) ++
    t.pending_slots.map (fun e => .set_future e.2) ++ [.clear_pending]

end Table

/-- The place of the thread of the engine. `slots` is its own copy of the active slots, taken before
a token and used to its end. -/
inductive Pc where
  | loop
  | accept
  | claim (r : RequestId)
  | activate
  | snapshot (has_pending : Bool)
  | idle
  | generate (slots : Dict)
  | submit (slots : Dict) (op : Op × Nat) (rest : List (Op × Nat))
  | sync (slots : Dict) (command : Command) (rest : List (Op × Nat)) (executed : Bool)
  | check (slots : Dict)
  | complete (slots : Dict)
  | failing
  | ended

/-- The request that has left the queue and has no slot yet. -/
def Pc.hand : Pc → List RequestId
  | .claim r => [r]
  | _ => []

/-- The copy of the active slots, where there is one. -/
def Pc.slots : Pc → Option Dict
  | .generate slots | .submit slots _ _ | .sync slots _ _ _ | .check slots | .complete slots =>
      some slots
  | _ => none

/-- Inside the `try` of `_inference_loop`. -/
def Pc.raises : Pc → Bool
  | .loop | .failing | .ended => false
  | _ => true

structure State where
  worker_running : Bool
  engine_running : Bool
  semaphore : Nat
  request_queue : List RequestId
  table : Table
  requests : RequestId → Request
  nextRequest : RequestId
  pc : Pc
  /-- What the thread of the engine does before it goes on at `pc`. -/
  todo : List Action
  calls : Nat
  submitted : List Command
  active_slot_mask : SlotId → Bool
  evicted_slot_mask : SlotId → Bool
  output : SlotId → Output

/-- The commands of a call of `_generate_one_token_all`, with their layers. -/
def ops (num_layers : Nat) : List (Op × Nat) :=
  (.embed, 0) :: ((List.range num_layers).flatMap fun layer_idx =>
    [(.qkv_fused, layer_idx), (.o_proj, layer_idx), (.gate_up_fused, layer_idx),
      (.down_proj, layer_idx)]) ++ [(.lm_head, 0)]

namespace State

def slots (s : State) : List SlotId := s.table.entries.map Prod.fst

/-- The table when the thread of the engine is through with what it has to do. -/
def settled (s : State) : Table := s.table.run s.todo

/-- The requests that wait for the engine or that it works on. -/
def engaged (s : State) : List RequestId :=
  s.request_queue ++ s.pc.hand ++ s.table.undone.map Prod.snd

def setRequest (s : State) (r : RequestId) (request : Request) : State :=
  { s with requests := Function.update s.requests r request }

def setHandler (s : State) (r : RequestId) (handler : Handler) : State :=
  s.setRequest r { s.requests r with handler }

/-- `inference`, up to the semaphore. -/
def inference (s : State) : State :=
  if s.worker_running = true ∧ 0 < s.semaphore then
    { s.setRequest s.nextRequest { handler := .parsing } with
      semaphore := s.semaphore - 1, nextRequest := s.nextRequest + 1 }
  else { s.setRequest s.nextRequest {} with nextRequest := s.nextRequest + 1 }

/-- The thread releases its permit and ends. -/
def release (s : State) (r : RequestId) (handler : Handler) : State :=
  { s.setHandler r handler with semaphore := s.semaphore + 1 }

def submit_request (cfg : Config) (s : State) (r : RequestId) (max_tokens : Int) : State :=
  { s.setRequest r { s.requests r with
      handler := .waiting, max_tokens := (max 1 (min max_tokens cfg.max_seq_len)).toNat } with
    request_queue := s.request_queue ++ [r] }

/-- The end of `_accept_pending_requests` for a request that the tokenizer gives
`length` tokens and the aggregator the slot. The aggregator forgets an eviction
when it gives a slot away. -/
def prepare (cfg : Config) (s : State) (r : RequestId) (slot_id : SlotId) (length : Nat) : State :=
  let seq_len := if cfg.max_seq_len ≤ length then cfg.max_seq_len - 1 else length
  { s.setRequest r { s.requests r with
      prompt_tokens := seq_len
      max_tokens := min (s.requests r).max_tokens (cfg.max_seq_len - seq_len)
      joined := false
      prefill_chunks :=
        if cfg.prefill_chunk_size < seq_len then (seq_len - 1) / cfg.prefill_chunk_size else 0
      generated_tokens := [] } with
    table := { s.table with pending_slots := Dict.set s.table.pending_slots slot_id r }
    evicted_slot_mask := Function.update s.evicted_slot_mask slot_id false
    pc := .accept }

/-- `_try_activate_pending_slots`, where `late` says which slots have waited too long. -/
def try_activate_pending_slots (s : State) (late : List SlotId) : State :=
  let activated := s.table.pending_slots.filter fun e => s.active_slot_mask e.1
  let timed_out := s.table.pending_slots.filter fun e =>
    !s.active_slot_mask e.1 && (s.requests e.2).joined && late.contains e.1
  { s with
    requests := fun r =>
      if r ∈ s.table.pending_slots.map Prod.snd then { s.requests r with joined := true }
      else s.requests r
    todo := (timed_out.flatMap fun e => [.pop_pending e.1, .set_future e.2]) ++
      activated.map fun e => .add_active e.1
    pc := .snapshot (s.table.pending_slots ≠ []) }

/-- The beginning of `_generate_one_token_all`: the slots that were evicted or
that find no block in the cache are torn down. -/
def begin_call (cfg : Config) (s : State) (slots : Dict) (exhausted : List SlotId) : State :=
  let torn := slots.filter fun e => s.evicted_slot_mask e.1 || exhausted.contains e.1
  let left := slots.filter fun e => !(s.evicted_slot_mask e.1 || exhausted.contains e.1)
  { s with
    calls := s.calls + 1
    evicted_slot_mask := fun slot_id =>
      if slot_id ∈ slots.map Prod.fst then false else s.evicted_slot_mask slot_id
    todo := torn.flatMap fun e => [.remove_active e.1, .set_future e.2]
    pc := if left = [] then .check left else .submit left (.embed, 0) (ops cfg.num_layers).tail }

/-- The submit helpers: a command for the first slot of the dictionary. -/
def submit (s : State) (slots : Dict) (op : Op × Nat) (rest : List (Op × Nat))
    (slot_id : SlotId) : State :=
  let command : Command := { op := op.1, layer_idx := op.2, slot_id, call := s.calls }
  { s with submitted := command :: s.submitted, pc := .sync slots command rest false }

/-- One pass of the loop of `lm_head_get_all`. -/
def get_token (s : State) (e : SlotId × RequestId) : State :=
  let request := s.requests e.2
  if request.prefill_chunks = 0 then
    s.setRequest e.2 { request with
      generated_tokens := request.generated_tokens ++
        [{ toOutput := s.output e.1, slot_id := e.1, call := s.calls }] }
  else s.setRequest e.2 { request with prefill_chunks := request.prefill_chunks - 1 }

/-- The engine has caught an exception. -/
def fail (s : State) : State :=
  { s with todo := s.table.fail_all_active_slots, pc := .failing }

def next (s : State) (slots : Dict) : List (Op × Nat) → State
  | [] => { s with pc := .check slots }
  | op :: rest => { s with pc := .submit slots op rest }

/-- The get helpers. There is an output for one slot only, and all of them but
the first and the last look one up for every slot. -/
def collect (s : State) (slots : Dict) (command : Command) (rest : List (Op × Nat)) : State :=
  match command.op with
  | .embed => s.next slots rest
  | .lm_head => (slots.foldl get_token s).next slots rest
  | .qkv_fused | .o_proj | .gate_up_fused | .down_proj =>
      if slots.all (·.1 = command.slot_id) then s.next slots rest else s.fail

/-- The request of a slot has all its tokens. -/
def completed (cfg : Config) (s : State) (e : SlotId × RequestId) : Bool :=
  let request := s.requests e.2
  decide (request.max_tokens ≤ request.generated_tokens.length) ||
    match request.generated_tokens.getLast? with
    | some token => cfg.eos_token_id = some token.value
    | none => false

/-- `_handle_completions`. -/
def handle_completions (cfg : Config) (s : State) (slots : Dict) : State :=
  let completed := slots.filter (s.completed cfg)
  { s with
    todo := completed.map (fun e => .set_future e.2) ++ completed.map fun e => .remove_active e.1
    pc := .loop }

end State

open State

/-- A move of the thread of the engine. The arguments are the aggregator's, the
tokenizer's and the clock's. -/
inductive Move where
  | loop
  | take
  | prune
  | reject
  | prepare (slot_id : SlotId) (length : Nat)
  | activate (late : List SlotId)
  | snapshot
  | wake
  | generate (exhausted : List SlotId)
  | submit
  | sync
  | check
  | complete
  | recover

/-- The moves of the HTTP threads, of the thread of the engine, and of the
aggregator, which may take a slot in or out at any time. -/
inductive Label where
  | inference
  | refuse (r : RequestId)
  | abort (r : RequestId)
  | submit_request (r : RequestId) (max_tokens : Int)
  | answer (r : RequestId)
  | timeout (r : RequestId)
  | shutdown
  | stop
  | engine (move : Move)
  | act
  | raise
  | execute (value : Nat)
  | join (slot_id : SlotId)
  | leave (slot_id : SlotId)
  | evict (slot_id : SlotId)
  | write (slot_id : SlotId) (value : Nat)

/-- The move of the engine, once it has nothing left to do from the one before.
`wait_for_epoch` is for any round of the aggregator, so it ends without one for
the command of a slot that the aggregator does not count as active. -/
def engine (cfg : Config) (s : State) : Move → Option State
  | .loop =>
      match s.pc with
      | .loop => some { s with pc := if s.engine_running then .accept else .ended }
      | _ => none
  | .take =>
      match s.pc, s.request_queue with
      | .accept, [] => some { s with pc := .activate }
      | .accept, r :: rest => some { s with request_queue := rest, pc := .claim r }
      | _, _ => none
  | .prune | .reject =>
      match s.pc with
      | .claim r => some { s with todo := [.set_future r], pc := .accept }
      | _ => none
  | .prepare slot_id length =>
      match s.pc with
      | .claim r => some (s.prepare cfg r slot_id length)
      | _ => none
  | .activate late =>
      match s.pc with
      | .activate => some (s.try_activate_pending_slots late)
      | _ => none
  | .snapshot =>
      match s.pc with
      | .snapshot has_pending =>
          some { s with
            pc := if s.table.active_slots ≠ [] then .generate s.table.active_slots
              else if has_pending then .loop else .idle }
      | _ => none
  | .wake =>
      match s.pc with
      | .idle => some { s with pc := .loop }
      | _ => none
  | .generate exhausted =>
      match s.pc with
      | .generate slots => some (s.begin_call cfg slots exhausted)
      | _ => none
  | .submit =>
      match s.pc with
      | .submit ((slot_id, r) :: slots) op rest => some (s.submit ((slot_id, r) :: slots) op rest slot_id)
      | _ => none
  | .sync =>
      match s.pc with
      | .sync slots command rest executed =>
          if executed = true ∨ s.active_slot_mask command.slot_id = false then
            some (s.collect slots command rest)
          else none
      | _ => none
  | .check =>
      match s.pc with
      | .check slots =>
          some { s with
            pc := if slots.any (s.completed cfg) ∨ s.request_queue ≠ [] ∨ s.table.pending_slots ≠ []
              then .complete slots else .generate slots }
      | _ => none
  | .complete =>
      match s.pc with
      | .complete slots => some (s.handle_completions cfg slots)
      | _ => none
  | .recover =>
      match s.pc with
      | .failing => some { s with pc := .loop }
      | _ => none

/-- What a move of the engine can be, with the place where it starts. What is proved of the engine
goes by cases on this. -/
inductive EngineMove (cfg : Config) (s : State) : Move → State → Prop where
  | loop (hPc : s.pc = .loop) :
      EngineMove cfg s .loop { s with pc := if s.engine_running then .accept else .ended }
  | accepted (hPc : s.pc = .accept) (hQueue : s.request_queue = []) :
      EngineMove cfg s .take { s with pc := .activate }
  | take {r rest} (hPc : s.pc = .accept) (hQueue : s.request_queue = r :: rest) :
      EngineMove cfg s .take { s with request_queue := rest, pc := .claim r }
  | answer {move r} (hPc : s.pc = .claim r) :
      EngineMove cfg s move { s with todo := [.set_future r], pc := .accept }
  | prepare {slot_id length r} (hPc : s.pc = .claim r) :
      EngineMove cfg s (.prepare slot_id length) (s.prepare cfg r slot_id length)
  | activate {late} (hPc : s.pc = .activate) :
      EngineMove cfg s (.activate late) (s.try_activate_pending_slots late)
  | snapshot {has_pending} (hPc : s.pc = .snapshot has_pending) :
      EngineMove cfg s .snapshot { s with
        pc := if s.table.active_slots ≠ [] then .generate s.table.active_slots
          else if has_pending then .loop else .idle }
  | wake (hPc : s.pc = .idle) : EngineMove cfg s .wake { s with pc := .loop }
  | generate {exhausted slots} (hPc : s.pc = .generate slots) :
      EngineMove cfg s (.generate exhausted) (s.begin_call cfg slots exhausted)
  | submit {slot_id r slots op rest} (hPc : s.pc = .submit ((slot_id, r) :: slots) op rest) :
      EngineMove cfg s .submit (s.submit ((slot_id, r) :: slots) op rest slot_id)
  | sync {slots command rest executed} (hPc : s.pc = .sync slots command rest executed) :
      EngineMove cfg s .sync (s.collect slots command rest)
  | check {slots} (hPc : s.pc = .check slots) :
      EngineMove cfg s .check { s with
        pc := if slots.any (s.completed cfg) ∨ s.request_queue ≠ [] ∨ s.table.pending_slots ≠ []
          then .complete slots else .generate slots }
  | complete {slots} (hPc : s.pc = .complete slots) :
      EngineMove cfg s .complete (s.handle_completions cfg slots)
  | recover (hPc : s.pc = .failing) : EngineMove cfg s .recover { s with pc := .loop }

/-- Every move that the engine makes is one of these. -/
theorem engine_move {cfg : Config} {s s' : State} {move : Move}
    (hMove : engine cfg s move = some s') : EngineMove cfg s move s' := by
  cases move with
  | take =>
      simp only [engine] at hMove
      split at hMove
      next hPc hQueue => exact Option.some.inj hMove ▸ .accepted hPc hQueue
      next hPc hQueue => exact Option.some.inj hMove ▸ .take hPc hQueue
      next => cases hMove
  | sync =>
      simp only [engine] at hMove
      split at hMove
      next hPc =>
        simp only [Option.ite_none_right_eq_some, Option.some.injEq] at hMove
        exact hMove.2 ▸ .sync hPc
      next => cases hMove
  | loop =>
      simp only [engine] at hMove
      split at hMove
      next hPc => exact Option.some.inj hMove ▸ .loop hPc
      next => cases hMove
  | prune | reject =>
      simp only [engine] at hMove
      split at hMove
      next hPc => exact Option.some.inj hMove ▸ .answer hPc
      next => cases hMove
  | prepare slot_id length =>
      simp only [engine] at hMove
      split at hMove
      next hPc => exact Option.some.inj hMove ▸ .prepare hPc
      next => cases hMove
  | activate late =>
      simp only [engine] at hMove
      split at hMove
      next hPc => exact Option.some.inj hMove ▸ .activate hPc
      next => cases hMove
  | snapshot =>
      simp only [engine] at hMove
      split at hMove
      next hPc => exact Option.some.inj hMove ▸ .snapshot hPc
      next => cases hMove
  | wake =>
      simp only [engine] at hMove
      split at hMove
      next hPc => exact Option.some.inj hMove ▸ .wake hPc
      next => cases hMove
  | generate exhausted =>
      simp only [engine] at hMove
      split at hMove
      next hPc => exact Option.some.inj hMove ▸ .generate hPc
      next => cases hMove
  | submit =>
      simp only [engine] at hMove
      split at hMove
      next hPc => exact Option.some.inj hMove ▸ .submit hPc
      next => cases hMove
  | check =>
      simp only [engine] at hMove
      split at hMove
      next hPc => exact Option.some.inj hMove ▸ .check hPc
      next => cases hMove
  | complete =>
      simp only [engine] at hMove
      split at hMove
      next hPc => exact Option.some.inj hMove ▸ .complete hPc
      next => cases hMove
  | recover =>
      simp only [engine] at hMove
      split at hMove
      next hPc => exact Option.some.inj hMove ▸ .recover hPc
      next => cases hMove

def step (cfg : Config) (s : State) : Label → Option State
  | .inference => some s.inference
  | .refuse r => if (s.requests r).handler = .parsing then some (s.release r .refused) else none
  | .abort r => if (s.requests r).handler = .parsing then some (s.setHandler r .raised) else none
  | .submit_request r max_tokens =>
      if (s.requests r).handler = .parsing then some (s.submit_request cfg r max_tokens) else none
  | .answer r =>
      if (s.requests r).handler = .waiting ∧ s.table.done r = true then some (s.release r .returned)
      else none
  | .timeout r =>
      if (s.requests r).handler = .waiting ∧ s.table.done r = false then some (s.release r .gave_up)
      else none
  | .shutdown => some { s with worker_running := false }
  | .stop => some { s with worker_running := false, engine_running := false }
  | .engine move => if s.todo = [] then engine cfg s move else none
  | .act =>
      match s.todo with
      | [] => none
      | action :: todo => some { s with table := s.table.act action, todo }
  | .raise => if s.pc.raises then some s.fail else none
  | .execute value =>
      match s.pc with
      | .sync slots command rest false =>
          if s.active_slot_mask command.slot_id = true then
            some { s with
              output := Function.update s.output command.slot_id { value, command := some command }
              pc := .sync slots command rest true }
          else none
      | _ => none
  | .join slot_id =>
      some { s with active_slot_mask := Function.update s.active_slot_mask slot_id true }
  | .leave slot_id =>
      some { s with active_slot_mask := Function.update s.active_slot_mask slot_id false }
  | .evict slot_id =>
      some { s with
        active_slot_mask := Function.update s.active_slot_mask slot_id false
        evicted_slot_mask := Function.update s.evicted_slot_mask slot_id true }
  | .write slot_id value =>
      if slot_id ∈ s.slots then none
      else some { s with output := Function.update s.output slot_id { value, command := none } }

/-- A worker of one slot that has just started its server. -/
structure Initial (s : State) : Prop where
  semaphore : s.semaphore = 1
  request_queue : s.request_queue = []
  table : s.table = {}
  requests : ∀ r, s.requests r = {}
  pc : s.pc = .loop
  todo : s.todo = []

def machine (cfg : Config) : System State Label := ⟨Initial, step cfg⟩

end Worker
