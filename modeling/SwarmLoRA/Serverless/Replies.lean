import SwarmLoRA.Data.OrderedDict
import SwarmLoRA.Data.Rounding
import SwarmLoRA.Machine.Raising

/-! How a worker answers a batch: the requests that are past their deadline are dropped, the
others are generated together under new indices, and the answers are put back where the requests
were. Any statement may raise; the handler answers for the whole batch. -/
namespace Serverless.Replies

open Data Machine

def MAX_NEW_TOKENS : Int := 1024

structure InferenceRequest where
  prompt : String
  max_tokens : Int
  arrival_time_wall : ℚ
  slo_deadline_wall : Option ℚ

structure Batch where
  batch_id : String
  requests : List InferenceRequest
  dispatch_time_wall : Option ℚ

def Batch.max_tokens (batch : Batch) : Int := ((batch.requests.map (·.max_tokens)).max?).getD 256

structure GenerationResult where
  text : String
  tokens : Nat
  input_tokens : Nat
  worker_id : Int
  batch_id : String
  batch_size : Nat
  e2e_ms : ℚ
  queue_wait_ms : ℚ
  ttft_ms : ℚ
  tpot_ms : ℚ
  gen_time_ms : ℚ
  gen_throughput : ℚ
  batch_throughput : ℚ
  is_cold_start : Bool
  lora_type : String := "custom_unmerged_batched"
deriving DecidableEq

/-- An entry of the reply. -/
inductive Entry where
  | success (result : GenerationResult)
  | expired (error : String) (worker_id : Int) (batch_id : String)
  | failed (error : String)
deriving DecidableEq

/-- Where an exception can come from: a call, or one turn of a loop. -/
inductive Point where
  | prompts
  | max_tokens
  | start_log
  | lock
  | admit_clock
  | deadlines_clock
  | deadline (i : Nat)
  | skip_log
  | drop_log
  | tokenizer
  | input_len (i : Nat)
  | synchronize
  | generate
  | synchronized
  | decode (i : Nat)
  | throughput
  | result (i : Nat)
  | margin
  | complete_log
  | merge

structure Inputs where
  attention_mask : List (List Nat)
  /-- `input_ids.shape[1]` -/
  width : Nat

structure FirstTokenTimer where
  t_first_token : Option ℚ
  t_first_token_perf : Option ℚ

/-- What a call meets outside: exceptions, the clocks, the tokenizer and the model. An exception may
come at any point where the code calls something. -/
structure Env where
  raises : Point → Option String
  slo_s : ℚ
  t_admit : ℚ
  now : ℚ
  tokenizer : List String → Inputs
  generate : Inputs → Int → List (List Nat)
  pad_token_id : Nat
  decode : List Nat → String
  ttft_timer : FirstTokenTimer
  t_gen_start : ℚ
  t_gen_end : ℚ
  /-- the clock in the computation of `t_gen_start_wall` -/
  t_computed_wall : ℚ
  t_gen_end_wall : ℚ

structure Worker where
  worker_id : Int
  is_cold : Bool
  post_admit_s : ℚ
  post_admit_n : Nat

/-- The worker, the requests that the batch has now, and the variables that the handler and the end
of the call look at. -/
structure Frame where
  worker : Worker
  requests : List InferenceRequest
  orig_requests : Option (List InferenceRequest) := none
  expired : OrderedDict Nat Entry := ∅

abbrev Call (α : Type) := EStateM String Frame α

def post_admit_margin (observed_s : ℚ) (n_samples : Nat) (slo_s : ℚ) : ℚ :=
  if n_samples < 5 then 0 else min (max 0 observed_s) (1 / 4 * slo_s)

/-- `f"{q:.1f}"` -/
def format_1f (q : ℚ) : String :=
  let tenths := (round_half_even (q * 10)).natAbs
  (if q < 0 then "-" else "") ++ toString (tenths / 10) ++ "." ++ toString (tenths % 10)

/-- `l[i]` -/
def item {α : Type} (l : List α) (i : Nat) : Call α :=
  match l[i]? with
  | some x => pure x
  | none => throw s!"index {i} is out of bounds for dimension 0 with size {l.length}"

/-- `max(l)` -/
def largest (l : List Nat) : Call Nat :=
  match l.max? with
  | some n => pure n
  | none => throw "max() arg is an empty sequence"

def truthy (q : Option ℚ) : Option ℚ := q.filter (· ≠ 0)

section Call

variable (env : Env) (batch : Batch)

/-- The statement raises if it is to raise. -/
def reach (p : Point) : Call PUnit :=
  match env.raises p with
  | some e => throw e
  | none => pure ()

/-- The request cannot answer in time any more. -/
def late (margin : ℚ) (r : InferenceRequest) : Bool :=
  match r.slo_deadline_wall with
  | some deadline => deadline < env.now + margin
  | none => false

/-- The answer to a request that was dropped. -/
def expiry (worker_id : Int) (r : InferenceRequest) : Entry :=
  .expired
    ("SLO deadline passed while queued at worker (" ++
      format_1f (env.now - r.slo_deadline_wall.getD 0) ++ "s over)")
    worker_id batch.batch_id

/-- The loop over the requests, from index `i` on; what it returns is `_live`. -/
def check_deadlines (margin : ℚ) : Nat → List InferenceRequest → Call (List InferenceRequest)
  | _, [] => pure []
  | i, r :: rest => do
      reach env (.deadline i)
      if late env margin r then do
        modify fun s => { s with expired := s.expired.set i (expiry env batch s.worker.worker_id r) }
        check_deadlines margin (i + 1) rest
      else do
        let live ← check_deadlines margin (i + 1) rest
        pure (r :: live)

/-- `_expired[i]` -/
def expired_item (i : Nat) : Call Entry := do
  let s ← get
  match s.expired.find i with
  | some entry => pure entry
  | none => throw (toString i)

/-- The check of the deadlines, if there are any. It returns the reply if no request is left. -/
def prune : Call (Option (List Entry)) :=
  if batch.requests.any (·.slo_deadline_wall.isSome) then do
    reach env .deadlines_clock
    let s ← get
    let margin := post_admit_margin s.worker.post_admit_s s.worker.post_admit_n env.slo_s
    let live ← check_deadlines env batch margin 0 batch.requests
    if live = [] then do
      reach env .skip_log
      let reply ← (List.range batch.requests.length).mapM expired_item
      pure (some reply)
    else do
      let s ← get
      if s.expired.keys = [] then pure none
      else do
        reach env .drop_log
        modify fun s => { s with requests := live }
        pure none
  else pure none

/-- The lengths of the inputs and the rows of the outputs, for the prompts of the requests that are
left. -/
def run_model (requests : List InferenceRequest) (max_tokens : Int) :
    Call (List Nat × List (List Nat)) := do
  reach env .tokenizer
  let inputs := env.tokenizer (requests.map (·.prompt))
  let input_lens ← (List.range requests.length).mapM fun i => do
    reach env (.input_len i)
    let mask ← item inputs.attention_mask i
    pure (mask.count 1)
  let max_input_len ← largest input_lens
  let effective_max_tokens := max 1 (min max_tokens (MAX_NEW_TOKENS - max_input_len))
  reach env .synchronize
  reach env .generate
  let outputs := env.generate inputs effective_max_tokens
  reach env .synchronized
  pure (input_lens, outputs)

def gen_time_ms : ℚ := (env.t_gen_end - env.t_gen_start) * 1000

/-- The number of tokens and the text of a row, behind the prompt. -/
def decoded_row (width : Nat) (row : List Nat) : Nat × String :=
  let output_ids := row.drop width
  let output_len := output_ids.countP (· ≠ env.pad_token_id)
  (output_len, env.decode (output_ids.take output_len))

def tpot_ms (total_tokens : Nat) : ℚ :=
  if 0 < total_tokens then
    match truthy env.ttft_timer.t_first_token_perf with
    | some t_first_token_perf => (env.t_gen_end - t_first_token_perf) * 1000 / total_tokens
    | none => gen_time_ms env / total_tokens
  else 0

def throughput (tokens : Nat) : ℚ :=
  if 0 < gen_time_ms env then round_to 2 (tokens / (gen_time_ms env / 1000)) else 0

def queue_wait_ms (req : InferenceRequest) : ℚ :=
  match truthy batch.dispatch_time_wall with
  | some dispatch_time_wall =>
      if req.arrival_time_wall ≠ 0 then (dispatch_time_wall - req.arrival_time_wall) * 1000 else 0
  | none => 0

def ttft_ms (req : InferenceRequest) : ℚ :=
  let t_gen_start_wall := env.t_computed_wall - gen_time_ms env / 1000
  match truthy env.ttft_timer.t_first_token, truthy batch.dispatch_time_wall with
  | some t_first_token, some dispatch_time_wall => (t_first_token - dispatch_time_wall) * 1000
  | some t_first_token, none =>
      if req.arrival_time_wall ≠ 0 then (t_first_token - req.arrival_time_wall) * 1000
      else (t_gen_start_wall - req.arrival_time_wall) * 1000
  | none, _ => (t_gen_start_wall - req.arrival_time_wall) * 1000

/-- The answer to a request, from the length of its input and its decoded row. -/
def generation_result (worker : Worker) (batch_size total_tokens : Nat) (input_len : Nat)
    (decoded : Nat × String) (req : InferenceRequest) : Entry :=
  .success {
    text := decoded.2
    tokens := decoded.1
    input_tokens := input_len
    worker_id := worker.worker_id
    batch_id := batch.batch_id
    batch_size := batch_size
    e2e_ms := round_to 2 ((env.t_gen_end_wall - req.arrival_time_wall) * 1000)
    queue_wait_ms := round_to 2 (queue_wait_ms batch req)
    ttft_ms := round_to 2 (ttft_ms env batch req)
    tpot_ms := round_to 2 (tpot_ms env total_tokens)
    gen_time_ms := round_to 2 (gen_time_ms env)
    gen_throughput := throughput env decoded.1
    batch_throughput := throughput env total_tokens
    is_cold_start := worker.is_cold }

/-- The two passes over the outputs. -/
def build_results (input_lens : List Nat) (outputs : List (List Nat)) : Call (List Entry) := do
  let s ← get
  let batch_size := s.requests.length
  let width := (env.tokenizer (s.requests.map (·.prompt))).width
  let decoded ← (List.range batch_size).mapM fun i => do
    reach env (.decode i)
    let row ← item outputs i
    pure (decoded_row env width row)
  let total_tokens := (decoded.map (·.1)).sum
  reach env .throughput
  (List.range batch_size).mapM fun i => do
    reach env (.result i)
    let input_len ← item input_lens i
    let row ← item decoded i
    let req ← item s.requests i
    pure (generation_result env batch s.worker batch_size total_tokens input_len row req)

/-- What the worker remembers of a batch that went through. -/
def Worker.served (worker : Worker) : Worker :=
  match truthy env.ttft_timer.t_first_token with
  | some t_first_token =>
      let obs := max 0 (t_first_token - env.t_admit)
      { worker with
        is_cold := false
        post_admit_s :=
          if worker.post_admit_n = 0 then obs else 1 / 5 * obs + 4 / 5 * worker.post_admit_s
        post_admit_n := worker.post_admit_n + 1 }
  | none => { worker with is_cold := false }

/-- The loop that puts the answers back in place. -/
def merge (expired : OrderedDict Nat Entry) : List Nat → List Entry → Call (List Entry)
  | [], _ => pure []
  | i :: rest, live_iter =>
      match expired.find i, live_iter with
      | some entry, live_iter => do
          let merged ← merge expired rest live_iter
          pure (entry :: merged)
      | none, result :: live_iter => do
          let merged ← merge expired rest live_iter
          pure (result :: merged)
      -- `StopIteration`
      | none, [] => throw ""

/-- What is behind the generation. -/
def answer (input_lens : List Nat) (outputs : List (List Nat)) : Call (List Entry) := do
  let results ← build_results env batch input_lens outputs
  reach env .margin
  modify fun s => { s with worker := s.worker.served env }
  reach env .complete_log
  let s ← get
  if s.expired.keys = [] then pure results
  else do
    reach env .merge
    let merged ← merge s.expired (List.range batch.requests.length) results
    modify fun s => { s with requests := batch.requests }
    pure merged

/-- The body of the `try`. -/
def process : Call (List Entry) := do
  reach env .prompts
  reach env .max_tokens
  let max_tokens := batch.max_tokens
  reach env .start_log
  reach env .lock
  reach env .admit_clock
  modify fun s => { s with orig_requests := some s.requests }
  match ← prune env batch with
  | some reply => pure reply
  | none => do
      let s ← get
      let (input_lens, outputs) ← run_model env s.requests max_tokens
      answer env batch input_lens outputs

def start (worker : Worker) : Frame := { worker := worker, requests := batch.requests }

/-- `_orig_requests or batch.requests`, as the handler finds them. -/
def Frame.counted (s : Frame) : List InferenceRequest :=
  match s.orig_requests with
  | some (r :: rest) => r :: rest
  | _ => s.requests

def process_batch (worker : Worker) : List Entry :=
  match process env batch (start batch worker) with
  | .ok reply _ => reply
  | .error e s => List.replicate s.counted.length (.failed e)

/-- The exception that the processing ran into, if any. -/
def exception (worker : Worker) : Option String :=
  match process env batch (start batch worker) with
  | .ok _ _ => none
  | .error e _ => some e

end Call

end Serverless.Replies
