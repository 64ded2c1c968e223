import Mathlib.Algebra.GroupWithZero.Nat
import Mathlib.Data.List.Dedup

namespace Slora

abbrev Token := Nat

structure SamplingParams where
  max_new_tokens : Nat
  ignore_eos : Bool := false
  stop_sequences : List (List Token) := []

structure Req where
  adapter_dir : Option String
  request_id : String
  prompt_ids : List Token
  max_output_len : Nat
  sample_params : SamplingParams
  output_ids : List Token := []
  has_generate_finished : Bool := false
  aborted : Bool := false

namespace Req

/-- `__init__`. -/
def new (adapter_dir : Option String) (prompt_ids : List Token) (sample_params : SamplingParams)
    (request_id : String) : Req where
  adapter_dir := adapter_dir
  request_id := request_id
  prompt_ids := prompt_ids
  max_output_len := sample_params.max_new_tokens
  sample_params := sample_params

variable (req : Req)

def input_len : Nat := req.prompt_ids.length

/-- The last tokens of the output are those of some stop sequence. -/
def stop_sequences_matched : Bool :=
  req.sample_params.stop_sequences.any fun stop_token_ids =>
    let stop_len := stop_token_ids.length
    decide (0 < stop_len) && decide (stop_len ≤ req.output_ids.length) &&
      (List.range stop_len).all fun i =>
        req.output_ids[req.output_ids.length - (stop_len - i)]? == stop_token_ids[i]?

/-- Some test of `mark_finished_req` holds. -/
def ends (eos_id : Token) : Bool :=
  req.stop_sequences_matched ||
    (req.output_ids.getLast? == some eos_id && !req.sample_params.ignore_eos) ||
    (decide (req.max_output_len ≤ req.output_ids.length) || req.aborted)

def mark_finished (eos_id : Token) : Req :=
  { req with has_generate_finished := req.has_generate_finished || req.ends eos_id }

def abort : Req := { req with has_generate_finished := true, aborted := true }

def add_token_id (new_token_id : Token) : Req :=
  { req with output_ids := req.output_ids ++ [new_token_id] }

end Req

/-- Mark the request with this id as aborted, in a list of requests. -/
def abort_in (request_id : String) (reqs : List Req) : List Req :=
  reqs.map fun req => if req.request_id = request_id then req.abort else req

/-- The dictionary of the requests by their ids and the set of their adapters follow from the list
at all times. -/
structure Batch where
  batch_id : Nat
  reqs : List Req

namespace Batch

variable (batch : Batch)

def adapter_dirs : List (Option String) := (batch.reqs.map (·.adapter_dir)).dedup

def input_tokens : Nat := (batch.reqs.map (·.input_len)).sum

/-- `_add_token_id_to_req`. A request that is not in the batch raises. -/
def add_token_id_to_req (req_ans : List (String × Token)) : Option Batch :=
  if req_ans.all fun (req_id, _) => decide (req_id ∈ batch.reqs.map (·.request_id)) then
    some { batch with
      reqs := batch.reqs.map fun req => match req_ans.lookup req.request_id with
        | some new_token_id => req.add_token_id new_token_id
        | none => req }
  else none

/-- The flag tells whether a request has newly finished. -/
def mark_finished_req (eos_id : Token) : Batch × Bool :=
  ({ batch with reqs := batch.reqs.map (·.mark_finished eos_id) }, batch.reqs.any (·.ends eos_id))

def filter_finished : Batch :=
  { batch with reqs := batch.reqs.filter fun req => !req.has_generate_finished }

def is_clear : Bool := batch.reqs.isEmpty

def merge (mini_batch : Batch) : Batch := { batch with reqs := batch.reqs ++ mini_batch.reqs }

def abort (request_id : String) : Batch := { batch with reqs := abort_in request_id batch.reqs }

end Batch

end Slora
