import SwarmLoRA.Machine.System
import SwarmLoRA.Slora.Calls
import SwarmLoRA.Slora.ReqQueue

/-! The router. One task runs the batches, another takes in what clients send. The first waits
only for the calls to the worker, and there the other may come in. What comes in while a call is
under way might as well have come in just before it or just after what the router does with its
answer, so these are one step. -/
namespace Slora

/-- The call that the router makes next. Between two calls requests and aborts may come in; after an
exception the loop is dead. -/
inductive Phase where
  | top
  | load
  | init
  | prefill
  | settle
  | merge
  | prefetch (adapter_dirs : List (Option String))
  | decode (counted : Bool)
  | offload (counted : Bool)
  | settle_running (counted : Bool)
  | offload_all (has_wait_tokens : Nat)
  | dead
  deriving DecidableEq

/-- An entry of `reqs_infs`. -/
structure TokenOut where
  request_id : String
  new_token_id : Token
  has_generate_finished : Bool
  aborted : Bool

/-- What the server is started with: the queue, the limits, the adapters that are served and the
model. -/
structure Setup (σ V : Type) where
  scheduler : Scheduler σ
  limits : Limits
  pool_size_lora : Nat
  prefetch : Bool
  eos_id : Token
  adapters : List LoraAdapter
  model : Model V
  weights : String → List V

/-- `new_mini_batch` is the batch that is to join the running one. The last three are histories: the
requests as they came in, the ids for which an abort came in, and what has been sent on. -/
structure RouterManager (σ V : Type) where
  req_queue : σ
  running_batch : Option Batch := none
  new_mini_batch : Option Batch := none
  has_wait_tokens : Nat := 0
  worker : ModelRpcServer V
  pc : Phase := .top
  next_batch_id : Nat := 0
  received : List Req := []
  abort_ids : List String := []
  sent : List TokenOut := []

inductive Event where
  | step
  | add_req (adapter_dir : Option String) (prompt_ids : List Token)
      (sampling_params : SamplingParams) (request_id : String)
  | abort (request_id : String)

def max_wait_tokens : Nat := 10

namespace Setup

variable {σ V : Type} (setup : Setup σ V)

def lora_ranks : Ranks
  | none => some 0
  | some dir => (setup.adapters.find? (·.lora_dir == dir)).map (·.r)

end Setup

namespace RouterManager

section

variable {σ V : Type} (setup : Setup σ V) (self : RouterManager σ V)

/-- The batch that is being prefilled. -/
def incoming : Option Batch := self.new_mini_batch.or self.running_batch

def set_incoming (batch : Batch) : RouterManager σ V :=
  match self.new_mini_batch with
  | some _ => { self with new_mini_batch := some batch }
  | none => { self with running_batch := some batch }

/-- `_step` up to its first call. -/
def choose : Option (RouterManager σ V) :=
  match self.running_batch with
  | none =>
      (setup.scheduler.generate_new_batch setup.lora_ranks self.req_queue none).map
        fun (req_queue, new_batch) => match new_batch with
          | none => { self with req_queue }
          | some reqs =>
              { self with
                req_queue
                running_batch := some ⟨self.next_batch_id, reqs⟩
                next_batch_id := self.next_batch_id + 1
                pc := .load }
  | some batch =>
      if self.has_wait_tokens < max_wait_tokens then
        if setup.prefetch && (self.has_wait_tokens == max_wait_tokens / 2 ||
            self.has_wait_tokens == max_wait_tokens - 3) then
          (setup.scheduler.next_batch self.req_queue).map fun next_batch => match next_batch with
            | none => { self with pc := .decode true }
            | some reqs => { self with pc := .prefetch (Batch.adapter_dirs ⟨0, reqs⟩) }
        else some { self with pc := .decode true }
      else
        (setup.scheduler.generate_new_batch setup.lora_ranks self.req_queue (some batch)).map
          fun (req_queue, new_mini_batch) => match new_mini_batch with
            | none => { self with req_queue, pc := .decode false }
            | some reqs =>
                { self with
                  req_queue
                  new_mini_batch := some ⟨self.next_batch_id, reqs⟩
                  next_batch_id := self.next_batch_id + 1
                  pc := .load }

/-- A pass has answered: the tokens are added to their requests and sent on, and requests that end
leave the batch. -/
def take_answer (batch : Batch) (req_ans : List (String × Token)) :
    Option (Batch × Bool × List TokenOut) :=
  (batch.add_token_id_to_req req_ans).map fun batch =>
    let (batch, has_new_finished_req) := batch.mark_finished_req setup.eos_id
    let reqs_infs := req_ans.filterMap fun (req_id, new_token_id) =>
      (batch.reqs.find? (·.request_id == req_id)).map fun req =>
        ⟨req_id, new_token_id, req.has_generate_finished, req.aborted⟩
    (if has_new_finished_req then batch.filter_finished else batch, has_new_finished_req, reqs_infs)

/-- `_filter_runing_batch` and what comes after it. -/
def filter_running_batch (has_wait_tokens : Nat) : RouterManager σ V :=
  match self.running_batch with
  | none => { self with has_wait_tokens, pc := .top }
  | some batch =>
      if batch.is_clear then { self with pc := .offload_all has_wait_tokens }
      else { self with has_wait_tokens, pc := .top }

/-- What comes after `_prefill_batch`. -/
def prefilled : RouterManager σ V :=
  match self.new_mini_batch with
  | some mini_batch =>
      if mini_batch.is_clear then
        { self with new_mini_batch := none, has_wait_tokens := 0, pc := .top }
      else { self with pc := .merge }
  | none => self.filter_running_batch 0

/-- What comes after `_decode_batch`. -/
def decoded (counted : Bool) : RouterManager σ V :=
  self.filter_running_batch (if counted then self.has_wait_tokens + 1 else self.has_wait_tokens)

/-- `_remove_batch` or `_filter_batch`, for a batch that requests have left. -/
def settle_batch (batch : Batch) : Option (ModelRpcServer V) :=
  if batch.is_clear then self.worker.remove_batch batch.batch_id
  else self.worker.filter_batch batch.batch_id (batch.reqs.map (·.request_id))

/-- The next step of the task that runs the batches. -/
def advance : Option (RouterManager σ V) :=
  match self.pc with
  | .top => self.choose setup
  | .load => self.incoming.bind fun batch =>
      (self.worker.load_adapters setup.adapters setup.weights batch.adapter_dirs false).map
        fun worker => { self with worker, pc := .init }
  | .init => self.incoming.bind fun batch =>
      (self.worker.add_batch batch.batch_id batch.reqs).map fun worker =>
        { self with worker, pc := .prefill }
  | .prefill => self.incoming.bind fun batch =>
      (self.worker.forward setup.model batch.batch_id true).bind fun (worker, req_ans) =>
        (take_answer setup batch req_ans).map fun (batch, has_new_finished_req, reqs_infs) =>
          let self := { self.set_incoming batch with worker, sent := self.sent ++ reqs_infs }
          if has_new_finished_req then { self with pc := .settle } else self.prefilled
  | .settle => self.incoming.bind fun batch =>
      (self.settle_batch batch).map fun worker => prefilled { self with worker }
  | .merge => self.running_batch.bind fun batch => self.new_mini_batch.bind fun mini_batch =>
      (self.worker.merge_batch batch.batch_id mini_batch.batch_id).map fun worker =>
        { self with
          worker
          running_batch := some (batch.merge mini_batch)
          new_mini_batch := none
          has_wait_tokens := 0
          pc := .top }
  | .prefetch adapter_dirs =>
      (self.worker.load_adapters setup.adapters setup.weights adapter_dirs true).map
        fun worker => { self with worker, pc := .decode true }
  | .decode counted => self.running_batch.bind fun batch =>
      (setup.scheduler.update_counter self.req_queue batch).bind fun req_queue =>
        (self.worker.forward setup.model batch.batch_id false).bind fun (worker, req_ans) =>
          (take_answer setup batch req_ans).map fun (batch, has_new_finished_req, reqs_infs) =>
            let self := { self with
              req_queue, worker, running_batch := some batch, sent := self.sent ++ reqs_infs }
            if has_new_finished_req then { self with pc := .offload counted }
            else self.decoded counted
  | .offload counted => self.running_batch.bind fun batch =>
      (self.worker.offload_adapters batch.adapter_dirs).map fun worker =>
        { self with worker, pc := .settle_running counted }
  | .settle_running counted => self.running_batch.bind fun batch =>
      (self.settle_batch batch).map fun worker => decoded { self with worker } counted
  | .offload_all has_wait_tokens =>
      (self.worker.offload_adapters []).map fun worker =>
        { self with worker, running_batch := none, has_wait_tokens, pc := .top }
  | .dead => none

def add_req (adapter_dir : Option String) (prompt_ids : List Token)
    (sampling_params : SamplingParams) (request_id : String) : RouterManager σ V :=
  let req := Req.new adapter_dir prompt_ids sampling_params request_id
  { self with
    req_queue := setup.scheduler.append self.req_queue req
    received := self.received ++ [req] }

/-- The running batch and the queue are searched. A batch that is to join them is not. -/
def abort (request_id : String) : RouterManager σ V :=
  { self with
    req_queue := setup.scheduler.abort request_id self.req_queue
    running_batch := self.running_batch.map (·.abort request_id)
    abort_ids := self.abort_ids ++ [request_id] }

/-- An exception ends the task that runs the batches, and the other one goes on. -/
def step : Event → Option (RouterManager σ V)
  | .step => some ((self.advance setup).getD { self with pc := .dead })
  | .add_req adapter_dir prompt_ids sampling_params request_id =>
      some (self.add_req setup adapter_dir prompt_ids sampling_params request_id)
  | .abort request_id => some (self.abort setup request_id)

end

/-- The router with an empty queue, a worker with an empty pool, and all the cells of the pool to
hand out. -/
def machine {σ V : Type} (setup : Setup σ V) (queue : σ) (buffer : Nat → V) :
    Machine.System (RouterManager σ V) Event where
  initial self := self =
    { req_queue := queue
      worker :=
        { cache := []
          infer_adapter := {}
          memory :=
            { mem_manager := .new (setup.limits.max_total_tokens + setup.pool_size_lora)
              buffer } } }
  step self := self.step setup

end RouterManager

end Slora
