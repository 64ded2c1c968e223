import SwarmLoRA.Ipc.Command
import SwarmLoRA.Aggregator.SlotPool

/-! The slot barrier: one aggregator loop, any number of workers with one slot each, and the
connection threads that serve their claims and releases. Here are the states of the parties;
every atomic access to shared memory is one step. -/
namespace Barrier

open Ipc Aggregator

/-- Safety cap on the commands taken off the ring in one drain. -/
def MAX_DRAIN : Nat := MAX_SLOTS + 8

/-- What a worker submits. `round` is a history variable: the epoch that the worker
captured before it submitted. -/
structure Submission where
  op_type : Int
  layer_idx : Int
  slot_id : Slot
  worker_id : Nat
  round : Nat
  deriving DecidableEq

/-- The field writes of a submission are one step here; the ring itself is studied
field by field in its own module. -/
def Submission.layout : Layout Submission where
  writes := [fun submitted _ => submitted]
  complete := fun _ _ => rfl

/-- What the executor leaves in an output buffer: the result of one command on the
input it found. `token_id` is the sampled token, of use for the LM head only. -/
structure Output where
  op_type : Int
  layer_idx : Int
  input : Nat
  round : Nat
  token_id : Nat
  deriving DecidableEq

/-- A token of a request. `fresh` is a history variable: the token was sampled in
the round for which the worker had submitted its LM head command. -/
structure Token where
  token_id : Nat
  fresh : Bool
  deriving DecidableEq

/-- Where a worker stands within one operation. The epoch is captured first, the
input buffer is written next, and both stay until the output has been read. -/
inductive Stage where
  | capture
  | prepare (epoch : Nat)
  | submit (epoch input : Nat) (pc : SubmitPc)
  | signal (epoch input : Nat)
  | wait (epoch input : Nat)
  | fetch (epoch input : Nat)
  deriving DecidableEq

/-- Where a request of a worker stands. `succeeded` tells the completion path from
the paths that fail the request. `claimed` and `released` are the time between the
atomic change of ownership and the reply of the connection thread. -/
inductive WorkerPc where
  | idle
  | claiming
  | claimed (slot : Slot)
  | prepared (slot : Slot)
  | polling (slot : Slot)
  | tokenStart (slot : Slot)
  | op (slot : Slot) (op_idx : Nat) (stage : Stage)
  | tokenEnd (slot : Slot)
  | leave (slot : Slot) (succeeded : Bool)
  | awaitLeave (slot : Slot)
  | release (slot : Slot) (succeeded : Bool)
  | releasing (slot : Slot) (succeeded : Bool)
  | released (succeeded : Bool)
  deriving DecidableEq

/-- The slot that the aggregator records as the worker's. -/
def WorkerPc.slot : WorkerPc → Option Slot
  | .idle | .claiming | .released _ => none
  | .claimed i | .prepared i | .polling i | .tokenStart i | .op i _ _ | .tokenEnd i
  | .leave i _ | .awaitLeave i | .release i _ | .releasing i _ => some i

/-- The request is being generated: its slot may be activated at any time and it
has neither completed nor failed. -/
def WorkerPc.generating : WorkerPc → Bool
  | .polling _ | .tokenStart _ | .op _ _ _ | .tokenEnd _ => true
  | _ => false

/-- The disconnect handler of a worker's connection: it looks for slots the worker
still owns, signals their leave, sleeps, and then releases them. -/
inductive Handler where
  | scanning
  | sleeping (slot : Slot)
  | done
  deriving DecidableEq

/-- `evicted` is a history variable: the aggregator has evicted the slot while the
current request was being generated. -/
structure Worker where
  pc : WorkerPc
  crashed : Bool
  handler : Handler
  max_tokens : Nat
  prefill_chunks : Nat
  generated_tokens : List Token
  evicted : Bool
  deriving DecidableEq

/-- Where the main loop stands. A load, an exchange or a store of a whole mask takes
two steps, for word 0 and word 1. -/
inductive AggregatorPc where
  | top
  | loadLeaves (k : Fin 2)
  | exchangeLeaves (k : Fin 2)
  | loadJoins (k : Fin 2)
  | exchangeJoins (k : Fin 2)
  | storeActive (k : Fin 2)
  | loadReady (k : Fin 2)
  | decide
  | loadMidLeaves (k : Fin 2)
  | clearMidLeaves (k : Fin 2)
  | storeMidLeaves (k : Fin 2)
  | evictCheck
  | loadStuck (k : Fin 2)
  | storeEvicted (k : Fin 2)
  | signalEvicted
  | fetch
  | spin
  | take
  | storeTail
  | execute
  | loadActive (k : Fin 2)
  | clearReady (k : Fin 2)
  | advanceEpoch
  | stopped
  | threw
  deriving DecidableEq

/-- The locals of the main loop. `seen` is the mask loaded last and `stuck` the
slots that are being removed in the middle of an operation. `tickets`, `taken`,
`finished` and `horizon` are history variables: the tickets of the batch, how many
commands have been taken off the ring and how many are done with, and how many had
been reserved when the current drain began. -/
structure AggregatorState where
  pc : AggregatorPc
  active_mask : SlotMask
  leaves : SlotMask
  joins : SlotMask
  seen : SlotMask
  stuck : SlotMask
  N : Nat
  op_idx : Nat
  tail : Nat
  drained : Nat
  commands : List Nat
  breaking : Bool
  tickets : List Nat
  taken : Nat
  finished : Nat
  horizon : Nat
  deriving DecidableEq

/-- Why a request's future was completed. -/
structure Completion where
  worker_id : Nat
  success : Bool
  evicted : Bool
  tokens : List Token
  deriving DecidableEq

/-- `tenancy` counts the claims of a slot; the tags hold the tenancy in which the
last join and the last leave were signalled and the last join was processed. These
and `completions` are history variables. -/
structure State where
  pool : SlotPool
  ctrl : ControlBlock
  ring : CommandRing Submission
  calls : Nat → Call
  workers : Nat → Worker
  agg : AggregatorState
  input : Slot → Nat
  output : Slot → Output
  tenancy : Slot → Nat
  joinTag : Slot → Nat
  leaveTag : Slot → Nat
  processedTag : Slot → Nat
  completions : List Completion

/-- The model that is served: its layers and its end-of-sequence token. -/
structure Config where
  num_layers : Nat
  eos_token_id : Option Nat

namespace Config

/-- One embed, four operations a layer, one LM head. -/
def ops_per_token (c : Config) : Nat := 1 + c.num_layers * 4 + 1

/-- The operation with this index within a token, and its layer. -/
def opAt (c : Config) (op_idx : Nat) : Int × Int :=
  if op_idx = 0 then (OP_EMBED, 0)
  else if op_idx = c.num_layers * 4 + 1 then (OP_LM_HEAD, 0)
  else
    let op := match (op_idx - 1) % 4 with
      | 0 => OP_QKV_FUSED
      | 1 => OP_O_PROJ
      | 2 => OP_GATE_UP_FUSED
      | _ => OP_DOWN_PROJ
    (op, (((op_idx - 1) / 4 : Nat) : Int))

/-- The command that worker `p` submits for this operation. -/
def submission (c : Config) (op_idx : Nat) (i : Slot) (p epoch : Nat) : Submission :=
  ⟨(c.opAt op_idx).1, (c.opAt op_idx).2, i, p, epoch⟩

end Config

/-- The choices that the code leaves open: which party moves, how races on the
clock fall out, and what the outside world brings. -/
inductive Label where
  /-- A request arrives at an idle worker, with its prompt split into chunks. -/
  | request (p max_tokens prefill_chunks : Nat)
  /-- The worker makes its next step; `input` is the value that it computes. -/
  | work (p input : Nat) (spurious : Bool)
  /-- The activation timeout or the leave timeout of the worker has passed. -/
  | timeout (p : Nat)
  /-- An exception in the worker's inference loop. -/
  | fail (p : Nat)
  /-- The connection thread makes the next step of a claim or a release. -/
  | rpc (p : Nat) (spurious : Bool)
  | crash (p : Nat)
  /-- The disconnect handler finds slot `slot` owned by the crashed worker. -/
  | disconnect (p : Nat) (slot : Slot)
  /-- The disconnect handler has slept long enough. -/
  | deferredRelease (p : Nat)
  /-- The main loop makes its next step. The flags say whether a timer or a spin
  limit has run out; `sample` holds the tokens that the LM head would sample. -/
  | aggregate (timerExpired : Bool) (sample : Slot → Nat)

end Barrier
