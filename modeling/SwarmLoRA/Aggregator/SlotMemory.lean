import SwarmLoRA.Ipc.Command
import SwarmLoRA.Aggregator.SlotPool

/-! Which bytes of the slot buffers the batched executors touch. The buffers are sized once from
the model dimensions and `max_seq_per_step`; a command brings its own batch and sequence length.
-/
namespace Aggregator

open Ipc

/-- The widths of one layer's fused weights. `o_weight` and `down_weight` have
`hidden_dim` rows and bring no width of their own. -/
structure LayerWeights where
  q_dim : Nat
  k_dim : Nat
  v_dim : Nat
  gate_dim : Nat
  up_dim : Nat

/-- What the executors read besides the commands. `element_size` is the size in
bytes of the dtype that the main loop was started with. -/
structure Executor where
  pool : SlotPool
  num_layers : Int
  layer_weights : Int → LayerWeights
  embed_lm_head_initialized : Bool
  element_size : Nat

inductive Buffer where
  | input
  | output
  deriving DecidableEq

/-- A range of bytes of a slot's buffer that is read or written on behalf of the
command at position `index` of the batch. -/
structure Access where
  index : Nat
  slot_id : Int
  buffer : Buffer
  writes : Bool
  offset : Nat
  bytes : Nat
  deriving DecidableEq

/-- Every access to the buffers before the executor returns or throws, in order, and the text of the
exception if it throws. -/
structure Outcome where
  accesses : List Access := []
  error : Option String := none
  deriving DecidableEq

/-- `bx * tx`, not negative for a command that was accepted. -/
def tokens (c : Command) : Nat := (c.bx * c.tx).toNat

/-- The owner that `VERIFY_SLOT_OWNER` reads. -/
def slot_owner (pool : SlotPool) (slot_id : Int) : Int :=
  match slotOf slot_id with
  | some slot => pool.owner_worker_id slot
  | none => -1

/-- The checks of one command before its buffers are used: the slot's range, the
owner, and on some paths once more the shape. The texts differ from path to path. -/
def check_command (pool : SlotPool) (invalid_slot : Command → String) (context : String)
    (invalid_shape : Option String) (c : Command) : Option String :=
  if c.slot_id < 0 ∨ pool.num_slots ≤ c.slot_id then some (invalid_slot c)
  else if slot_owner pool c.slot_id ≠ c.worker_id then
    some (context ++ ": worker " ++ toString c.worker_id ++ " does not own slot " ++
      toString c.slot_id ++ " (owner=" ++ toString (slot_owner pool c.slot_id) ++ ")")
  else if c.bx ≤ 0 ∨ c.tx ≤ 0 ∨ 65536 < c.bx ∨ 65536 < c.tx then invalid_shape
  else none

/-- A read of the input buffer from `offset`, as a view of it is gathered. -/
def readInput (index : Nat) (c : Command) (offset bytes : Nat) : Access :=
  ⟨index, c.slot_id, .input, false, offset, bytes⟩

/-- A write of the output buffer from its start. -/
def writeOutput (index : Nat) (c : Command) (bytes : Nat) : Access :=
  ⟨index, c.slot_id, .output, true, 0, bytes⟩

/-- Columns of the input of a GEMM. -/
def gemm_input_dim (e : Executor) (op : Int) : Nat :=
  if op = OP_DOWN_PROJ then e.pool.intermediate_dim else e.pool.hidden_dim

/-- Columns of the output of a GEMM; an unknown op computes nothing. -/
def gemm_output_dim (e : Executor) (op layer : Int) : Option Nat :=
  let lw := e.layer_weights layer
  if op = OP_QKV_FUSED then some (lw.q_dim + lw.k_dim + lw.v_dim)
  else if op = OP_O_PROJ then some e.pool.hidden_dim
  else if op = OP_GATE_UP_FUSED then some (lw.gate_dim + lw.up_dim)
  else if op = OP_DOWN_PROJ then some e.pool.hidden_dim
  else none

/-- The first check that fails over the batch. A batch of one takes a path of its
own in every executor, with texts of its own. -/
def first_failure (single batched : Command → Option String) (commands : List Command) :
    Option String :=
  match commands with
  | [c] => single c
  | commands => commands.findSome? batched

/-- An executor goes on to the buffers only if no check fails. -/
def guarded (failure : Option String) (accesses : List Access) : Outcome :=
  match failure with
  | some error => { error := some error }
  | none => { accesses := accesses }

/-- The batched path gathers its inputs before it looks at the op, so there an
unknown op still reads them; it is also the one path that checks no shape. -/
def execute_batched_gemm_slots (e : Executor) (commands : List Command) (op layer : Int) :
    Outcome :=
  if commands = [] then {}
  else if layer < 0 ∨ e.num_layers ≤ layer then
    { error := some ("execute_batched_gemm_slots: layer_idx " ++ toString layer ++
      " out of range [0, " ++ toString e.num_layers ++ ")") }
  else
    let failure := first_failure
      (check_command e.pool
        (fun c => "execute_batched_gemm: invalid slot_id: " ++ toString c.slot_id)
        "execute_batched_gemm N=1" (some "execute_batched_gemm: invalid bx/tx dimensions"))
      (check_command e.pool (fun _ => "Invalid slot_id in command")
        "execute_batched_gemm N>1" none)
      commands
    let gathered := commands.mapIdx fun i c =>
      readInput i c 0 (tokens c * (gemm_input_dim e op * e.element_size))
    match gemm_output_dim e op layer with
    | none => guarded failure (if commands.length = 1 then [] else gathered)
    | some output_dim =>
        let scattered := commands.mapIdx fun i c =>
          writeOutput i c (tokens c * (output_dim * e.element_size))
        guarded failure (gathered ++ scattered)

/-- Token ids are eight bytes each; the embeddings are rows of `hidden_dim`. -/
def execute_batched_embed_slots (e : Executor) (commands : List Command) : Outcome :=
  if commands = [] ∨ e.embed_lm_head_initialized = false then {}
  else
    let failure := first_failure
      (check_command e.pool
        (fun c => "execute_batched_embed: invalid slot_id: " ++ toString c.slot_id)
        "execute_batched_embed N=1" (some "execute_batched_embed: invalid bx/tx dimensions"))
      (check_command e.pool
        (fun c => "execute_batched_embed N>1: invalid slot_id: " ++ toString c.slot_id)
        "execute_batched_embed N>1" (some "execute_batched_embed N>1: invalid bx/tx dimensions"))
      commands
    let gathered := commands.mapIdx fun i c => readInput i c 0 (tokens c * 8)
    let scattered := commands.mapIdx fun i c =>
      writeOutput i c (tokens c * (e.pool.hidden_dim * e.element_size))
    guarded failure (gathered ++ scattered)

/-- Only the last row of each input is read, and one token id is written. -/
def execute_batched_lm_head_sample_slots (e : Executor) (commands : List Command) : Outcome :=
  match commands with
  | [] => {}
  | first :: rest =>
      if e.embed_lm_head_initialized = false then {}
      else if first.worker_id < 0 ∨ 100000 < first.worker_id then
        { error := some ("execute_batched_lm_head: invalid worker_id: " ++
          toString first.worker_id) }
      else
        let failure := first_failure
          (check_command e.pool
            (fun c => "execute_batched_lm_head: invalid slot_id: " ++ toString c.slot_id)
            "execute_batched_lm_head N=1"
            (some "execute_batched_lm_head: invalid bx/tx dimensions"))
          (check_command e.pool
            (fun c => "execute_batched_lm_head N>1: invalid slot_id: " ++ toString c.slot_id)
            "execute_batched_lm_head N>1"
            (some "execute_batched_lm_head N>1: invalid bx/tx dimensions"))
          (first :: rest)
        let row := e.pool.hidden_dim * e.element_size
        let gathered := (first :: rest).mapIdx fun i c =>
          readInput i c ((tokens c - 1) * row) row
        let scattered := (first :: rest).mapIdx fun i c => writeOutput i c 8
        guarded failure (gathered ++ scattered)

/-- The dispatch of the main loop on the op of the first command. Setting sampling
parameters touches no slot buffer. -/
def execute (e : Executor) (commands : List Command) : Outcome :=
  match commands with
  | [] => {}
  | first :: _ =>
      if first.op_type = OP_SET_SAMPLING then {}
      else if first.op_type = OP_EMBED then execute_batched_embed_slots e commands
      else if first.op_type = OP_LM_HEAD then execute_batched_lm_head_sample_slots e commands
      else execute_batched_gemm_slots e commands first.op_type first.layer_idx

/-- Every access is on behalf of a command of the batch, in that command's own
slot, a read inside the input buffer or a write inside the output buffer. -/
def Isolated (pool : SlotPool) (commands : List Command) (outcome : Outcome) : Prop :=
  ∀ a ∈ outcome.accesses, ∃ c, commands[a.index]? = some c ∧ a.slot_id = c.slot_id ∧
    match a.buffer with
    | .input => a.writes = false ∧ a.offset + a.bytes ≤ pool.input_buffer_size
    | .output => a.writes = true ∧ a.offset + a.bytes ≤ pool.output_buffer_size

/-- The dimensions that the pool is sized from. -/
structure ModelDims where
  hidden_dim : Nat
  intermediate_dim : Nat
  num_kv_heads : Nat
  head_dim : Nat
  max_seq_per_step : Nat
  dtype_size : Nat

/-- The pool has the dimensions and the buffer sizes with which `init_slot_pool`
set it up. Its masks and owners may have changed since. -/
def InitializedWith (pool : SlotPool) (d : ModelDims) : Prop :=
  ∃ cudaMalloc num_slots made,
    init_slot_pool cudaMalloc num_slots d.hidden_dim d.intermediate_dim d.num_kv_heads d.head_dim
      d.max_seq_per_step d.dtype_size = some made ∧
    pool = { made with
      free_mask := pool.free_mask, active_mask := pool.active_mask
      owner_worker_id := pool.owner_worker_id }

/-- Bytes of an input buffer. -/
def ModelDims.input_capacity (d : ModelDims) : Nat :=
  d.max_seq_per_step * max d.intermediate_dim d.hidden_dim * d.dtype_size % 2 ^ 64

/-- Columns that an output buffer has for each token: the wider of the two fused
outputs, as the 32-bit arithmetic of `init_slot_pool` computes them. -/
def ModelDims.output_width (d : ModelDims) : Nat :=
  size_of_int (max (int_wrap (d.intermediate_dim * 2))
    (int_wrap (d.hidden_dim + d.num_kv_heads * d.head_dim * 2)))

/-- Bytes of an output buffer. -/
def ModelDims.output_capacity (d : ModelDims) : Nat :=
  d.max_seq_per_step * d.output_width * d.dtype_size % 2 ^ 64

/-- The number of rows of `row` bytes is at most the number that the capacity has
room for. -/
def RowsFit (rows row capacity : Nat) : Prop := row = 0 ∨ rows ≤ capacity / row

/-- The bound on `bx * tx` for each op: as many tokens as the input buffer has room
for rows of the op's input and the output buffer for rows of its output. -/
def WithinTokenLimit (e : Executor) (d : ModelDims) (batch : Nat) (op layer : Int)
    (c : Command) : Prop :=
  let hidden_row := d.hidden_dim * e.element_size
  if op = OP_SET_SAMPLING then True
  else if op = OP_EMBED then
    RowsFit (tokens c) 8 d.input_capacity ∧ RowsFit (tokens c) hidden_row d.output_capacity
  else if op = OP_LM_HEAD then
    RowsFit (tokens c) hidden_row d.input_capacity ∧ 8 ≤ d.output_capacity
  else
    let input_row :=
      (if op = OP_DOWN_PROJ then d.intermediate_dim else d.hidden_dim) * e.element_size
    match gemm_output_dim e op layer with
    | none => batch = 1 ∨ RowsFit (tokens c) input_row d.input_capacity
    | some output_dim => RowsFit (tokens c) input_row d.input_capacity ∧
        RowsFit (tokens c) (output_dim * e.element_size) d.output_capacity

/-- The checks that stop an accepted batch before its first access. -/
def Rejected (e : Executor) (commands : List Command) (op layer : Int) : Prop :=
  op ≠ OP_SET_SAMPLING ∧
  ((∃ c ∈ commands, e.pool.num_slots ≤ c.slot_id ∨ slot_owner e.pool c.slot_id ≠ c.worker_id) ∨
    if op = OP_EMBED ∨ op = OP_LM_HEAD then e.embed_lm_head_initialized = false
    else layer < 0 ∨ e.num_layers ≤ layer)

theorem rowsFit_iff {rows row capacity : Nat} :
    RowsFit rows row capacity ↔ rows * row ≤ capacity := by
  unfold RowsFit
  rcases Nat.eq_zero_or_pos row with rfl | hPos
  · simp
  · rw [Nat.le_div_iff_mul_le hPos]
    omega

theorem InitializedWith.sizes {pool : SlotPool} {d : ModelDims} (h : InitializedWith pool d) :
    pool.hidden_dim = d.hidden_dim ∧ pool.intermediate_dim = d.intermediate_dim ∧
    pool.input_buffer_size = d.input_capacity ∧ pool.output_buffer_size = d.output_capacity := by
  obtain ⟨cudaMalloc, num_slots, made, hMade, hPool⟩ := h
  simp only [init_slot_pool, Option.ite_none_left_eq_some, Option.ite_none_right_eq_some,
    Option.some.injEq] at hMade
  obtain ⟨-, -, rfl⟩ := hMade
  rw [hPool]
  simp only [size_mul, ModelDims.input_capacity, ModelDims.output_capacity,
    ModelDims.output_width, Nat.mod_mul_mod]
  exact ⟨trivial, trivial, trivial, trivial⟩

section Isolation

variable {pool : SlotPool} {e : Executor} {d : ModelDims} {commands : List Command}

theorem isolated_of_no_access {outcome : Outcome} (h : outcome.accesses = []) :
    Isolated pool commands outcome := by
  intro a ha
  simp [h] at ha

theorem isolated_gathered (error : Option String) (offset bytes : Command → Nat) :
    Isolated pool commands
      ⟨commands.mapIdx fun i c => readInput i c (offset c) (bytes c), error⟩ ↔
    ∀ c ∈ commands, offset c + bytes c ≤ pool.input_buffer_size := by
  constructor
  · intro h c hc
    obtain ⟨i, hi, rfl⟩ := List.mem_iff_getElem.mp hc
    obtain ⟨_, -, -, -, hBound⟩ := h (readInput i commands[i] (offset commands[i])
      (bytes commands[i])) (List.mem_mapIdx.mpr ⟨i, hi, rfl⟩)
    exact hBound
  · intro h a ha
    obtain ⟨i, hi, rfl⟩ := List.mem_mapIdx.mp ha
    exact ⟨commands[i], List.getElem?_eq_getElem hi, rfl, rfl, h _ (List.getElem_mem hi)⟩

/-- A batch that is gathered and scattered is isolated if and only if each of its
commands stays within both of its buffers. -/
theorem isolated_scattered {error : Option String} (offset bytes out : Command → Nat) :
    Isolated pool commands
      ⟨(commands.mapIdx fun i c => readInput i c (offset c) (bytes c)) ++
        commands.mapIdx fun i c => writeOutput i c (out c), error⟩ ↔
    ∀ c ∈ commands, offset c + bytes c ≤ pool.input_buffer_size ∧
      out c ≤ pool.output_buffer_size := by
  constructor
  · intro h c hc
    have hRead := (isolated_gathered error offset bytes).mp
      fun a ha => h a (List.mem_append_left _ ha)
    refine ⟨hRead c hc, ?_⟩
    obtain ⟨i, hi, rfl⟩ := List.mem_iff_getElem.mp hc
    obtain ⟨_, -, -, -, hBound⟩ := h (writeOutput i commands[i] (out commands[i]))
      (List.mem_append_right _ (List.mem_mapIdx.mpr ⟨i, hi, rfl⟩))
    simpa [writeOutput] using hBound
  · intro h a ha
    rcases List.mem_append.mp ha with hRead | hWrite
    · exact (isolated_gathered error offset bytes).mpr (fun c hc => (h c hc).1) a hRead
    · obtain ⟨i, hi, rfl⟩ := List.mem_mapIdx.mp hWrite
      refine ⟨commands[i], List.getElem?_eq_getElem hi, rfl, rfl, ?_⟩
      simpa [writeOutput] using (h _ (List.getElem_mem hi)).2

/-- Whatever its texts, the check of an accepted command comes down to the size of
the pool and the owner of the slot. -/
theorem check_command_none {invalid_slot : Command → String} {context : String}
    {invalid_shape : Option String} {c : Command}
    (hAccepted : submit_slot_command_check c = .ok ()) :
    check_command pool invalid_slot context invalid_shape c = none ↔
      ¬ (pool.num_slots ≤ c.slot_id ∨ slot_owner pool c.slot_id ≠ c.worker_id) := by
  obtain ⟨hSlot, hWorker, hBx, hTx⟩ := submit_slot_command_check_ok hAccepted
  unfold check_command
  split
  next h => simp only [reduceCtorEq, false_iff]; omega
  next h =>
    split
    next hOwner => simp [hOwner]
    next hOwner =>
      rw [if_neg (by omega)]
      simp only [true_iff]
      omega

/-- The slot of some command is outside the pool or not its worker's. -/
def Disowned (pool : SlotPool) (commands : List Command) : Prop :=
  ∃ c ∈ commands, pool.num_slots ≤ c.slot_id ∨ slot_owner pool c.slot_id ≠ c.worker_id

theorem first_failure_none {slot slot' : Command → String} {context context' : String}
    {shape shape' : Option String}
    (hAccepted : ∀ c ∈ commands, submit_slot_command_check c = .ok ()) :
    first_failure (check_command pool slot context shape)
      (check_command pool slot' context' shape') commands = none ↔ ¬ Disowned pool commands := by
  unfold first_failure Disowned
  split
  next c => simpa using check_command_none (hAccepted c (List.mem_singleton_self c))
  next =>
    rw [List.findSome?_eq_none_iff]
    constructor
    · rintro h ⟨c, hc, hBad⟩
      exact (check_command_none (hAccepted c hc)).mp (h c hc) hBad
    · intro h c hc
      exact (check_command_none (hAccepted c hc)).mpr fun hBad => h ⟨c, hc, hBad⟩

/-- A batch is isolated if its checks stop it or if its accesses are. -/
theorem isolated_guarded {failure : Option String} {accesses : List Access}
    (hFailure : failure = none ↔ ¬ Disowned pool commands) :
    Isolated pool commands (guarded failure accesses) ↔
      Disowned pool commands ∨ Isolated pool commands { accesses := accesses } := by
  cases failure with
  | none =>
      rw [or_iff_right (hFailure.mp rfl)]
      rfl
  | some error =>
      have : Disowned pool commands := by
        by_contra h
        simpa using hFailure.mpr h
      exact iff_of_true (isolated_of_no_access rfl) (.inl this)

theorem tokens_pos {c : Command} (hAccepted : submit_slot_command_check c = .ok ()) :
    0 < tokens c := by
  obtain ⟨-, -, hBx, hTx⟩ := submit_slot_command_check_ok hAccepted
  have : 0 < c.bx * c.tx := Int.mul_pos hBx.1 hTx.1
  unfold tokens
  omega

theorem embed_isolated_iff (hSizes : InitializedWith e.pool d)
    (hNonempty : commands ≠ [])
    (hAccepted : ∀ c ∈ commands, submit_slot_command_check c = .ok ()) :
    Isolated e.pool commands (execute_batched_embed_slots e commands) ↔
      (Disowned e.pool commands ∨ e.embed_lm_head_initialized = false) ∨
      ∀ c ∈ commands, RowsFit (tokens c) 8 d.input_capacity ∧
        RowsFit (tokens c) (d.hidden_dim * e.element_size) d.output_capacity := by
  obtain ⟨hHidden, -, hInput, hOutput⟩ := hSizes.sizes
  unfold execute_batched_embed_slots
  by_cases hReady : e.embed_lm_head_initialized = false
  · rw [if_pos (.inr hReady)]
    exact iff_of_true (isolated_of_no_access rfl) (.inl (.inr hReady))
  · rw [if_neg (by simp [hNonempty, hReady]), or_iff_left hReady,
      isolated_guarded (first_failure_none hAccepted), isolated_scattered]
    simp only [hInput, hOutput, hHidden, rowsFit_iff, Nat.zero_add]

theorem lm_head_isolated_iff (hSizes : InitializedWith e.pool d)
    (hNonempty : commands ≠ [])
    (hAccepted : ∀ c ∈ commands, submit_slot_command_check c = .ok ()) :
    Isolated e.pool commands (execute_batched_lm_head_sample_slots e commands) ↔
      (Disowned e.pool commands ∨ e.embed_lm_head_initialized = false) ∨
      ∀ c ∈ commands, RowsFit (tokens c) (d.hidden_dim * e.element_size) d.input_capacity ∧
        8 ≤ d.output_capacity := by
  obtain ⟨hHidden, -, hInput, hOutput⟩ := hSizes.sizes
  obtain ⟨first, rest, rfl⟩ := List.exists_cons_of_ne_nil hNonempty
  obtain ⟨-, hWorker, -⟩ := submit_slot_command_check_ok (hAccepted first List.mem_cons_self)
  unfold execute_batched_lm_head_sample_slots
  by_cases hReady : e.embed_lm_head_initialized = false
  · simp only [if_pos hReady]
    exact iff_of_true (isolated_of_no_access rfl) (.inl (.inr hReady))
  · simp only [if_neg hReady]
    rw [if_neg (by omega), or_iff_left hReady, isolated_guarded (first_failure_none hAccepted),
      isolated_scattered]
    -- the last of the rows ends where they all end
    have hLast : ∀ c ∈ first :: rest, ∀ row : Nat,
        (tokens c - 1) * row + row = tokens c * row := by
      intro c hc row
      have := tokens_pos (hAccepted c hc)
      rw [← Nat.succ_mul, Nat.succ_eq_add_one, Nat.sub_add_cancel this]
    refine or_congr_right (forall₂_congr fun c hc => ?_)
    rw [hLast c hc, hInput, hOutput, hHidden, rowsFit_iff]

theorem gemm_isolated_iff (hSizes : InitializedWith e.pool d)
    (hNonempty : commands ≠ []) (op layer : Int)
    (hAccepted : ∀ c ∈ commands, submit_slot_command_check c = .ok ()) :
    Isolated e.pool commands (execute_batched_gemm_slots e commands op layer) ↔
      (Disowned e.pool commands ∨ layer < 0 ∨ e.num_layers ≤ layer) ∨
      ∀ c ∈ commands,
        let input_row :=
          (if op = OP_DOWN_PROJ then d.intermediate_dim else d.hidden_dim) * e.element_size
        match gemm_output_dim e op layer with
        | none => commands.length = 1 ∨ RowsFit (tokens c) input_row d.input_capacity
        | some output_dim => RowsFit (tokens c) input_row d.input_capacity ∧
            RowsFit (tokens c) (output_dim * e.element_size) d.output_capacity := by
  obtain ⟨hHidden, hIntermediate, hInput, hOutput⟩ := hSizes.sizes
  unfold execute_batched_gemm_slots
  rw [if_neg hNonempty]
  by_cases hLayer : layer < 0 ∨ e.num_layers ≤ layer
  · rw [if_pos hLayer]
    exact iff_of_true (isolated_of_no_access rfl) (.inl (.inr hLayer))
  · rw [if_neg hLayer, or_iff_left hLayer]
    cases hOutputDim : gemm_output_dim e op layer with
    | none =>
        simp only
        rw [isolated_guarded (first_failure_none hAccepted)]
        refine or_congr_right ?_
        by_cases hOne : commands.length = 1
        · simp only [hOne, true_or, implies_true, iff_true]
          exact isolated_of_no_access rfl
        · simp only [hOne, if_false, false_or]
          rw [isolated_gathered]
          simp only [hInput, hHidden, hIntermediate, gemm_input_dim, rowsFit_iff, Nat.zero_add]
    | some output_dim =>
        simp only
        rw [isolated_guarded (first_failure_none hAccepted), isolated_scattered]
        simp only [hInput, hOutput, hHidden, hIntermediate, gemm_input_dim, rowsFit_iff,
          Nat.zero_add]

end Isolation

/-- An accepted batch stays inside the buffers of its own slots if and only if the
executor's checks reject it or the tokens of each of its commands are within the
limit that the model dimensions set for the op. -/
theorem isolated_iff_within_token_limit (e : Executor) (d : ModelDims) (first : Command)
    (rest : List Command) (hSizes : InitializedWith e.pool d)
    (hAccepted : ∀ c ∈ first :: rest, submit_slot_command_check c = .ok ()) :
    Isolated e.pool (first :: rest) (execute e (first :: rest)) ↔
      Rejected e (first :: rest) first.op_type first.layer_idx ∨
      ∀ c ∈ first :: rest,
        WithinTokenLimit e d (first :: rest).length first.op_type first.layer_idx c := by
  unfold execute Rejected WithinTokenLimit
  by_cases hSampling : first.op_type = OP_SET_SAMPLING
  · simp only [if_pos hSampling, implies_true, or_true, iff_true]
    exact isolated_of_no_access rfl
  · simp only [hSampling, if_false, ne_eq, not_false_eq_true, true_and]
    by_cases hEmbed : first.op_type = OP_EMBED
    · simp only [hEmbed, if_true, true_or]
      exact embed_isolated_iff hSizes (by simp) hAccepted
    · simp only [hEmbed, if_false, false_or]
      by_cases hHead : first.op_type = OP_LM_HEAD
      · simp only [hHead, if_true]
        exact lm_head_isolated_iff hSizes (by simp) hAccepted
      · simp only [if_neg hHead]
        exact gemm_isolated_iff hSizes (by simp) _ _ hAccepted

/-- The widths are small enough for 32 bits, in which the allocation computes them. Nothing in the
source checks this. -/
structure ModelDims.NoOverflow (d : ModelDims) : Prop where
  gate_up : d.intermediate_dim * 2 < 2 ^ 31
  qkv : d.hidden_dim + d.num_kv_heads * d.head_dim * 2 < 2 ^ 31

theorem int_wrap_natCast {x : Nat} (h : x < 2 ^ 31) : int_wrap x = x :=
  Int.bmod_eq_of_le (by omega) (by omega)

/-- Without an overflow the output buffers have the columns of the fused outputs. -/
theorem ModelDims.NoOverflow.output_width {d : ModelDims} (h : d.NoOverflow) :
    d.output_width =
      max (d.intermediate_dim * 2) (d.hidden_dim + d.num_kv_heads * d.head_dim * 2) := by
  have hGateUp : int_wrap (d.intermediate_dim * 2) = (d.intermediate_dim * 2 : Nat) := by
    rw [← int_wrap_natCast h.gate_up]
    push_cast
    rfl
  have hQkv : int_wrap (d.hidden_dim + d.num_kv_heads * d.head_dim * 2) =
      (d.hidden_dim + d.num_kv_heads * d.head_dim * 2 : Nat) := by
    rw [← int_wrap_natCast h.qkv]
    push_cast
    rfl
  have hMax := max_lt h.gate_up h.qkv
  rw [ModelDims.output_width, hGateUp, hQkv, size_of_int]
  omega

/-- With 32768 heads of 32768 columns the width of the projections wraps around to
that of the hidden state, and the buffers are sized for the gate and up outputs. -/
example : ModelDims.output_width ⟨4096, 11008, 32768, 32768, 16, 2⟩ = 22016 := by decide

/-- The executor agrees with the dimensions the pool was sized from, none of which
overflows, and a buffer row has room for a token id. -/
structure Deployed (e : Executor) (d : ModelDims) : Prop where
  widths : d.NoOverflow
  element_size : e.element_size = d.dtype_size
  qkv : ∀ layer, (e.layer_weights layer).q_dim + (e.layer_weights layer).k_dim +
    (e.layer_weights layer).v_dim ≤ d.hidden_dim + d.num_kv_heads * d.head_dim * 2
  gate_up : ∀ layer, (e.layer_weights layer).gate_dim + (e.layer_weights layer).up_dim ≤
    d.intermediate_dim * 2
  row : 8 ≤ max d.intermediate_dim d.hidden_dim * d.dtype_size
  output_row : 8 ≤ max (d.intermediate_dim * 2) (d.hidden_dim + d.num_kv_heads * d.head_dim * 2) *
    d.dtype_size
  fits : d.max_seq_per_step * max (d.intermediate_dim * 2)
    (d.hidden_dim + d.num_kv_heads * d.head_dim * 2) * d.dtype_size < 2 ^ 64

/-- In a deployment no op needs more room than `max_seq_per_step` tokens have, so
the limit that the worker keeps for itself is enough. -/
theorem withinTokenLimit_of_le_max_seq {e : Executor} {d : ModelDims}
    (hSizes : InitializedWith e.pool d) (h : Deployed e d) (batch : Nat) (op layer : Int)
    {c : Command} (hPositive : 0 < tokens c) (hTokens : tokens c ≤ d.max_seq_per_step) :
    WithinTokenLimit e d batch op layer c := by
  have hWidths : max d.intermediate_dim d.hidden_dim ≤
      max (d.intermediate_dim * 2) (d.hidden_dim + d.num_kv_heads * d.head_dim * 2) := by
    omega
  have hInput : d.input_capacity =
      d.max_seq_per_step * (max d.intermediate_dim d.hidden_dim * d.dtype_size) := by
    unfold ModelDims.input_capacity
    rw [Nat.mod_eq_of_lt, Nat.mul_assoc]
    calc _ ≤ d.max_seq_per_step * max (d.intermediate_dim * 2)
          (d.hidden_dim + d.num_kv_heads * d.head_dim * 2) * d.dtype_size := by gcongr
      _ < 2 ^ 64 := h.fits
  have hOutput : d.output_capacity = d.max_seq_per_step *
      (max (d.intermediate_dim * 2) (d.hidden_dim + d.num_kv_heads * d.head_dim * 2) *
        d.dtype_size) := by
    unfold ModelDims.output_capacity
    rw [h.widths.output_width, Nat.mod_eq_of_lt h.fits, Nat.mul_assoc]
  have hIn : ∀ row, row ≤ max d.intermediate_dim d.hidden_dim * d.dtype_size →
      RowsFit (tokens c) row d.input_capacity := by
    intro row hRow
    rw [rowsFit_iff, hInput]
    exact Nat.mul_le_mul hTokens hRow
  have hOut : ∀ row, row ≤ max (d.intermediate_dim * 2)
      (d.hidden_dim + d.num_kv_heads * d.head_dim * 2) * d.dtype_size →
      RowsFit (tokens c) row d.output_capacity := by
    intro row hRow
    rw [rowsFit_iff, hOutput]
    exact Nat.mul_le_mul hTokens hRow
  have hHiddenIn := hIn (d.hidden_dim * e.element_size)
    (by rw [h.element_size]; exact Nat.mul_le_mul_right _ (by omega))
  have hHiddenOut := hOut (d.hidden_dim * e.element_size)
    (by rw [h.element_size]; exact Nat.mul_le_mul_right _ (by omega))
  unfold WithinTokenLimit
  split
  next => trivial
  next =>
    split
    next => exact ⟨hIn 8 h.row, hHiddenOut⟩
    next =>
      split
      next =>
        refine ⟨hHiddenIn, ?_⟩
        rw [hOutput]
        calc 8 ≤ 1 * _ := by rw [Nat.one_mul]; exact h.output_row
          _ ≤ _ := Nat.mul_le_mul_right _ (by omega)
      next =>
        have hInputDim := hIn
          ((if op = OP_DOWN_PROJ then d.intermediate_dim else d.hidden_dim) * e.element_size)
          (by rw [h.element_size]; exact Nat.mul_le_mul_right _ (by split <;> omega))
        have hOutputDim : ∀ dim, gemm_output_dim e op layer = some dim →
            RowsFit (tokens c) (dim * e.element_size) d.output_capacity := by
          intro dim hDim
          have hQkv := h.qkv layer
          have hGateUp := h.gate_up layer
          have hHidden := hSizes.sizes.1
          refine hOut _ ?_
          rw [h.element_size]
          refine Nat.mul_le_mul_right _ ?_
          unfold gemm_output_dim at hDim
          simp only [hHidden] at hDim
          split at hDim
          next => obtain rfl := Option.some.inj hDim; omega
          next =>
            split at hDim
            next => obtain rfl := Option.some.inj hDim; omega
            next =>
              split at hDim
              next => obtain rfl := Option.some.inj hDim; omega
              next =>
                split at hDim
                next => obtain rfl := Option.some.inj hDim; omega
                next => simp at hDim
        cases hDim : gemm_output_dim e op layer with
        | none => exact .inr hInputDim
        | some dim => exact ⟨hInputDim, hOutputDim dim hDim⟩

/-- A seven-billion-parameter model with steps of at most 16 tokens. -/
def llamaDims : ModelDims := ⟨4096, 11008, 32, 128, 16, 2⟩

/-- Two slots of that model; worker 7 owns slot 0 and worker 9 owns slot 1. -/
def llamaExecutor : Executor where
  pool := {
    num_slots := 2, hidden_dim := 4096, intermediate_dim := 11008, qkv_dim := 12288
    max_seq_per_step := 16, input_buffer_size := 352256, output_buffer_size := 704512
    free_mask := .zero, active_mask := .zero
    owner_worker_id := fun i => if i = 0 then 7 else if i = 1 then 9 else -1 }
  num_layers := 32
  layer_weights := fun _ => ⟨4096, 4096, 4096, 11008, 11008⟩
  embed_lm_head_initialized := true
  element_size := 2

theorem llamaExecutor_initialized : InitializedWith llamaExecutor.pool llamaDims := by
  have hQkv : int_wrap 12288 = 12288 := by decide
  have hGateUp : int_wrap 22016 = 22016 := by decide
  refine ⟨fun _ => true, 2, _, rfl, ?_⟩
  simp [llamaExecutor, llamaDims, hQkv, hGateUp, size_mul, size_of_int]

/-- A down projection of `tx` tokens of worker 7. -/
def downCommand (tx : Int) : Command :=
  ⟨OP_DOWN_PROJ, 0, 0, 7, 1, tx, 11008, 0, 0, 0, 0, 0⟩

theorem isolated_iff_at_sixteen_tokens :
    submit_slot_command_check (downCommand 16) = .ok () ∧
    Isolated llamaExecutor.pool [downCommand 16] (execute llamaExecutor [downCommand 16]) := by
  refine ⟨rfl, (isolated_iff_within_token_limit llamaExecutor llamaDims (downCommand 16) []
    llamaExecutor_initialized (by simp; rfl)).mpr (.inr ?_)⟩
  intro c hc
  obtain rfl := List.mem_singleton.mp hc
  exact ⟨.inr (by decide), .inr (by decide)⟩

/-- With seventeen tokens the same command is accepted and reads past the end of
its input buffer. -/
theorem seventeen_tokens_leave_the_buffer : ¬ ∀ (e : Executor) (d : ModelDims) (c : Command),
    InitializedWith e.pool d → submit_slot_command_check c = .ok () →
      Isolated e.pool [c] (execute e [c]) := by
  intro hAll
  have hIsolated := hAll llamaExecutor llamaDims (downCommand 17) llamaExecutor_initialized rfl
  obtain ⟨_, -, -, -, hBound⟩ := hIsolated (readInput 0 (downCommand 17) 0 (17 * (11008 * 2)))
    (by decide)
  exact absurd hBound (by decide)

end Aggregator
