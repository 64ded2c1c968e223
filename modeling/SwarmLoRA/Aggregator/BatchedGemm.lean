import SwarmLoRA.Aggregator.SlotMemory
import SwarmLoRA.Data.Rows

namespace Aggregator

open Data Ipc

/-- What the buffers of a slot hold. The input is read as rows of numbers or as token ids. -/
structure SlotBuffers where
  input_buffer : Nat → ℚ
  token_ids : Nat → Int
  output_buffer : Nat → ℚ

abbrev Memory := Int → SlotBuffers

/-- A view of the beginning of a buffer. -/
def from_blob (buffer : Nat → ℚ) (rows cols : Nat) : Tensor :=
  ⟨rows, cols, fun i j => buffer (i * cols + j)⟩

/-- What is left in a buffer after the view of its beginning has got the contents. -/
def overwrite (buffer : Nat → ℚ) (x : Tensor) : Nat → ℚ := fun k =>
  if k < x.rows * x.cols then x.get (k / x.cols) (k % x.cols) else buffer k

def Memory.write (mem : Memory) (slot_id : Int) (x : Tensor) : Memory :=
  Function.update mem slot_id { mem slot_id with
    output_buffer := overwrite (mem slot_id).output_buffer x }

/-- The fused weights of a layer. A bias that is not defined is empty. -/
structure FusedWeights where
  qkv_weight : Tensor
  gate_up_weight : Tensor
  o_weight : Tensor
  o_bias : List ℚ
  down_weight : Tensor
  down_bias : List ℚ

/-- The weights of a layer and their widths. -/
def init_aggregator_layer (q_weight k_weight v_weight o_weight : Tensor) (o_bias : List ℚ)
    (gate_weight up_weight down_weight : Tensor) (down_bias : List ℚ) :
    Except String (LayerWeights × FusedWeights) := do
  let qkv_weight ← Tensor.cat_rows [q_weight, k_weight, v_weight]
  let gate_up_weight ← Tensor.cat_rows [gate_weight, up_weight]
  return ({
      q_dim := q_weight.rows, k_dim := k_weight.rows, v_dim := v_weight.rows
      gate_dim := gate_weight.rows, up_dim := up_weight.rows },
    { qkv_weight, gate_up_weight, o_weight, o_bias, down_weight, down_bias })

structure StagingBuffers where
  out_qkv : Tensor
  out_hidden : Tensor
  out_gateup : Tensor
  max_tokens : Nat

/-- The staging buffers, with whatever `torch::empty` finds in them. -/
def init_aggregator_finalize (pool : SlotPool) (lw0 : LayerWeights) (found : Nat → Nat → ℚ) :
    StagingBuffers :=
  let max_tokens := pool.num_slots.toNat * pool.max_seq_per_step
  let empty (rows cols : Nat) : Tensor := ⟨rows, cols, fun i j => found i j⟩
  { out_qkv := empty max_tokens (lw0.q_dim + lw0.k_dim + lw0.v_dim)
    out_hidden := empty max_tokens pool.hidden_dim
    out_gateup := empty max_tokens (lw0.gate_dim + lw0.up_dim)
    max_tokens := max_tokens }

/-- The fused weights of a layer have the shapes of the model that the pool was made for: the rows
are the outputs of all the modules that were fused, and a bias is empty or as long as the output. -/
structure Shaped (pool : SlotPool) (lw : LayerWeights) (fused : FusedWeights) : Prop where
  qkv : fused.qkv_weight.rows = lw.q_dim + lw.k_dim + lw.v_dim ∧
    fused.qkv_weight.cols = pool.hidden_dim
  gate_up : fused.gate_up_weight.rows = lw.gate_dim + lw.up_dim ∧
    fused.gate_up_weight.cols = pool.hidden_dim
  o : fused.o_weight.rows = pool.hidden_dim ∧ fused.o_weight.cols = pool.hidden_dim
  down : fused.down_weight.rows = pool.hidden_dim ∧ fused.down_weight.cols = pool.intermediate_dim
  o_bias : fused.o_bias = [] ∨ fused.o_bias.length = pool.hidden_dim
  down_bias : fused.down_bias = [] ∨ fused.down_bias.length = pool.hidden_dim

/-- The staging buffers have the widths of a layer, and any number of rows.
`init_aggregator_finalize` makes them for the layer that it finds, which is as wide as all others.
-/
structure Fitted (pool : SlotPool) (lw : LayerWeights) (staging : StagingBuffers) : Prop where
  rows : staging.out_qkv.rows = staging.max_tokens ∧ staging.out_hidden.rows = staging.max_tokens ∧
    staging.out_gateup.rows = staging.max_tokens
  out_qkv : staging.out_qkv.cols = lw.q_dim + lw.k_dim + lw.v_dim
  out_hidden : staging.out_hidden.cols = pool.hidden_dim
  out_gateup : staging.out_gateup.cols = lw.gate_dim + lw.up_dim

/-- What the executors compute with, for the layers of one model. That the weights and the staging
buffers have the shapes of the model is part of it, as the server has loaded them so. -/
structure Weights (e : Executor) where
  layers : Int → FusedWeights
  staging : Option StagingBuffers
  embed_weight : Tensor
  shaped : ∀ layer, 0 ≤ layer → layer < e.num_layers →
    Shaped e.pool (e.layer_weights layer) (layers layer)
  fitted : ∀ buffers ∈ staging, ∀ layer, 0 ≤ layer → layer < e.num_layers →
    Fitted e.pool (e.layer_weights layer) buffers
  embed_rows : 0 < embed_weight.rows
  embed_cols : embed_weight.cols = e.pool.hidden_dim

/-- The loops that copy the rows of each command to its slot. -/
def scatter (output : Tensor) (cols : Nat) : Nat → List Command → Memory → Except String Memory
  | _, [], mem => .ok mem
  | offset, c :: rest, mem => do
      let rows ← output.narrow_rows offset (tokens c)
      let out ← (from_blob (mem c.slot_id).output_buffer (tokens c) cols).copy_ rows
      scatter output cols (offset + tokens c) rest (mem.write c.slot_id out)

namespace Weights

variable {e : Executor} (model : Weights e)

/-- `out.add_(bias)`, where there is a bias. -/
def add_bias (bias : List ℚ) (out : Tensor) : Except String Tensor :=
  if bias ≠ [] then out.add_ bias else .ok out

/-- The path of a single command, from its input buffer to its output buffer. -/
def gemm_single (mem : Memory) (op layer : Int) (c : Command) : Except String Memory := do
  let lw := e.layer_weights layer
  let fused := model.layers layer
  let slot_tokens := tokens c
  let x := from_blob (mem c.slot_id).input_buffer slot_tokens (gemm_input_dim e op)
  let out := from_blob (mem c.slot_id).output_buffer slot_tokens
  if op = OP_QKV_FUSED then
    let out ← (out (lw.q_dim + lw.k_dim + lw.v_dim)).matmul_out x fused.qkv_weight.t
    return mem.write c.slot_id out
  else if op = OP_O_PROJ then
    let out ← (out e.pool.hidden_dim).matmul_out x fused.o_weight.t
    let out ← add_bias fused.o_bias out
    return mem.write c.slot_id out
  else if op = OP_GATE_UP_FUSED then
    let out ← (out (lw.gate_dim + lw.up_dim)).matmul_out x fused.gate_up_weight.t
    return mem.write c.slot_id out
  else if op = OP_DOWN_PROJ then
    let out ← (out e.pool.hidden_dim).matmul_out x fused.down_weight.t
    let out ← add_bias fused.down_bias out
    return mem.write c.slot_id out
  else return mem

/-- The staging buffer, if it is there and has room. -/
def staged (buffer : StagingBuffers → Tensor) (total_tokens : Nat) : Option Tensor :=
  match model.staging with
  | some staging => if total_tokens ≤ staging.max_tokens then some (buffer staging) else none
  | none => none

/-- The rows that a fused GEMM is written to, staged or new. -/
def out_rows (buffer : StagingBuffers → Tensor) (total_tokens cols : Nat) : Except String Tensor :=
  match model.staged buffer total_tokens with
  | some staging => staging.narrow_rows 0 total_tokens
  | none => .ok (.zeros total_tokens cols)

/-- A GEMM with the hidden dimension as its width, staged or not. -/
def hidden_matmul (total_tokens : Nat) (x weight_t : Tensor) : Except String Tensor :=
  match model.staged StagingBuffers.out_hidden total_tokens with
  | some staging => do (← staging.narrow_rows 0 total_tokens).matmul_out x weight_t
  | none => x.matmul weight_t

/-- The path of several commands: their inputs are gathered for one GEMM, and its rows go back to
their slots. -/
def gemm_batch (mem : Memory) (op layer : Int) (commands : List Command) :
    Except String Memory := do
  let lw := e.layer_weights layer
  let fused := model.layers layer
  let total_tokens := (commands.map tokens).sum
  let x_flat ← Tensor.cat_rows (commands.map fun c =>
    from_blob (mem c.slot_id).input_buffer (tokens c) (gemm_input_dim e op))
  if op = OP_QKV_FUSED then
    let total_qkv := lw.q_dim + lw.k_dim + lw.v_dim
    let output ← model.out_rows StagingBuffers.out_qkv total_tokens total_qkv
    let output ← output.matmul_out x_flat fused.qkv_weight.t
    scatter output total_qkv 0 commands mem
  else if op = OP_O_PROJ then
    let output ← model.hidden_matmul total_tokens x_flat fused.o_weight.t
    let output ← add_bias fused.o_bias output
    scatter output e.pool.hidden_dim 0 commands mem
  else if op = OP_GATE_UP_FUSED then
    let total_out := lw.gate_dim + lw.up_dim
    let output ← model.out_rows StagingBuffers.out_gateup total_tokens total_out
    let output ← output.matmul_out x_flat fused.gate_up_weight.t
    scatter output total_out 0 commands mem
  else if op = OP_DOWN_PROJ then
    let output ← model.hidden_matmul total_tokens x_flat fused.down_weight.t
    let output ← add_bias fused.down_bias output
    scatter output e.pool.hidden_dim 0 commands mem
  else return mem

/-- The checks of the commands come first. -/
def execute_batched_gemm_slots (mem : Memory) (commands : List Command) (op layer : Int) :
    Except String Memory :=
  match (Aggregator.execute_batched_gemm_slots e commands op layer).error with
  | some error => .error error
  | none => match commands with
    | [] => .ok mem
    | [c] => model.gemm_single mem op layer c
    | commands => model.gemm_batch mem op layer commands

/-- The token ids of a command. -/
def slot_ids (mem : Memory) (c : Command) : List Int :=
  (List.range (tokens c)).map (mem c.slot_id).token_ids

/-- `tokens.clamp(0, vocab_size - 1)`. -/
def clamp (ids : List Int) : List Int :=
  ids.map fun id => min (max id 0) (model.embed_weight.rows - 1)

def embed_single (mem : Memory) (c : Command) : Except String Memory := do
  let embeddings ← model.embed_weight.embedding (model.clamp (slot_ids mem c))
  let out ← (from_blob (mem c.slot_id).output_buffer (tokens c) e.pool.hidden_dim).copy_ embeddings
  return mem.write c.slot_id out

def embed_batch (mem : Memory) (commands : List Command) : Except String Memory := do
  let embeddings ← model.embed_weight.embedding (model.clamp (commands.flatMap (slot_ids mem)))
  scatter embeddings e.pool.hidden_dim 0 commands mem

def execute_batched_embed_slots (mem : Memory) (commands : List Command) : Except String Memory :=
  match (Aggregator.execute_batched_embed_slots e commands).error with
  | some error => .error error
  | none =>
      if e.embed_lm_head_initialized = false then .ok mem
      else match commands with
        | [] => .ok mem
        | [c] => model.embed_single mem c
        | commands => model.embed_batch mem commands

end Weights

/-- A batch that returns has written to the slot of each command what the command alone writes, and
to no other slot; a batch that throws has a command that throws alone. -/
def AsAlone (run : List Command → Except String Memory) (mem : Memory) (commands : List Command) :
    Prop :=
  match run commands with
  | .ok after => (∀ c ∈ commands, ∃ alone, run [c] = .ok alone ∧
      after c.slot_id = alone c.slot_id) ∧
        ∀ slot_id ∉ commands.map (·.slot_id), after slot_id = mem slot_id
  | .error _ => ∃ c ∈ commands, ∃ error, run [c] = .error error

section Loading

variable {pool : SlotPool} {lw : LayerWeights} {fused : FusedWeights}

/-- The weights of a layer of the model have the shapes that the executors rely on. -/
theorem shaped_of_init {q k v o gate up down : Tensor} {o_bias down_bias : List ℚ}
    (hInit : init_aggregator_layer q k v o o_bias gate up down down_bias = .ok (lw, fused))
    (hHidden : ∀ w ∈ [q, k, v, gate, up, o], w.cols = pool.hidden_dim)
    (hRows : o.rows = pool.hidden_dim ∧ down.rows = pool.hidden_dim)
    (hDown : down.cols = pool.intermediate_dim)
    (hBias : ∀ bias ∈ [o_bias, down_bias], bias = [] ∨ bias.length = pool.hidden_dim) :
    Shaped pool lw fused := by
  have hQkv : ∀ w ∈ [q, k, v], w.cols = pool.hidden_dim := by
    intro w hw
    refine hHidden w ?_
    simp only [List.mem_cons, List.not_mem_nil, or_false] at hw ⊢
    tauto
  have hGateUp : ∀ w ∈ [gate, up], w.cols = pool.hidden_dim := by
    intro w hw
    refine hHidden w ?_
    simp only [List.mem_cons, List.not_mem_nil, or_false] at hw ⊢
    tauto
  obtain ⟨qkv, hCatQkv, hRowsQkv, hColsQkv, -⟩ :=
    Tensor.cat_rows_ok (List.cons_ne_nil q [k, v]) hQkv
  obtain ⟨gate_up, hCatGateUp, hRowsGateUp, hColsGateUp, -⟩ :=
    Tensor.cat_rows_ok (List.cons_ne_nil gate [up]) hGateUp
  have hPair := hInit
  simp only [init_aggregator_layer, hCatQkv, hCatGateUp] at hPair
  obtain ⟨rfl, rfl⟩ := Prod.mk.inj (Except.ok.inj hPair)
  refine ⟨⟨?_, hColsQkv⟩, ⟨?_, hColsGateUp⟩, ⟨hRows.1, hHidden o (by simp)⟩, ⟨hRows.2, hDown⟩,
    hBias o_bias (by simp), hBias down_bias (by simp)⟩
  · rw [hRowsQkv]
    simp [Nat.add_assoc]
  · rw [hRowsGateUp]
    simp

/-- The staging buffers fit the layers that are as wide as the first one. -/
theorem fitted_of_finalize {lw0 : LayerWeights} (hSame : lw = lw0) (found : Nat → Nat → ℚ) :
    Fitted pool lw (init_aggregator_finalize pool lw0 found) := by
  subst hSame
  exact ⟨⟨rfl, rfl, rfl⟩, rfl, rfl, rfl⟩

end Loading

section Scatter

variable {output : Tensor} {cols offset : Nat} {commands : List Command} {mem : Memory}

theorem write_of_ne {slot_id other : Int} (hOther : other ≠ slot_id) (x : Tensor) :
    mem.write slot_id x other = mem other :=
  Function.update_of_ne hOther _ _

/-- What is written to a slot depends on that slot only. -/
theorem write_congr {mem' : Memory} {slot_id : Int} (hSame : mem' slot_id = mem slot_id)
    (x : Tensor) : mem'.write slot_id x slot_id = mem.write slot_id x slot_id := by
  unfold Memory.write
  rw [Function.update_self, Function.update_self, hSame]

/-- Each slot gets the rows that begin after those of the commands before its own. -/
theorem scatter_spec (hCols : output.cols = cols)
    (hFits : offset + (commands.map tokens).sum ≤ output.rows)
    (hDistinct : (commands.map (·.slot_id)).Nodup) :
    ∃ after, scatter output cols offset commands mem = .ok after ∧
      (∀ slot_id ∉ commands.map (·.slot_id), after slot_id = mem slot_id) ∧
      ∀ before c rest, commands = before ++ c :: rest →
        ∃ rows, output.narrow_rows (offset + (before.map tokens).sum) (tokens c) = .ok rows ∧
          after c.slot_id = mem.write c.slot_id rows c.slot_id := by
  induction commands generalizing offset mem with
  | nil =>
      refine ⟨mem, rfl, fun _ _ => rfl, fun before c rest hSplit => ?_⟩
      exact absurd hSplit (List.append_ne_nil_of_right_ne_nil before (List.cons_ne_nil c rest)).symm
  | cons first others ih =>
      rw [List.map_cons, List.sum_cons] at hFits
      obtain ⟨hFresh, hRest⟩ := List.nodup_cons.mp hDistinct
      let rows : Tensor := ⟨tokens first, output.cols, fun i j => output.get (offset + i) j⟩
      have hRows : output.narrow_rows offset (tokens first) = .ok rows := if_pos (by omega)
      have hCopy : (from_blob (mem first.slot_id).output_buffer (tokens first) cols).copy_ rows =
          .ok rows := Tensor.ok_of_copy_iff.mpr ⟨⟨rfl, hCols.symm⟩, rfl⟩
      obtain ⟨after, hAfter, hOutside, hInside⟩ :=
        @ih (offset + tokens first) (mem.write first.slot_id rows) (by omega) hRest
      refine ⟨after, ?_, fun slot_id hOut => ?_, fun before c rest hSplit => ?_⟩
      · rw [scatter, hRows]
        change (Tensor.copy_ _ rows >>= _) = _
        rw [hCopy]
        exact hAfter
      · obtain ⟨hNot, hOut⟩ := not_or.mp (mt List.mem_cons.mpr hOut)
        rw [hOutside slot_id hOut]
        exact write_of_ne hNot rows
      · cases before with
        | nil =>
            obtain ⟨rfl, rfl⟩ := List.cons.inj hSplit
            exact ⟨rows, hRows, hOutside first.slot_id hFresh⟩
        | cons b before =>
            obtain ⟨rfl, hOthers⟩ := List.cons.inj hSplit
            obtain ⟨rows', hRows', hWritten⟩ := hInside before c rest hOthers
            have hOther : c.slot_id ≠ first.slot_id := by
              intro hSame
              refine hFresh (List.mem_map.mpr ⟨c, ?_, hSame⟩)
              rw [hOthers]
              exact List.mem_append_right before List.mem_cons_self
            refine ⟨rows', ?_, hWritten.trans (write_congr (write_of_ne hOther rows) rows')⟩
            rw [List.map_cons, List.sum_cons, ← Nat.add_assoc]
            exact hRows'

variable {run : List Command → Except String Memory} {out : Command → Tensor}

theorem asAlone_single {c : Command} (hAlone : run [c] = .ok (mem.write c.slot_id (out c))) :
    AsAlone run mem [c] := by
  unfold AsAlone
  rw [hAlone]
  refine ⟨fun c' hc' => ?_, fun slot_id hOut => ?_⟩
  · obtain rfl := List.mem_singleton.mp hc'
    exact ⟨_, hAlone, rfl⟩
  · exact write_of_ne (fun hSame => hOut (List.mem_singleton.mpr hSame)) (out c)

/-- It is enough that the rows of each command are what the command computes alone. -/
theorem asAlone_of_scatter
    (hAlone : ∀ c ∈ commands, run [c] = .ok (mem.write c.slot_id (out c)))
    (hBatch : run commands = scatter output cols 0 commands mem) (hCols : output.cols = cols)
    (hRows : output.rows = (commands.map tokens).sum)
    (hDistinct : (commands.map (·.slot_id)).Nodup)
    (hNarrow : ∀ before c rest, commands = before ++ c :: rest →
      output.narrow_rows (before.map tokens).sum (tokens c) = .ok (out c)) :
    AsAlone run mem commands := by
  have hFits : 0 + (commands.map tokens).sum ≤ output.rows := by omega
  obtain ⟨after, hAfter, hOutside, hInside⟩ := @scatter_spec output cols 0 commands mem hCols hFits hDistinct
  unfold AsAlone
  rw [hBatch, hAfter]
  refine ⟨fun c hc => ?_, hOutside⟩
  obtain ⟨before, rest, hSplit⟩ := List.append_of_mem hc
  obtain ⟨rows, hTaken, hWritten⟩ := hInside before c rest hSplit
  rw [Nat.zero_add, hNarrow before c rest hSplit] at hTaken
  obtain rfl := Except.ok.inj hTaken
  exact ⟨_, hAlone c hc, hWritten⟩

/-- Checks that a batch passes if and only if its commands pass them alone. -/
theorem asAlone_of_checks {checked : List Command → Option String}
    {body : List Command → Except String Memory}
    (hRun : ∀ commands, run commands = match checked commands with
      | some error => .error error
      | none => body commands)
    (hChecked : checked commands = none ↔ ∀ c ∈ commands, checked [c] = none)
    (hBody : checked commands = none → AsAlone body mem commands) : AsAlone run mem commands := by
  cases hCheck : checked commands with
  | some error =>
      have hNotAll : ¬ ∀ c ∈ commands, checked [c] = none := by
        rw [← hChecked, hCheck]
        exact Option.some_ne_none error
      push Not at hNotAll
      obtain ⟨c, hc, hFails⟩ := hNotAll
      obtain ⟨alone, hAlone⟩ := Option.ne_none_iff_exists'.mp hFails
      unfold AsAlone
      rw [hRun, hCheck]
      refine ⟨c, hc, alone, ?_⟩
      rw [hRun, hAlone]
  | none =>
      have hSame (c : Command) (hc : c ∈ commands) : run [c] = body [c] := by
        rw [hRun, hChecked.mp hCheck c hc]
      have hAsAlone := hBody hCheck
      unfold AsAlone at hAsAlone ⊢
      rw [hRun, hCheck]
      change match body commands with | .ok _ => _ | .error _ => _
      cases hAfter : body commands with
      | ok after =>
          rw [hAfter] at hAsAlone
          obtain ⟨hInside, hOutside⟩ := hAsAlone
          refine ⟨fun c hc => ?_, hOutside⟩
          rw [hSame c hc]
          exact hInside c hc
      | error error =>
          rw [hAfter] at hAsAlone
          obtain ⟨c, hc, hThrows⟩ := hAsAlone
          refine ⟨c, hc, ?_⟩
          rw [hSame c hc]
          exact hThrows

/-- Without any effect there is nothing to compare. -/
theorem asAlone_of_same (hAlone : ∀ c ∈ commands, run [c] = .ok mem)
    (hBatch : run commands = .ok mem) : AsAlone run mem commands := by
  unfold AsAlone
  rw [hBatch]
  exact ⟨fun c hc => ⟨mem, hAlone c hc, rfl⟩, fun _ _ => rfl⟩

end Scatter

namespace Weights

variable {e : Executor} (model : Weights e) {mem : Memory} {op layer : Int}

/-- A GEMM with its bias, wherever it is written. -/
def product (x weight : Tensor) (bias : List ℚ) : Except String Tensor := do
  let out ← x.matmul weight.t
  add_bias bias out

/-- The weight of an op, its bias and its width. -/
def projection (op layer : Int) : Option (Tensor × List ℚ × Nat) :=
  let lw := e.layer_weights layer
  let fused := model.layers layer
  if op = OP_QKV_FUSED then some (fused.qkv_weight, [], lw.q_dim + lw.k_dim + lw.v_dim)
  else if op = OP_O_PROJ then some (fused.o_weight, fused.o_bias, e.pool.hidden_dim)
  else if op = OP_GATE_UP_FUSED then some (fused.gate_up_weight, [], lw.gate_dim + lw.up_dim)
  else if op = OP_DOWN_PROJ then some (fused.down_weight, fused.down_bias, e.pool.hidden_dim)
  else none

variable {model}

theorem add_bias_nil (out : Tensor) : add_bias [] out = pure out :=
  if_neg (not_not.mpr rfl)

theorem projection_shaped (hLayer : 0 ≤ layer ∧ layer < e.num_layers) {weight : Tensor}
    {bias : List ℚ} {cols : Nat} (h : model.projection op layer = some (weight, bias, cols)) :
    weight.rows = cols ∧ weight.cols = gemm_input_dim e op ∧ (bias = [] ∨ bias.length = cols) := by
  have hShaped := model.shaped layer hLayer.1 hLayer.2
  unfold projection at h
  unfold gemm_input_dim
  split_ifs at h with hQkv hO hGateUp hDown
  all_goals obtain ⟨rfl, rfl, rfl⟩ := by simpa only [Option.some.injEq, Prod.mk.injEq] using h
  · subst hQkv
    exact ⟨hShaped.qkv.1, hShaped.qkv.2, .inl rfl⟩
  · subst hO
    exact ⟨hShaped.o.1, hShaped.o.2, hShaped.o_bias⟩
  · subst hGateUp
    exact ⟨hShaped.gate_up.1, hShaped.gate_up.2, .inl rfl⟩
  · subst hDown
    exact ⟨hShaped.down.1, hShaped.down.2, hShaped.down_bias⟩

/-- The single path is the GEMM of the slot's own input. -/
theorem gemm_single_eq (hLayer : 0 ≤ layer ∧ layer < e.num_layers) (c : Command) :
    model.gemm_single mem op layer c =
      match model.projection op layer with
      | some (weight, bias, _) => do
          let out ← product (from_blob (mem c.slot_id).input_buffer (tokens c)
            (gemm_input_dim e op)) weight bias
          return mem.write c.slot_id out
      | none => .ok mem := by
  have hShaped := model.shaped layer hLayer.1 hLayer.2
  have hOut (cols : Nat) (weight : Tensor) (hRows : weight.rows = cols) :
      (from_blob (mem c.slot_id).output_buffer (tokens c) cols).matmul_out
          (from_blob (mem c.slot_id).input_buffer (tokens c) (gemm_input_dim e op)) weight.t =
        (from_blob (mem c.slot_id).input_buffer (tokens c) (gemm_input_dim e op)).matmul weight.t :=
    Tensor.matmul_out_eq rfl hRows.symm
  unfold gemm_single projection product
  split_ifs with hQkv hO hGateUp hDown
  · simp only [hOut _ _ hShaped.qkv.1, add_bias_nil, bind_pure]
  · simp only [hOut _ _ hShaped.o.1, bind_assoc]
  · simp only [hOut _ _ hShaped.gate_up.1, add_bias_nil, bind_pure]
  · simp only [hOut _ _ hShaped.down.1, bind_assoc]
  · rfl

/-- A staging buffer is used only for as many rows as it has. -/
theorem staged_rows {buffer : StagingBuffers → Tensor} {staging : Tensor} {total_tokens cols : Nat}
    (hBuffer : ∀ buffers ∈ model.staging,
      (buffer buffers).rows = buffers.max_tokens ∧ (buffer buffers).cols = cols)
    (hStaged : model.staged buffer total_tokens = some staging) :
    ∃ out, staging.narrow_rows 0 total_tokens = .ok out ∧ out.rows = total_tokens ∧
      out.cols = cols := by
  unfold staged at hStaged
  cases hStaging : model.staging with
  | none =>
      rw [hStaging] at hStaged
      cases hStaged
  | some buffers =>
      obtain ⟨hRows, hCols⟩ := hBuffer buffers hStaging
      simp only [hStaging, Option.ite_none_right_eq_some, Option.some.injEq] at hStaged
      obtain ⟨hRoom, rfl⟩ := hStaged
      have hFits : 0 + total_tokens ≤ (buffer buffers).rows := by omega
      exact ⟨_, if_pos hFits, rfl, hCols⟩

theorem out_rows_matmul {buffer : StagingBuffers → Tensor} {x weight : Tensor}
    {total_tokens cols : Nat}
    (hBuffer : ∀ buffers ∈ model.staging,
      (buffer buffers).rows = buffers.max_tokens ∧ (buffer buffers).cols = cols)
    (hRows : x.rows = total_tokens) (hCols : weight.rows = cols) :
    (do (← model.out_rows buffer total_tokens cols).matmul_out x weight.t) = x.matmul weight.t := by
  unfold out_rows
  cases hStaged : model.staged buffer total_tokens with
  | none => exact Tensor.matmul_out_eq hRows.symm hCols.symm
  | some staging =>
      obtain ⟨out, hOut, hOutRows, hOutCols⟩ := staged_rows hBuffer hStaged
      simp only [hOut]
      exact Tensor.matmul_out_eq (hOutRows.trans hRows.symm) (hOutCols.trans hCols.symm)

theorem hidden_matmul_eq {x weight : Tensor} {total_tokens : Nat}
    (hBuffer : ∀ buffers ∈ model.staging, buffers.out_hidden.rows = buffers.max_tokens ∧
      buffers.out_hidden.cols = e.pool.hidden_dim)
    (hRows : x.rows = total_tokens) (hCols : weight.rows = e.pool.hidden_dim) :
    model.hidden_matmul total_tokens x weight.t = x.matmul weight.t := by
  unfold hidden_matmul
  cases hStaged : model.staged StagingBuffers.out_hidden total_tokens with
  | none => rfl
  | some staging =>
      obtain ⟨out, hOut, hOutRows, hOutCols⟩ := staged_rows hBuffer hStaged
      simp only [hOut]
      exact Tensor.matmul_out_eq (hOutRows.trans hRows.symm) (hOutCols.trans hCols.symm)

/-- Whether it is staged or not, the batch is one GEMM of all inputs. -/
theorem gemm_batch_eq (hLayer : 0 ≤ layer ∧ layer < e.num_layers) {commands : List Command}
    {x_flat : Tensor} (hGather : Tensor.cat_rows (commands.map fun c =>
      from_blob (mem c.slot_id).input_buffer (tokens c) (gemm_input_dim e op)) = .ok x_flat)
    (hRows : x_flat.rows = (commands.map tokens).sum) :
    model.gemm_batch mem op layer commands =
      match model.projection op layer with
      | some (weight, bias, cols) => do
          let output ← product x_flat weight bias
          scatter output cols 0 commands mem
      | none => .ok mem := by
  have hShaped := model.shaped layer hLayer.1 hLayer.2
  have hFitted := fun buffers hStaging => model.fitted buffers hStaging layer hLayer.1 hLayer.2
  have hQkvOut := out_rows_matmul (fun buffers hStaging =>
    ⟨(hFitted buffers hStaging).rows.1, (hFitted buffers hStaging).out_qkv⟩) hRows hShaped.qkv.1
  have hGateUpOut := out_rows_matmul (fun buffers hStaging =>
    ⟨(hFitted buffers hStaging).rows.2.2, (hFitted buffers hStaging).out_gateup⟩) hRows
    hShaped.gate_up.1
  have hHidden {weight : Tensor} (hWidth : weight.rows = e.pool.hidden_dim) :
      model.hidden_matmul (commands.map tokens).sum x_flat weight.t = x_flat.matmul weight.t :=
    hidden_matmul_eq (fun buffers hStaging =>
      ⟨(hFitted buffers hStaging).rows.2.1, (hFitted buffers hStaging).out_hidden⟩) hRows hWidth
  unfold gemm_batch projection product
  rw [hGather]
  split_ifs with hQkv hO hGateUp hDown
  · simp only [add_bias_nil, bind_pure, ← hQkvOut, bind_assoc]
    rfl
  · simp only [← hHidden hShaped.o.1, bind_assoc]
    rfl
  · simp only [add_bias_nil, bind_pure, ← hGateUpOut, bind_assoc]
    rfl
  · simp only [← hHidden hShaped.down.1, bind_assoc]
    rfl
  · rfl

section Product

variable {x y z weight : Tensor} {bias : List ℚ}

theorem product_ok (hCols : x.cols = weight.cols) (hBias : bias = [] ∨ bias.length = weight.rows) :
    ∃ z, product x weight bias = .ok z ∧ z.rows = x.rows ∧ z.cols = weight.rows := by
  obtain ⟨out, hOut, hOutRows, hOutCols, -⟩ := Tensor.matmul_ok (x := x) (y := weight.t) hCols
  unfold product
  rw [hOut]
  by_cases hEmpty : bias = []
  · exact ⟨out, if_neg (not_not.mpr hEmpty), hOutRows, hOutCols⟩
  · have hLength : bias.length = out.cols := (hBias.resolve_left hEmpty).trans hOutCols.symm
    exact ⟨_, (if_pos hEmpty).trans (if_pos (.inl hLength)), hOutRows, hOutCols⟩

/-- The bias is added to the rows of a command once, with its rows or with all of them. -/
theorem narrow_rows_product {start : Nat} (hz : product x weight bias = .ok z)
    (hy : y.cols = x.cols) (hFits : start + y.rows ≤ x.rows)
    (hSame : ∀ i < y.rows, ∀ k < x.cols, x.get (start + i) k = y.get i k) :
    z.narrow_rows start y.rows = product y weight bias := by
  unfold product at hz ⊢
  cases hOut : x.matmul weight.t with
  | error error =>
      rw [hOut] at hz
      cases hz
  | ok out =>
      rw [hOut] at hz
      have hRows := Tensor.narrow_rows_matmul hOut hy hFits hSame
      rw [← hRows]
      change add_bias bias out = .ok z at hz
      unfold add_bias at hz ⊢
      split at hz
      next hBias =>
        simp only [if_pos hBias]
        have hInside : start + y.rows ≤ out.rows := by
          rw [Tensor.rows_of_matmul hOut]
          exact hFits
        have hTaken : out.narrow_rows start y.rows = .ok _ := if_pos hInside
        rw [Tensor.narrow_rows_add_ hz hTaken, hTaken]
        rfl
      next hEmpty =>
        obtain rfl := Except.ok.inj hz
        simp only [if_neg hEmpty]
        exact (bind_pure _).symm

end Product

/-- The inputs are gathered with those of each command after those of the ones before it. -/
theorem gather_spec (mem : Memory) {commands : List Command} (hNonempty : commands ≠ []) (cols : Nat) :
    ∃ x_flat, Tensor.cat_rows (commands.map fun c =>
        from_blob (mem c.slot_id).input_buffer (tokens c) cols) = .ok x_flat ∧
      x_flat.rows = (commands.map tokens).sum ∧ x_flat.cols = cols ∧
      ∀ before c rest, commands = before ++ c :: rest → ∀ i < tokens c, ∀ k < cols,
        x_flat.get ((before.map tokens).sum + i) k =
          (from_blob (mem c.slot_id).input_buffer (tokens c) cols).get i k := by
  let view (c : Command) := from_blob (mem c.slot_id).input_buffer (tokens c) cols
  have hCols : ∀ x ∈ commands.map view, x.cols = cols := by
    intro x hx
    obtain ⟨c, -, rfl⟩ := List.mem_map.mp hx
    rfl
  obtain ⟨x_flat, hGather, hRows, hWidth, hGet⟩ :=
    Tensor.cat_rows_ok (mt List.map_eq_nil_iff.mp hNonempty) hCols
  rw [List.map_map] at hRows
  refine ⟨x_flat, hGather, hRows, hWidth, fun before c rest hSplit i hi k hk => ?_⟩
  have hInside : (before.map tokens).sum + i < x_flat.rows := by
    rw [hRows, hSplit]
    simp only [List.map_append, List.sum_append, List.map_cons, List.sum_cons,
      Function.comp_apply]
    change _ < (before.map tokens).sum + (tokens c + _)
    omega
  have hBefore : (before.map tokens).sum = ((before.map view).map Tensor.rows).sum := by
    rw [List.map_map]
    rfl
  rw [hGet _ hInside k hk, hSplit, List.map_append, hBefore, Tensor.rows_get_append]
  exact if_pos hi

section Run

variable {commands : List Command}

theorem guarded_error (failure : Option String) (accesses : List Access) :
    (guarded failure accesses).error = failure := by
  cases failure with
  | none => rfl
  | some error => rfl

/-- What the checks of a batch let through. -/
theorem gemm_error_none (hAccepted : ∀ c ∈ commands, submit_slot_command_check c = .ok ())
    (hNonempty : commands ≠ []) :
    (Aggregator.execute_batched_gemm_slots e commands op layer).error = none ↔
      (0 ≤ layer ∧ layer < e.num_layers) ∧ ¬ Disowned e.pool commands := by
  unfold Aggregator.execute_batched_gemm_slots
  rw [if_neg hNonempty]
  by_cases hOutside : layer < 0 ∨ e.num_layers ≤ layer
  · rw [if_pos hOutside]
    refine ⟨fun h => absurd h (Option.some_ne_none _), fun h => ?_⟩
    omega
  · have hLayer : 0 ≤ layer ∧ layer < e.num_layers := by omega
    rw [if_neg hOutside, and_iff_right hLayer]
    cases gemm_output_dim e op layer with
    | none =>
        rw [guarded_error]
        exact first_failure_none hAccepted
    | some output_dim =>
        rw [guarded_error]
        exact first_failure_none hAccepted

theorem embed_error_none (hAccepted : ∀ c ∈ commands, submit_slot_command_check c = .ok ())
    (hNonempty : commands ≠ []) :
    (Aggregator.execute_batched_embed_slots e commands).error = none ↔
      (e.embed_lm_head_initialized = true → ¬ Disowned e.pool commands) := by
  unfold Aggregator.execute_batched_embed_slots
  by_cases hInit : e.embed_lm_head_initialized = true
  · rw [if_neg (by simp [hNonempty, hInit]), guarded_error, forall_prop_of_true hInit]
    exact first_failure_none hAccepted
  · rw [if_pos (.inr (Bool.eq_false_of_not_eq_true hInit))]
    exact iff_of_true rfl fun h => absurd h hInit

theorem not_disowned_iff : ¬ Disowned e.pool commands ↔ ∀ c ∈ commands, ¬ Disowned e.pool [c] := by
  simp only [Disowned, List.mem_singleton, exists_eq_left, not_exists, not_and]

/-- A batch passes the checks if its commands pass them one by one. -/
theorem gemm_error_alone (hAccepted : ∀ c ∈ commands, submit_slot_command_check c = .ok ()) :
    (Aggregator.execute_batched_gemm_slots e commands op layer).error = none ↔
      ∀ c ∈ commands, (Aggregator.execute_batched_gemm_slots e [c] op layer).error = none := by
  have hAlone (c : Command) (hc : c ∈ commands) :
      (Aggregator.execute_batched_gemm_slots e [c] op layer).error = none ↔
        (0 ≤ layer ∧ layer < e.num_layers) ∧ ¬ Disowned e.pool [c] :=
    gemm_error_none (List.forall_mem_singleton.mpr (hAccepted c hc)) (List.cons_ne_nil c [])
  match commands with
  | [] => exact iff_of_true rfl fun c hc => absurd hc List.not_mem_nil
  | first :: rest =>
      rw [gemm_error_none hAccepted (List.cons_ne_nil first rest), not_disowned_iff]
      constructor
      · rintro ⟨hLayer, hOwned⟩ c hc
        exact (hAlone c hc).mpr ⟨hLayer, hOwned c hc⟩
      · intro h
        exact ⟨((hAlone first List.mem_cons_self).mp (h first List.mem_cons_self)).1,
          fun c hc => ((hAlone c hc).mp (h c hc)).2⟩

theorem embed_error_alone (hAccepted : ∀ c ∈ commands, submit_slot_command_check c = .ok ()) :
    (Aggregator.execute_batched_embed_slots e commands).error = none ↔
      ∀ c ∈ commands, (Aggregator.execute_batched_embed_slots e [c]).error = none := by
  have hAlone (c : Command) (hc : c ∈ commands) :
      (Aggregator.execute_batched_embed_slots e [c]).error = none ↔
        (e.embed_lm_head_initialized = true → ¬ Disowned e.pool [c]) :=
    embed_error_none (List.forall_mem_singleton.mpr (hAccepted c hc)) (List.cons_ne_nil c [])
  match commands with
  | [] => exact iff_of_true rfl fun c hc => absurd hc List.not_mem_nil
  | first :: rest =>
      rw [embed_error_none hAccepted (List.cons_ne_nil first rest), not_disowned_iff]
      constructor
      · intro hOwned c hc
        exact (hAlone c hc).mpr fun hInit => hOwned hInit c hc
      · intro h hInit c hc
        exact (hAlone c hc).mp (h c hc) hInit

/-- The body of the GEMM executor, after the checks. -/
theorem gemm_body_asAlone (hLayer : 0 ≤ layer ∧ layer < e.num_layers)
    (hDistinct : (commands.map (·.slot_id)).Nodup) :
    AsAlone (fun
      | [] => .ok mem
      | [c] => model.gemm_single mem op layer c
      | commands => model.gemm_batch mem op layer commands) mem commands := by
  cases hProjection : model.projection op layer with
  | none =>
      have hSingle (c : Command) : model.gemm_single mem op layer c = .ok mem := by
        rw [gemm_single_eq hLayer, hProjection]
      refine asAlone_of_same (fun c _ => hSingle c) ?_
      match commands with
      | [] => rfl
      | [c] => exact hSingle c
      | c :: c' :: rest =>
          obtain ⟨x_flat, hGather, hRows, -, -⟩ := gather_spec mem
            (List.cons_ne_nil c (c' :: rest)) (gemm_input_dim e op)
          change model.gemm_batch mem op layer _ = _
          rw [gemm_batch_eq hLayer hGather hRows, hProjection]
  | some projection =>
      obtain ⟨weight, bias, cols⟩ := projection
      obtain ⟨rfl, hInner, hBias⟩ := projection_shaped hLayer hProjection
      let view (c : Command) :=
        from_blob (mem c.slot_id).input_buffer (tokens c) (gemm_input_dim e op)
      have hProduct (c : Command) : ∃ z, product (view c) weight bias = .ok z := by
        obtain ⟨z, hz, -⟩ := product_ok (x := view c) hInner.symm hBias
        exact ⟨z, hz⟩
      choose out hOut using hProduct
      have hSingle (c : Command) :
          model.gemm_single mem op layer c = .ok (mem.write c.slot_id (out c)) := by
        rw [gemm_single_eq hLayer, hProjection]
        change (product (view c) weight bias >>= _) = _
        rw [hOut c]
        rfl
      match commands with
      | [] => exact asAlone_of_same (fun c hc => absurd hc List.not_mem_nil) rfl
      | [c] => exact asAlone_single (hSingle c)
      | c :: c' :: rest =>
          obtain ⟨x_flat, hGather, hRows, hCols, hGet⟩ := gather_spec mem
            (List.cons_ne_nil c (c' :: rest)) (gemm_input_dim e op)
          obtain ⟨output, hOutput, hOutputRows, hOutputCols⟩ :=
            product_ok (hCols.trans hInner.symm) hBias
          refine asAlone_of_scatter (fun c _ => hSingle c) ?_ hOutputCols
            (hOutputRows.trans hRows) hDistinct fun before c₀ after hSplit => ?_
          · change model.gemm_batch mem op layer _ = _
            rw [gemm_batch_eq hLayer hGather hRows, hProjection]
            change (product x_flat weight bias >>= _) = _
            rw [hOutput]
            rfl
          · have hFits : (before.map tokens).sum + tokens c₀ ≤ x_flat.rows := by
              rw [hRows, hSplit, List.map_append, List.sum_append, List.map_cons, List.sum_cons]
              omega
            rw [← hOut c₀]
            exact narrow_rows_product (y := view c₀) hOutput hCols.symm hFits
              fun i hi k hk => hGet before c₀ after hSplit i hi k (hCols ▸ hk)

theorem clamp_range {ids : List Int} :
    ∀ id ∈ model.clamp ids, 0 ≤ id ∧ id < model.embed_weight.rows := by
  intro id hid
  obtain ⟨raw, -, rfl⟩ := List.mem_map.mp hid
  have := model.embed_rows
  omega

theorem slot_ids_length (c : Command) : (slot_ids mem c).length = tokens c := by
  rw [slot_ids, List.length_map, List.length_range]

/-- Ids that are clamped are always found. -/
theorem embedding_clamp (model : Weights e) (ids : List Int) :
    ∃ z, model.embed_weight.embedding (model.clamp ids) = .ok z ∧ z.rows = ids.length ∧
      z.cols = e.pool.hidden_dim :=
  ⟨_, if_pos clamp_range, List.length_map _, model.embed_cols⟩

/-- The body of the embedding executor, after the checks. -/
theorem embed_body_asAlone (hDistinct : (commands.map (·.slot_id)).Nodup) :
    AsAlone (fun
      | [] => .ok mem
      | [c] => model.embed_single mem c
      | commands => model.embed_batch mem commands) mem commands := by
  choose out hOut hRows hCols using fun c => embedding_clamp model (slot_ids mem c)
  have hSingle (c : Command) :
      model.embed_single mem c = .ok (mem.write c.slot_id (out c)) := by
    have hCopy : (from_blob (mem c.slot_id).output_buffer (tokens c) e.pool.hidden_dim).copy_
        (out c) = .ok (out c) :=
      Tensor.ok_of_copy_iff.mpr
        ⟨⟨((hRows c).trans (slot_ids_length c)).symm, (hCols c).symm⟩, rfl⟩
    unfold embed_single
    rw [hOut c]
    change (Tensor.copy_ _ _ >>= _) = _
    rw [hCopy]
    rfl
  match commands with
  | [] => exact asAlone_of_same (fun c hc => absurd hc List.not_mem_nil) rfl
  | [c] => exact asAlone_single (hSingle c)
  | c :: c' :: rest =>
      obtain ⟨output, hOutput, hOutputRows, hOutputCols⟩ :=
        embedding_clamp model ((c :: c' :: rest).flatMap (slot_ids mem))
      have hLength (l : List Command) :
          (l.flatMap (slot_ids mem)).length = (l.map tokens).sum := by
        simp only [List.length_flatMap, slot_ids_length]
      refine asAlone_of_scatter (fun c _ => hSingle c) ?_ hOutputCols
        (hOutputRows.trans (hLength _)) hDistinct fun before c₀ after hSplit => ?_
      · change model.embed_batch mem _ = _
        unfold embed_batch
        rw [hOutput]
        rfl
      · rw [hSplit, List.flatMap_append, List.flatMap_cons] at hOutput
        simp only [clamp, List.map_append] at hOutput
        have hTaken := Tensor.narrow_rows_embedding hOutput
        rw [List.length_map, List.length_map, hLength, slot_ids_length] at hTaken
        rw [hTaken]
        exact hOut c₀

end Run

end Weights

section Claim

variable {e : Executor} {commands : List Command}

/-- The GEMMs of a layer and the embedding write to each slot what its command alone writes,
whatever is in the weights, the slots and the staging buffers before. A batch that throws has a
command that throws alone. -/
theorem batch_as_alone (model : Weights e) (mem : Memory) (op layer : Int)
    (hAccepted : ∀ c ∈ commands, submit_slot_command_check c = .ok ())
    (hDistinct : (commands.map (·.slot_id)).Nodup) :
    AsAlone (fun commands => model.execute_batched_gemm_slots mem commands op layer) mem commands ∧
      AsAlone (model.execute_batched_embed_slots mem) mem commands := by
  constructor
  · refine asAlone_of_checks (fun _ => rfl) (Weights.gemm_error_alone hAccepted) fun hCheck => ?_
    by_cases hNonempty : commands = []
    · subst hNonempty
      exact asAlone_of_same (fun c hc => absurd hc List.not_mem_nil) rfl
    · obtain ⟨hLayer, -⟩ := (Weights.gemm_error_none hAccepted hNonempty).mp hCheck
      exact Weights.gemm_body_asAlone hLayer hDistinct
  · refine asAlone_of_checks (fun _ => rfl) (Weights.embed_error_alone hAccepted) fun _ => ?_
    by_cases hInit : e.embed_lm_head_initialized = false
    · simp only [if_pos hInit]
      exact asAlone_of_same (fun _ _ => rfl) rfl
    · simp only [if_neg hInit]
      exact Weights.embed_body_asAlone hDistinct

/-- Two workers with a slot each, in a model of one layer. -/
def twin_executor : Executor where
  pool := {
    num_slots := 2, hidden_dim := 1, intermediate_dim := 1, qkv_dim := 3, max_seq_per_step := 2
    input_buffer_size := 16, output_buffer_size := 16
    free_mask := .zero, active_mask := .all_below 2
    owner_worker_id := fun slot => slot.val + 1 }
  num_layers := 1
  layer_weights := fun _ => ⟨1, 1, 1, 1, 1⟩
  embed_lm_head_initialized := true
  element_size := 2

/-- All weights are one, and the staging buffers have room for one token. -/
def twin_weights : Weights twin_executor where
  layers := fun _ => {
    qkv_weight := ⟨3, 1, fun _ _ => 1⟩, gate_up_weight := ⟨2, 1, fun _ _ => 1⟩
    o_weight := ⟨1, 1, fun _ _ => 1⟩, o_bias := [5]
    down_weight := ⟨1, 1, fun _ _ => 1⟩, down_bias := [] }
  staging := some {
    out_qkv := .zeros 1 3, out_hidden := .zeros 1 1, out_gateup := .zeros 1 2, max_tokens := 1 }
  embed_weight := ⟨2, 1, fun i _ => i⟩
  shaped := fun _ _ _ => ⟨⟨rfl, rfl⟩, ⟨rfl, rfl⟩, ⟨rfl, rfl⟩, ⟨rfl, rfl⟩, .inr rfl, .inl rfl⟩
  fitted := by
    intro buffers hBuffers layer _ _
    obtain rfl := Option.some.inj hBuffers
    exact ⟨⟨rfl, rfl, rfl⟩, rfl, rfl, rfl⟩
  embed_rows := by decide
  embed_cols := rfl

/-- A command of the worker that owns the slot. -/
def twin_command (slot_id tx : Int) : Command :=
  ⟨OP_O_PROJ, 0, slot_id, slot_id + 1, 1, tx, 1, 0, 0, 0, 0, 0⟩

/-- One token of the first slot and two of the second one. -/
theorem batch_as_alone_twins :
    AsAlone (fun commands => twin_weights.execute_batched_gemm_slots
        (fun slot_id => ⟨fun i => slot_id + i, fun i => i, fun _ => 0⟩) commands OP_O_PROJ 0)
      (fun slot_id => ⟨fun i => slot_id + i, fun i => i, fun _ => 0⟩)
      [twin_command 0 1, twin_command 1 2] ∧
    AsAlone (twin_weights.execute_batched_embed_slots
        (fun slot_id => ⟨fun i => slot_id + i, fun i => i, fun _ => 0⟩))
      (fun slot_id => ⟨fun i => slot_id + i, fun i => i, fun _ => 0⟩)
      [twin_command 0 1, twin_command 1 2] :=
  batch_as_alone twin_weights _ OP_O_PROJ 0 (by decide) (by decide)

/-- The second token of the second slot, with its bias. -/
example : (twin_weights.execute_batched_gemm_slots
    (fun slot_id => ⟨fun i => slot_id + i, fun i => i, fun _ => 0⟩)
    [twin_command 0 1, twin_command 1 2] OP_O_PROJ 0).map (fun after => (after 1).output_buffer 1) =
      .ok 7 := by
  decide +kernel

end Claim

end Aggregator
