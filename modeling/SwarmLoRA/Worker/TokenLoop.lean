import Mathlib.Data.List.Basic
import SwarmLoRA.Worker.PagedCache

namespace Data

variable {α : Type}

/-- The pieces of `n` entries each. -/
def chunks (n : Nat) (l : List α) : List (List α) :=
  (List.range ((l.length + n - 1) / n)).map fun k => (l.drop (k * n)).take n

variable {n : Nat} {l : List α}

theorem flatten_pieces (k : Nat) :
    ((List.range k).map fun i => (l.drop (i * n)).take n).flatten = l.take (k * n) := by
  induction k with
  | zero => simp
  | succ k ih =>
      rw [List.range_succ, List.map_append, List.flatten_append, ih, Nat.succ_mul, List.take_add]
      simp

theorem le_ceil_mul (length : Nat) (hn : 0 < n) : length ≤ (length + n - 1) / n * n := by
  have hDiv := Nat.lt_div_mul_add (a := length + n - 1) hn
  omega

theorem flatten_chunks (hn : 0 < n) : (chunks n l).flatten = l := by
  unfold chunks
  rw [flatten_pieces, List.take_of_length_le (le_ceil_mul l.length hn)]

/-- No piece is empty. -/
theorem length_of_mem_chunks (hn : 0 < n) {c : List α} (hMem : c ∈ chunks n l) :
    0 < c.length ∧ c.length ≤ n := by
  obtain ⟨k, hk, rfl⟩ := List.mem_map.mp hMem
  rw [List.mem_range] at hk
  have hStart : k * n < l.length := by
    have hMul : (k + 1) * n ≤ l.length + n - 1 :=
      Nat.le_trans (Nat.mul_le_mul_right n hk) (Nat.div_mul_le_self _ n)
    rw [Nat.succ_mul] at hMul
    omega
  rw [List.length_take, List.length_drop]
  omega

end Data

/-!
A request that a worker serves alone, from its tokens to its last pass through the model: the
chunks of its prompt, the positions and cache blocks of every pass, and the tight loop around
the passes.
-/

namespace Worker.TokenLoop

open Data

abbrev TokenId := Nat

/-- The limits of a worker. -/
structure Config extends Worker.Config where
  block_size : Nat
  max_slots : Nat
  two_le_seq : 2 ≤ max_seq_len
  chunk_pos : 0 < prefill_chunk_size
  block_pos : 0 < block_size
  slots_pos : 0 < max_slots

/-- A `SlotState`. No chunk left stands for `None` as well. -/
structure SlotState where
  /-- Of its request. -/
  max_tokens : Nat
  prompt_tokens : Nat
  input_ids : List TokenId
  generated_tokens : List TokenId := []
  prefill_chunks : List (List TokenId) := []

/-- A token in a pass: its rotary position, and the number of keys before its own that it
attends to. -/
structure Fed where
  token : TokenId
  position : Nat
  kv_len : Nat
  deriving DecidableEq

/-- A token that the aggregator has sampled, the position of the row that it was sampled from,
and whether it was kept. -/
structure Sample where
  token : TokenId
  position : Nat
  kept : Bool
  deriving DecidableEq

/-- The cache, the slot and what has been fed and sampled. `slot` is the entry of the dictionary
that the tight loop goes on with. -/
structure State where
  cache : PagedKVCache
  slot : Option SlotState
  fed : List Fed := []
  samples : List Sample := []

/-- What a pass meets: the token it would sample, an eviction before it, blocks that are not to
be had, and a new request or a pending slot after it. -/
structure Turn where
  token : TokenId
  evicted : Bool := false
  exhausted : Bool := false
  arrival : Bool := false

/-- Nothing tears the slot down. -/
def Turn.quiet (turn : Turn) : Bool := !turn.evicted && !turn.exhausted

section Accept

variable (cfg : Config)

/-- A prompt that is too long keeps its last tokens. -/
def Config.truncate (prompt : List TokenId) : List TokenId :=
  if cfg.max_seq_len ≤ prompt.length then prompt.drop (prompt.length - (cfg.max_seq_len - 1))
  else prompt

/-- The bounds that the HTTP thread puts on the number of tokens. -/
def Config.requested (max_tokens : Int) : Nat := (max 1 (min max_tokens cfg.max_seq_len)).toNat

/-- The chunks of a long prompt, or all of a short one. -/
def Config.pieces (input_ids : List TokenId) : List (List TokenId) :=
  if cfg.prefill_chunk_size < input_ids.length then chunks cfg.prefill_chunk_size input_ids
  else [input_ids]

/-- `_accept_pending_requests` for one request. -/
def accept (cache : PagedKVCache) (slot_id : SlotId) (prompt : List TokenId) (max_tokens : Int) :
    State where
  cache := cache.set_seq_len slot_id 0
  slot :=
    let input_ids := cfg.truncate prompt
    let seq_len := input_ids.length
    some {
      max_tokens := min (cfg.requested max_tokens) (cfg.max_seq_len - seq_len)
      prompt_tokens := seq_len
      input_ids := (cfg.pieces input_ids).headD []
      prefill_chunks := (cfg.pieces input_ids).tail }

end Accept

namespace SlotState

/-- `lm_head_get_all`: the token of a chunk that is not the last one is dropped. -/
def get_token (slot : SlotState) (next_token : TokenId) : SlotState :=
  match slot.prefill_chunks with
  | chunk :: rest => { slot with input_ids := chunk, prefill_chunks := rest }
  | [] => { slot with
      generated_tokens := slot.generated_tokens ++ [next_token], input_ids := [next_token] }

/-- The test for completion after each pass. -/
def completed (cfg : Config) (slot : SlotState) : Bool :=
  decide (slot.max_tokens ≤ slot.generated_tokens.length) ||
    match slot.generated_tokens.getLast? with
    | some token => cfg.eos_token_id = some token
    | none => false

end SlotState

namespace State

variable (slot_id : SlotId) (turn : Turn) (s : State)

/-- `_teardown_slot`. -/
def teardown : State := { s with cache := s.cache.free_slot slot_id, slot := none }

/-- The positions of a decode pass and of a prefill pass. -/
def positions (cache_seqlens q_len : Nat) : List Nat :=
  if q_len = 1 then [cache_seqlens]
  else (List.range q_len).map fun offset => cache_seqlens + offset

/-- A pass through the model. The attention kernel lets the token at an offset attend to the
cache and to the tokens before it in the pass. The token is sampled from the last row. -/
def forward (slot : SlotState) (cache : PagedKVCache) : State :=
  let q_len := slot.input_ids.length
  let cache_seqlens := (cache.slot_seq_lens slot_id).getD 0
  let rows := (slot.input_ids.zip (positions cache_seqlens q_len)).zipIdx
  { cache := cache.advance_seq_lens_by slot_id q_len
    slot := some (slot.get_token turn.token)
    fed := s.fed ++ rows.map fun row => ⟨row.1.1, row.1.2, cache_seqlens + row.2⟩
    samples := s.samples ++
      [⟨turn.token, cache_seqlens + q_len - 1, slot.prefill_chunks.isEmpty⟩] }

/-- The cache for the next pass. Blocks that other slots hold are not to be had. -/
def blocks (slot : SlotState) : Except String PagedKVCache :=
  let needed := (s.cache.slot_seq_lens slot_id).getD 0 + slot.input_ids.length
  if turn.exhausted then .error "KV cache exhausted"
  else s.cache.ensure_blocks_for_length slot_id needed

/-- `_generate_one_token_all`. -/
def generate_one_token_all : State :=
  match s.slot with
  | none => s
  | some slot =>
      if turn.evicted then s.teardown slot_id
      else
        match s.blocks slot_id turn slot with
        | .error _ => s.teardown slot_id
        | .ok cache => s.forward slot_id turn slot cache

/-- The slot has all its tokens. -/
def completed (cfg : Config) : Bool := s.slot.any (·.completed cfg)

/-- So many passes one after the other. -/
def run (turns : Nat → Turn) : Nat → State
  | 0 => s
  | n + 1 => (run turns n).generate_one_token_all slot_id (turns n)

/-- The tight loop is left after so many passes. -/
def leaves (cfg : Config) (turns : Nat → Turn) (n : Nat) : Prop :=
  ∃ m, n = m + 1 ∧ ((s.run slot_id turns n).completed cfg = true ∨ (turns m).arrival = true)

end State

/-- The passes for a request that is alone, up to its completion. -/
def loop (cfg : Config) (slot_id : SlotId) : Machine.System State Turn where
  initial s := ∃ cache prompt max_tokens,
    cache.Rested cfg.block_size cfg.max_slots cfg.max_seq_len ∧ prompt ≠ [] ∧
      s = accept cfg cache slot_id prompt max_tokens
  step s turn :=
    if s.completed cfg then none else some (s.generate_one_token_all slot_id turn)

/-- Tokens at consecutive positions, each of which attends to all before it. -/
def place (tokens : List TokenId) (start : Nat) : List Fed :=
  (tokens.zipIdx start).map fun x => ⟨x.1, x.2, x.2⟩

theorem place_append (l l' : List TokenId) (start : Nat) :
    place (l ++ l') start = place l start ++ place l' (start + l.length) := by
  simp [place, List.zipIdx_append]

theorem length_place (l : List TokenId) (start : Nat) : (place l start).length = l.length := by
  simp [place]

theorem positions_eq (cache_seqlens q_len : Nat) :
    State.positions cache_seqlens q_len = (List.range q_len).map fun k => cache_seqlens + k := by
  unfold State.positions
  split
  · rename_i hOne
    rw [hOne]
    rfl
  · rfl

/-- Both kinds of pass put their tokens right behind the cache. -/
theorem rows_eq (l : List TokenId) (c : Nat) :
    ((l.zip (State.positions c l.length)).zipIdx.map fun row =>
      (⟨row.1.1, row.1.2, c + row.2⟩ : Fed)) = place l c := by
  rw [positions_eq]
  apply List.ext_getElem?
  intro k
  simp only [place, List.getElem?_map, List.getElem?_zipIdx]
  by_cases hk : k < l.length
  · simp [hk]
  · simp [hk]

theorem truncate_eq (cfg : Config) (prompt : List TokenId) :
    (cfg.truncate prompt).length = min prompt.length (cfg.max_seq_len - 1) ∧
      cfg.truncate prompt <:+ prompt := by
  have hTwo := cfg.two_le_seq
  unfold Config.truncate
  split
  · refine ⟨?_, List.drop_suffix _ _⟩
    rw [List.length_drop]
    omega
  · refine ⟨?_, List.suffix_refl _⟩
    omega

theorem pieces_eq (cfg : Config) {input_ids : List TokenId} (hSome : input_ids ≠ []) :
    (cfg.pieces input_ids).flatten = input_ids ∧
      (∀ c ∈ cfg.pieces input_ids, c ≠ []) ∧ cfg.pieces input_ids ≠ [] := by
  have hFlatten : (cfg.pieces input_ids).flatten = input_ids := by
    unfold Config.pieces
    split
    · exact flatten_chunks cfg.chunk_pos
    · simp
  refine ⟨hFlatten, ?_, ?_⟩
  · intro c hMem
    unfold Config.pieces at hMem
    split at hMem
    · exact List.ne_nil_of_length_pos (length_of_mem_chunks cfg.chunk_pos hMem).1
    · rw [List.mem_singleton.mp hMem]
      exact hSome
  · intro hNil
    rw [hNil] at hFlatten
    exact hSome hFlatten.symm

end Worker.TokenLoop
