import SwarmLoRA.Worker.Engine

namespace Worker

/-- The bookkeeping of the cache: which blocks are free, and which each slot has. The free blocks
are a stack with its top at the front. -/
structure PagedKVCache where
  block_size : Nat
  max_blocks_per_seq : Nat
  num_blocks : Nat
  free_blocks : List Nat
  slot_block_tables : SlotId → Option (List Nat) := fun _ => none
  slot_seq_lens : SlotId → Option Nat := fun _ => none

namespace PagedKVCache

/-- `__init__`. -/
def new (block_size max_slots max_seq_len : Nat) : PagedKVCache :=
  let max_blocks_per_seq := (max_seq_len + block_size - 1) / block_size
  { block_size := block_size
    max_blocks_per_seq := max_blocks_per_seq
    num_blocks := max_slots * max_blocks_per_seq
    free_blocks := List.range (max_slots * max_blocks_per_seq) }

variable (cache : PagedKVCache) (slot_id : SlotId)

def set_seq_len (length : Nat) : PagedKVCache :=
  { cache with slot_seq_lens := Function.update cache.slot_seq_lens slot_id (some length) }

/-- Fails if there are not enough free blocks. -/
def allocate_blocks (num_blocks : Nat) : Except String PagedKVCache :=
  if cache.free_blocks.length < num_blocks then
    .error s!"PagedKVCache: need {num_blocks} blocks but only {cache.free_blocks.length} free"
  else
    let blocks := cache.free_blocks.take num_blocks
    let cache := { cache with free_blocks := cache.free_blocks.drop num_blocks }
    match cache.slot_block_tables slot_id with
    | some table =>
        .ok { cache with
          slot_block_tables := Function.update cache.slot_block_tables slot_id
            (some (table ++ blocks)) }
    | none =>
        .ok { cache.set_seq_len slot_id 0 with
          slot_block_tables := Function.update cache.slot_block_tables slot_id (some blocks) }

def current_blocks : Nat := ((cache.slot_block_tables slot_id).getD []).length

def needed_blocks (needed_len : Nat) : Nat := (needed_len + cache.block_size - 1) / cache.block_size

def ensure_blocks_for_length (needed_len : Nat) : Except String PagedKVCache :=
  if cache.current_blocks slot_id < cache.needed_blocks needed_len then
    cache.allocate_blocks slot_id (cache.needed_blocks needed_len - cache.current_blocks slot_id)
  else .ok cache

def free_slot : PagedKVCache :=
  { cache with
    free_blocks := ((cache.slot_block_tables slot_id).getD []).reverse ++ cache.free_blocks
    slot_block_tables := Function.update cache.slot_block_tables slot_id none
    slot_seq_lens := Function.update cache.slot_seq_lens slot_id none }

def advance_seq_lens_by (count : Nat) : PagedKVCache :=
  { cache with
    slot_seq_lens := Function.update cache.slot_seq_lens slot_id
      ((cache.slot_seq_lens slot_id).map (· + count)) }

/-- A cache for sequences of so many tokens in so many slots, where one slot has the blocks for
its tokens and no other slot has any. -/
structure Held (block_size max_slots max_seq_len : Nat) (slot_id : SlotId) (length : Nat)
    (cache : PagedKVCache) : Prop where
  block_size_eq : cache.block_size = block_size
  max_blocks : cache.max_blocks_per_seq = (max_seq_len + block_size - 1) / block_size
  num_blocks_eq : cache.num_blocks = max_slots * cache.max_blocks_per_seq
  free : cache.free_blocks.length + cache.current_blocks slot_id = cache.num_blocks
  current : cache.current_blocks slot_id = cache.needed_blocks length
  others : ∀ other, other ≠ slot_id → cache.slot_block_tables other = none

/-- No slot has any blocks. -/
structure Rested (block_size max_slots max_seq_len : Nat) (cache : PagedKVCache) : Prop where
  block_size_eq : cache.block_size = block_size
  max_blocks : cache.max_blocks_per_seq = (max_seq_len + block_size - 1) / block_size
  num_blocks_eq : cache.num_blocks = max_slots * cache.max_blocks_per_seq
  free : cache.free_blocks.length = cache.num_blocks
  tables : ∀ slot_id, cache.slot_block_tables slot_id = none

variable {block_size max_slots max_seq_len length needed_len : Nat} {cache : PagedKVCache}
  {slot_id : SlotId}

theorem rested_new : Rested block_size max_slots max_seq_len (new block_size max_slots max_seq_len) :=
  ⟨rfl, rfl, rfl, List.length_range, fun _ => rfl⟩

theorem needed_blocks_zero (hPos : 0 < cache.block_size) : cache.needed_blocks 0 = 0 := by
  unfold needed_blocks
  rw [Nat.zero_add]
  exact Nat.div_eq_of_lt (Nat.sub_lt hPos Nat.one_pos)

theorem needed_blocks_mono (h : length ≤ needed_len) :
    cache.needed_blocks length ≤ cache.needed_blocks needed_len :=
  Nat.div_le_div_right (by omega)

theorem length_eq_zero_of_needed_blocks (hPos : 0 < cache.block_size)
    (h : cache.needed_blocks length = 0) : length = 0 := by
  unfold needed_blocks at h
  rcases Nat.div_eq_zero_iff.mp h with hZero | hLt
  · omega
  · omega

theorem Rested.held (h : Rested block_size max_slots max_seq_len cache)
    (hPos : 0 < block_size) :
    Held block_size max_slots max_seq_len slot_id 0 (cache.set_seq_len slot_id 0) := by
  have hNone : (cache.set_seq_len slot_id 0).current_blocks slot_id = 0 := by
    unfold current_blocks
    rw [show (cache.set_seq_len slot_id 0).slot_block_tables slot_id = none from h.tables slot_id]
    rfl
  refine ⟨h.block_size_eq, h.max_blocks, h.num_blocks_eq, ?_, ?_, fun other _ => h.tables other⟩
  · rw [hNone]
    exact h.free
  · rw [hNone, needed_blocks_zero]
    exact h.block_size_eq.symm ▸ hPos

/-- With enough free blocks the slot gets so many more. -/
theorem allocate_blocks_ok {count : Nat} (hEnough : count ≤ cache.free_blocks.length) :
    ∃ cache', cache.allocate_blocks slot_id count = .ok cache' ∧
      (cache'.block_size = cache.block_size ∧
        cache'.max_blocks_per_seq = cache.max_blocks_per_seq ∧
          cache'.num_blocks = cache.num_blocks) ∧
      cache'.free_blocks.length = cache.free_blocks.length - count ∧
        cache'.current_blocks slot_id = cache.current_blocks slot_id + count ∧
          (∀ other, other ≠ slot_id →
            cache'.slot_block_tables other = cache.slot_block_tables other) ∧
            cache'.slot_seq_lens slot_id =
              if cache.slot_block_tables slot_id = none then some 0
              else cache.slot_seq_lens slot_id := by
  have hTake : (cache.free_blocks.take count).length = count := by
    rw [List.length_take]
    omega
  simp only [allocate_blocks, if_neg (Nat.not_lt.mpr hEnough)]
  cases hTable : cache.slot_block_tables slot_id with
  | some table =>
      refine ⟨_, rfl, ⟨rfl, rfl, rfl⟩, List.length_drop, ?_, ?_, ?_⟩
      · simp [current_blocks, hTable, hTake]
      · intro other hNe
        exact Function.update_of_ne hNe _ _
      · simp
  | none =>
      refine ⟨_, rfl, ⟨rfl, rfl, rfl⟩, List.length_drop, ?_, ?_, ?_⟩
      · simp [current_blocks, hTable, hTake]
      · intro other hNe
        exact Function.update_of_ne hNe _ _
      · simp [set_seq_len]

/-- For a slot that is alone, there are blocks for any length that the cache was made for. -/
theorem Held.ensure (h : Held block_size max_slots max_seq_len slot_id length cache)
    (hPos : 0 < block_size) (hSlots : 0 < max_slots)
    (hLength : cache.slot_seq_lens slot_id = some length) (hLe : length ≤ needed_len)
    (hFits : needed_len ≤ max_seq_len) :
    ∃ cache', cache.ensure_blocks_for_length slot_id needed_len = .ok cache' ∧
      Held block_size max_slots max_seq_len slot_id needed_len cache' ∧
        cache'.slot_seq_lens slot_id = some length := by
  have hSize : 0 < cache.block_size := h.block_size_eq.symm ▸ hPos
  have hMono : cache.needed_blocks length ≤ cache.needed_blocks needed_len :=
    needed_blocks_mono hLe
  have hMax : cache.needed_blocks needed_len ≤ cache.max_blocks_per_seq := by
    rw [h.max_blocks, ← h.block_size_eq]
    exact Nat.div_le_div_right (by omega)
  have hRoom : cache.max_blocks_per_seq ≤ cache.num_blocks := by
    rw [h.num_blocks_eq]
    exact Nat.le_mul_of_pos_left _ hSlots
  have hFree := h.free
  have hCurrent := h.current
  unfold ensure_blocks_for_length
  split
  · have hEnough : cache.needed_blocks needed_len - cache.current_blocks slot_id ≤
        cache.free_blocks.length := by omega
    obtain ⟨cache', hOk, ⟨hSame, hSameMax, hSameNum⟩, hLeft, hMore, hOthers, hSeq⟩ :=
      allocate_blocks_ok hEnough
    have hNeeded : cache'.needed_blocks needed_len = cache.needed_blocks needed_len := by
      unfold needed_blocks
      rw [hSame]
    refine ⟨cache', hOk,
      ⟨hSame.trans h.block_size_eq, hSameMax.trans h.max_blocks, ?_, ?_, ?_, ?_⟩, ?_⟩
    · rw [hSameNum, hSameMax]
      exact h.num_blocks_eq
    · omega
    · omega
    · intro other hNe
      rw [hOthers other hNe]
      exact h.others other hNe
    · rw [hSeq]
      split
      · rename_i hNone
        have hZero : cache.current_blocks slot_id = 0 := by
          unfold current_blocks
          rw [hNone]
          rfl
        rw [length_eq_zero_of_needed_blocks hSize (hCurrent.symm.trans hZero)]
      · exact hLength
  · refine ⟨cache, rfl, ⟨h.block_size_eq, h.max_blocks, h.num_blocks_eq, h.free, ?_, h.others⟩,
      hLength⟩
    omega

/-- A slot that gives its blocks back leaves none in use. -/
theorem Held.rested (h : Held block_size max_slots max_seq_len slot_id length cache) :
    Rested block_size max_slots max_seq_len (cache.free_slot slot_id) := by
  refine ⟨h.block_size_eq, h.max_blocks, h.num_blocks_eq, ?_, ?_⟩
  · have hFree := h.free
    simp only [free_slot, List.length_append, List.length_reverse]
    unfold current_blocks at hFree
    omega
  · intro other
    by_cases hSame : other = slot_id
    · rw [hSame]
      exact Function.update_self _ _ _
    · exact (Function.update_of_ne hSame _ _).trans (h.others other hSame)

theorem Held.advance (h : Held block_size max_slots max_seq_len slot_id length cache)
    (count : Nat) :
    Held block_size max_slots max_seq_len slot_id length
      (cache.advance_seq_lens_by slot_id count) :=
  ⟨h.block_size_eq, h.max_blocks, h.num_blocks_eq, h.free, h.current, h.others⟩

end PagedKVCache

end Worker
