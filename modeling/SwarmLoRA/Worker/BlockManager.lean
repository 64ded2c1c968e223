import Mathlib.Algebra.Order.BigOperators.Group.Finset
import Mathlib.Algebra.Order.Floor.Div
import Mathlib.Data.Multiset.AddSub
import SwarmLoRA.Machine.System
import SwarmLoRA.Worker.PagedCache

/-! The paged KV cache with what its blocks hold, in any sequence of the calls of its block
manager and of the writes of the attention. -/
namespace Worker

open Machine

/-- What a call may raise. -/
inductive CacheError where
  | runtime_error (message : String)
  | key_error (slot_id : SlotId)
  | index_error

/-- The caches have the contents of each block, layer by layer. The block manager only clears them;
the attention writes. -/
structure KVCache (Contents : Type) extends PagedKVCache where
  key_caches : List (Nat → Contents)
  value_caches : List (Nat → Contents)

/-- A call of the block manager, which leaves the cache as it is when it raises. -/
abbrev CacheM (Contents : Type) := EStateM CacheError (KVCache Contents)

namespace PagedKVCache

variable (cache : PagedKVCache) (slot_id : SlotId)

/-- The blocks of the slot, none where it has no table. -/
def blocks : List Nat := (cache.slot_block_tables slot_id).getD []

/-- They are as many as are counted. -/
theorem length_blocks : (cache.blocks slot_id).length = cache.current_blocks slot_id := rfl

/-- The free blocks and the tables have each block once, and no table is too long. The sizes are
those that the cache was made with. -/
structure Managed (block_size max_slots max_seq_len : Nat) (cache : PagedKVCache) : Prop where
  block_size_eq : cache.block_size = block_size
  max_blocks : cache.max_blocks_per_seq = (max_seq_len + block_size - 1) / block_size
  num_blocks_eq : cache.num_blocks = max_slots * cache.max_blocks_per_seq
  bound : ∀ slot_id, cache.current_blocks slot_id ≤ cache.max_blocks_per_seq
  partition : ∃ slots : Finset SlotId, (∀ slot_id ∉ slots, cache.blocks slot_id = []) ∧
    (cache.free_blocks : Multiset Nat) + ∑ slot_id ∈ slots, (cache.blocks slot_id : Multiset Nat) =
      Multiset.range cache.num_blocks

/-- The slot has so many more blocks, from the top of the stack. -/
structure Grown (cache cache' : PagedKVCache) (slot_id : SlotId) (count : Nat) : Prop where
  sizes : cache'.block_size = cache.block_size ∧
    cache'.max_blocks_per_seq = cache.max_blocks_per_seq ∧ cache'.num_blocks = cache.num_blocks
  enough : count ≤ cache.free_blocks.length
  free : cache'.free_blocks = cache.free_blocks.drop count
  own : cache'.blocks slot_id = cache.blocks slot_id ++ cache.free_blocks.take count
  others : ∀ other, other ≠ slot_id → cache'.blocks other = cache.blocks other

variable {cache} {cache' : PagedKVCache} {slot_id} {count needed_len : Nat}
  {block_size max_slots max_seq_len : Nat}

/-- An allocation that succeeds takes its blocks from the top of the stack. -/
theorem grown_of_allocate (h : cache.allocate_blocks slot_id count = .ok cache') :
    Grown cache cache' slot_id count := by
  by_cases hFew : cache.free_blocks.length < count
  · simp [allocate_blocks, hFew] at h
  · simp only [allocate_blocks, if_neg hFew] at h
    cases hTable : cache.slot_block_tables slot_id with
    | some table =>
        simp only [hTable, Except.ok.injEq] at h
        subst h
        refine ⟨⟨rfl, rfl, rfl⟩, Nat.le_of_not_lt hFew, rfl, ?_, fun other hOther => ?_⟩
        · simp [blocks, hTable]
        · simp [blocks, Function.update_of_ne hOther]
    | none =>
        simp only [hTable, Except.ok.injEq] at h
        subst h
        refine ⟨⟨rfl, rfl, rfl⟩, Nat.le_of_not_lt hFew, rfl, ?_, fun other hOther => ?_⟩
        · simp [blocks, hTable]
        · simp [blocks, Function.update_of_ne hOther]

/-- The slots may be any that have all blocks that are in use. -/
theorem Managed.partition_of (h : Managed block_size max_slots max_seq_len cache)
    {slots : Finset SlotId} (hSlots : ∀ slot_id ∉ slots, cache.blocks slot_id = []) :
    (cache.free_blocks : Multiset Nat) + ∑ slot_id ∈ slots, (cache.blocks slot_id : Multiset Nat) =
      Multiset.range cache.num_blocks := by
  obtain ⟨slots', hSlots', hPartition⟩ := h.partition
  have hEmpty {slot_id : SlotId} (hNone : cache.blocks slot_id = []) :
      (cache.blocks slot_id : Multiset Nat) = 0 := by
    rw [hNone]
    rfl
  have hLeft : ∑ slot_id ∈ slots, (cache.blocks slot_id : Multiset Nat) =
      ∑ slot_id ∈ slots ∪ slots', (cache.blocks slot_id : Multiset Nat) :=
    Finset.sum_subset Finset.subset_union_left fun slot_id _ hOut => hEmpty (hSlots slot_id hOut)
  have hRight : ∑ slot_id ∈ slots', (cache.blocks slot_id : Multiset Nat) =
      ∑ slot_id ∈ slots ∪ slots', (cache.blocks slot_id : Multiset Nat) :=
    Finset.sum_subset Finset.subset_union_right fun slot_id _ hOut => hEmpty (hSlots' slot_id hOut)
  rw [hLeft, ← hRight]
  exact hPartition

/-- The slots with blocks, and one more. -/
theorem Managed.partition_with (h : Managed block_size max_slots max_seq_len cache)
    (slot_id : SlotId) : ∃ slots : Finset SlotId, slot_id ∉ slots ∧
      (∀ other ∉ insert slot_id slots, cache.blocks other = []) ∧
      (cache.free_blocks : Multiset Nat) + ((cache.blocks slot_id : Multiset Nat) +
        ∑ other ∈ slots, (cache.blocks other : Multiset Nat)) = Multiset.range cache.num_blocks := by
  obtain ⟨slots, hSlots, -⟩ := h.partition
  have hOut : ∀ other ∉ insert slot_id (slots.erase slot_id), cache.blocks other = [] := by
    intro other hOther
    refine hSlots other fun hIn => hOther ?_
    by_cases hSame : other = slot_id
    · exact Finset.mem_insert.mpr (.inl hSame)
    · exact Finset.mem_insert_of_mem (Finset.mem_erase.mpr ⟨hSame, hIn⟩)
  have hPartition := h.partition_of hOut
  rw [Finset.sum_insert (Finset.notMem_erase slot_id slots)] at hPartition
  exact ⟨slots.erase slot_id, Finset.notMem_erase slot_id slots, hOut, hPartition⟩

/-- Only the blocks of one slot and the free blocks have changed, and together they are the same. -/
theorem Managed.of_slot (h : Managed block_size max_slots max_seq_len cache) (slot_id : SlotId)
    (hSizes : cache'.block_size = cache.block_size ∧
      cache'.max_blocks_per_seq = cache.max_blocks_per_seq ∧ cache'.num_blocks = cache.num_blocks)
    (hBound : cache'.current_blocks slot_id ≤ cache.max_blocks_per_seq)
    (hSame : (cache'.free_blocks : Multiset Nat) + (cache'.blocks slot_id : Multiset Nat) =
      (cache.free_blocks : Multiset Nat) + (cache.blocks slot_id : Multiset Nat))
    (hOthers : ∀ other, other ≠ slot_id → cache'.blocks other = cache.blocks other) :
    Managed block_size max_slots max_seq_len cache' where
  block_size_eq := hSizes.1.trans h.block_size_eq
  max_blocks := hSizes.2.1.trans h.max_blocks
  num_blocks_eq := by
    rw [hSizes.2.1, hSizes.2.2]
    exact h.num_blocks_eq
  bound other := by
    rw [hSizes.2.1]
    by_cases hOther : other = slot_id
    · rw [hOther]
      exact hBound
    · rw [← length_blocks, hOthers other hOther]
      exact h.bound other
  partition := by
    obtain ⟨slots, hNew, hOut, hPartition⟩ := h.partition_with slot_id
    refine ⟨insert slot_id slots, fun other hOther => ?_, ?_⟩
    · rw [hOthers other fun hEq => hOther (hEq ▸ Finset.mem_insert_self slot_id slots)]
      exact hOut other hOther
    · have hRest : ∑ other ∈ slots, (cache'.blocks other : Multiset Nat) =
          ∑ other ∈ slots, (cache.blocks other : Multiset Nat) := by
        refine Finset.sum_congr rfl fun other hIn => ?_
        rw [hOthers other fun hEq => hNew (hEq ▸ hIn)]
      rw [Finset.sum_insert hNew, hRest, ← add_assoc, hSame, hSizes.2.2, add_assoc]
      exact hPartition

/-- The slot may grow as far as its table goes. -/
theorem Managed.grow (h : Managed block_size max_slots max_seq_len cache)
    (hGrown : Grown cache cache' slot_id count)
    (hFits : cache.current_blocks slot_id + count ≤ cache.max_blocks_per_seq) :
    Managed block_size max_slots max_seq_len cache' := by
  refine h.of_slot slot_id hGrown.sizes ?_ ?_ hGrown.others
  · rw [← length_blocks, hGrown.own, List.length_append, List.length_take_of_le hGrown.enough]
    exact hFits
  · rw [hGrown.free, hGrown.own, Multiset.coe_add, Multiset.coe_add, Multiset.coe_eq_coe]
    refine List.perm_append_comm.trans ?_
    rw [List.append_assoc, List.take_append_drop]
    exact List.perm_append_comm

/-- The blocks of a slot that is freed go back. -/
theorem Managed.free_slot (h : Managed block_size max_slots max_seq_len cache) (slot_id : SlotId) :
    Managed block_size max_slots max_seq_len (cache.free_slot slot_id) := by
  have hNone : (cache.free_slot slot_id).blocks slot_id = [] := by
    simp [blocks, PagedKVCache.free_slot]
  refine h.of_slot slot_id ⟨rfl, rfl, rfl⟩ ?_ ?_ fun other hOther => ?_
  · rw [← length_blocks, hNone]
    exact Nat.zero_le _
  · rw [hNone, Multiset.coe_add, Multiset.coe_add, Multiset.coe_eq_coe, List.append_nil]
    exact ((List.reverse_perm _).append_right _).trans List.perm_append_comm
  · simp [blocks, PagedKVCache.free_slot, Function.update_of_ne hOther]

/-- Lengths have no part in it. -/
theorem Managed.seq_lens (h : Managed block_size max_slots max_seq_len cache)
    (slot_seq_lens : SlotId → Option Nat) :
    Managed block_size max_slots max_seq_len { cache with slot_seq_lens } :=
  ⟨h.block_size_eq, h.max_blocks, h.num_blocks_eq, h.bound, h.partition⟩

/-- A length within the limit needs no more blocks than a table has. -/
theorem Managed.needed_le (h : Managed block_size max_slots max_seq_len cache)
    (hFits : needed_len ≤ max_seq_len) :
    cache.needed_blocks needed_len ≤ cache.max_blocks_per_seq := by
  unfold needed_blocks
  rw [h.max_blocks, h.block_size_eq]
  exact Nat.div_le_div_right (by omega)

/-- There are enough blocks for a slot that is among so few. -/
theorem Managed.room (h : Managed block_size max_slots max_seq_len cache) {slots : Finset SlotId}
    (hSlot : slot_id ∈ slots) (hSlots : ∀ other ∉ slots, cache.blocks other = [])
    (hFew : slots.card ≤ max_slots) :
    cache.max_blocks_per_seq ≤ cache.free_blocks.length + cache.current_blocks slot_id := by
  have hCard := congrArg Multiset.card (h.partition_of hSlots)
  rw [Multiset.card_add, Multiset.card_sum, Multiset.card_range,
    ← Finset.add_sum_erase slots _ hSlot] at hCard
  simp only [Multiset.coe_card, length_blocks] at hCard
  have hOthers : ∑ other ∈ slots.erase slot_id, cache.current_blocks other ≤
      (slots.erase slot_id).card * cache.max_blocks_per_seq :=
    Finset.sum_le_card_nsmul _ _ _ fun other _ => h.bound other
  have hErase := Finset.card_erase_add_one hSlot
  have hTotal : ((slots.erase slot_id).card + 1) * cache.max_blocks_per_seq ≤ cache.num_blocks := by
    rw [h.num_blocks_eq, hErase]
    exact Nat.mul_le_mul_right _ hFew
  rw [Nat.succ_mul] at hTotal
  omega

/-- Making room for a length within the limit gives the slot the blocks it needs, out of the free
ones. -/
theorem Managed.ensure (h : Managed block_size max_slots max_seq_len cache)
    (hFits : needed_len ≤ max_seq_len)
    (hOk : cache.ensure_blocks_for_length slot_id needed_len = .ok cache') :
    Managed block_size max_slots max_seq_len cache' ∧
      cache'.free_blocks ⊆ cache.free_blocks ∧
        cache.needed_blocks needed_len ≤ cache'.current_blocks slot_id := by
  have hMax := h.needed_le hFits
  unfold ensure_blocks_for_length at hOk
  split at hOk
  next hMore =>
    have hGrown := grown_of_allocate hOk
    refine ⟨h.grow hGrown (by omega), ?_, ?_⟩
    · rw [hGrown.free]
      exact List.drop_subset _ _
    · rw [← length_blocks, hGrown.own, List.length_append, List.length_take_of_le hGrown.enough,
        length_blocks]
      omega
  next hEnough =>
    obtain rfl := Except.ok.inj hOk
    exact ⟨h, List.Subset.refl _, Nat.le_of_not_lt hEnough⟩

/-- There are enough blocks for as many slots as the worker may have. -/
theorem Managed.ensure_ok (h : Managed block_size max_slots max_seq_len cache)
    {slots : Finset SlotId} (hFits : needed_len ≤ max_seq_len) (hSlot : slot_id ∈ slots)
    (hSlots : ∀ other ∉ slots, cache.blocks other = []) (hFew : slots.card ≤ max_slots) :
    ∃ cache', cache.ensure_blocks_for_length slot_id needed_len = .ok cache' := by
  have hMax := h.needed_le hFits
  have hRoom := h.room hSlot hSlots hFew
  unfold ensure_blocks_for_length
  split
  next hMore =>
    have hEnough : cache.needed_blocks needed_len - cache.current_blocks slot_id ≤
        cache.free_blocks.length := by omega
    obtain ⟨cache', hOk, -⟩ := allocate_blocks_ok hEnough
    exact ⟨cache', hOk⟩
  next => exact ⟨cache, rfl⟩

/-- At the start all blocks are free. -/
theorem managed_new : Managed block_size max_slots max_seq_len
    (new block_size max_slots max_seq_len) where
  block_size_eq := rfl
  max_blocks := rfl
  num_blocks_eq := rfl
  bound _ := Nat.zero_le _
  partition := ⟨∅, fun _ _ => rfl, by rw [Finset.sum_empty, add_zero]; rfl⟩

end PagedKVCache

namespace KVCache

variable {Contents : Type}

/-- `__init__`. -/
def new [Zero Contents] (num_layers block_size max_slots max_seq_len : Nat) : KVCache Contents where
  toPagedKVCache := .new block_size max_slots max_seq_len
  key_caches := List.replicate num_layers fun _ => 0
  value_caches := List.replicate num_layers fun _ => 0

/-- `index_fill_` with zeros. -/
def zero_fill [Zero Contents] (blocks : List Nat) (cache : Nat → Contents) : Nat → Contents :=
  fun b => if b ∈ blocks then 0 else cache b

/-- The blocks of `free_blocks.pop()`, so many times. -/
def pop_blocks : Nat → CacheM Contents (List Nat)
  | 0 => pure []
  | count + 1 => do
      let self ← get
      match self.free_blocks with
      | [] => throw .index_error
      | b :: rest =>
          set { self with free_blocks := rest }
          return b :: (← pop_blocks count)

/-- `_allocate_blocks`. -/
def allocate_blocks (slot_id : SlotId) (num_blocks : Nat) : CacheM Contents Unit := do
  let self ← get
  if self.free_blocks.length < num_blocks then
    throw (.runtime_error
      s!"PagedKVCache: need {num_blocks} blocks but only {self.free_blocks.length} free")
  let blocks ← pop_blocks num_blocks
  let self ← get
  match self.slot_block_tables slot_id with
  | some table =>
      set { self with
        slot_block_tables := Function.update self.slot_block_tables slot_id
          (some (table ++ blocks)) }
  | none =>
      set { self with
        slot_block_tables := Function.update self.slot_block_tables slot_id (some blocks)
        slot_seq_lens := Function.update self.slot_seq_lens slot_id (some 0) }

/-- `ensure_blocks_for_length`. -/
def ensure_blocks_for_length (slot_id : SlotId) (needed_len : Nat) : CacheM Contents Unit := do
  let self ← get
  let needed_blocks := self.needed_blocks needed_len
  let current_blocks := self.current_blocks slot_id
  if needed_blocks > current_blocks then
    allocate_blocks slot_id (needed_blocks - current_blocks)

/-- `free_slot`, which wipes the blocks. -/
def free_slot [Zero Contents] (slot_id : SlotId) : CacheM Contents Unit :=
  modify fun self =>
    let blocks := (self.slot_block_tables slot_id).getD []
    { self with
      toPagedKVCache := self.toPagedKVCache.free_slot slot_id
      key_caches := self.key_caches.map (zero_fill blocks)
      value_caches := self.value_caches.map (zero_fill blocks) }

/-- One round of the loops of `advance_seq_lens` and `advance_seq_lens_by`. -/
def advance (slot_id : SlotId) (count : Nat) : CacheM Contents Unit := do
  let self ← get
  match self.slot_seq_lens slot_id with
  | none => throw (.key_error slot_id)
  | some length =>
      set { self with
        slot_seq_lens := Function.update self.slot_seq_lens slot_id (some (length + count)) }

/-- `advance_seq_lens` with one count for all the slots. -/
def advance_seq_lens (slot_ids : List SlotId) (count : Nat) : CacheM Contents Unit :=
  slot_ids.forM fun slot_id => advance slot_id count

/-- With a count for each slot. -/
def advance_seq_lens_by (slot_ids : List SlotId) (counts : List Nat) : CacheM Contents Unit :=
  (slot_ids.zip counts).forM fun e => advance e.1 e.2

/-- A request that gets the slot starts at length 0. -/
def init_seq_len (slot_id : SlotId) : CacheM Contents Unit :=
  modify fun self => { self with toPagedKVCache := self.toPagedKVCache.set_seq_len slot_id 0 }

/-- The table of a slot as row `i` of the buffer, which has `max_slots` rows, with zeros after its
blocks. -/
def block_table_row (max_slots : Nat) (sid : SlotId) (i : Nat) : CacheM Contents (List Nat) := do
  let self ← get
  match self.slot_block_tables sid with
  | none => throw (.key_error sid)
  | some blocks =>
      if blocks ≠ [] ∧ (max_slots ≤ i ∨ self.max_blocks_per_seq < blocks.length) then
        throw .index_error
      return blocks ++ List.replicate (self.max_blocks_per_seq - blocks.length) 0

/-- The block tables of the slots, cut to the size of the buffer. -/
def get_block_table_tensor (max_slots : Nat) (slot_ids : List SlotId) :
    CacheM Contents (List (List Nat)) := do
  let bt ← slot_ids.zipIdx.mapM fun e => block_table_row max_slots e.1 e.2
  return bt.take max_slots

/-- The length of a slot as entry `i` of the buffer. -/
def seq_len_entry (max_slots : Nat) (sid : SlotId) (i : Nat) : CacheM Contents Nat := do
  let self ← get
  match self.slot_seq_lens sid with
  | none => throw (.key_error sid)
  | some length =>
      if max_slots ≤ i then
        throw .index_error
      return length

/-- The lengths of the slots, cut to the size of the buffer. -/
def get_seq_lens_tensor (max_slots : Nat) (slot_ids : List SlotId) : CacheM Contents (List Nat) := do
  let sl ← slot_ids.zipIdx.mapM fun e => seq_len_entry max_slots e.1 e.2
  return sl.take max_slots

variable {s s' : KVCache Contents} {slot_id : SlotId} {count : Nat}

/-- Reading the cache changes nothing. -/
theorem get_apply (s : KVCache Contents) :
    (get : CacheM Contents (KVCache Contents)) s = .ok s s := rfl

/-- Writing it replaces it. -/
theorem set_apply (s s' : KVCache Contents) :
    (set s' : CacheM Contents PUnit) s = .ok ⟨⟩ s' := rfl

/-- Popping takes the blocks off the top of the stack. -/
theorem run_pop_blocks (hEnough : count ≤ s.free_blocks.length) :
    (pop_blocks count).run s =
      .ok (s.free_blocks.take count) { s with free_blocks := s.free_blocks.drop count } := by
  induction count generalizing s with
  | zero => rfl
  | succ count ih =>
      cases hFree : s.free_blocks with
      | nil =>
          rw [hFree] at hEnough
          exact absurd hEnough (Nat.not_succ_le_zero count)
      | cons b rest =>
          rw [hFree] at hEnough
          have hRest := @ih { s with free_blocks := rest } (Nat.le_of_succ_le_succ hEnough)
          simp only [pop_blocks, EStateM.run, bind, EStateM.bind, get_apply, hFree, set_apply, pure,
            EStateM.pure] at hRest ⊢
          rw [hRest]
          rfl

/-- A failed allocation changes nothing, and another one is the allocation of the block manager. -/
theorem run_allocate_blocks :
    (allocate_blocks slot_id count).run s =
      match s.toPagedKVCache.allocate_blocks slot_id count with
      | .error message => .error (.runtime_error message) s
      | .ok cache => .ok () { s with toPagedKVCache := cache } := by
  by_cases hFew : s.free_blocks.length < count
  · simp only [allocate_blocks, PagedKVCache.allocate_blocks, if_pos hFew, EStateM.run, bind,
      EStateM.bind, get_apply]
    rfl
  · have hPop := run_pop_blocks (s := s) (Nat.le_of_not_lt hFew)
    simp only [EStateM.run] at hPop
    simp only [allocate_blocks, PagedKVCache.allocate_blocks, if_neg hFew, EStateM.run, bind,
      EStateM.bind, get_apply, hPop]
    cases s.slot_block_tables slot_id with
    | none => rfl
    | some table => rfl

/-- The call and the one of the manager alone agree. -/
theorem run_ensure_blocks_for_length {needed_len : Nat} :
    (ensure_blocks_for_length slot_id needed_len).run s =
      match s.toPagedKVCache.ensure_blocks_for_length slot_id needed_len with
      | .error message => .error (.runtime_error message) s
      | .ok cache => .ok () { s with toPagedKVCache := cache } := by
  by_cases hMore : s.current_blocks slot_id < s.needed_blocks needed_len
  · have hAllocate := @run_allocate_blocks Contents s slot_id
      (s.needed_blocks needed_len - s.current_blocks slot_id)
    rw [PagedKVCache.ensure_blocks_for_length, if_pos hMore, ← hAllocate]
    simp only [ensure_blocks_for_length, EStateM.run, bind, EStateM.bind, get_apply, gt_iff_lt,
      if_pos hMore]
  · rw [PagedKVCache.ensure_blocks_for_length, if_neg hMore]
    simp only [ensure_blocks_for_length, EStateM.run, bind, EStateM.bind, get_apply, gt_iff_lt,
      if_neg hMore]
    rfl

/-- The cache as a call leaves it, whether it raises or not. -/
def left (call : CacheM Contents Unit) (s : KVCache Contents) : KVCache Contents :=
  match call.run s with
  | .ok _ s' | .error _ s' => s'

/-- The cache after two calls: the first one may raise. -/
theorem left_bind (call : CacheM Contents Unit) (f : Unit → CacheM Contents Unit)
    (s : KVCache Contents) :
    left (call >>= f) s = left call s ∨ left (call >>= f) s = left (f ()) (left call s) := by
  simp only [left, EStateM.run, bind, EStateM.bind]
  cases call s with
  | ok _ s' => exact .inr rfl
  | error _ s' => exact .inl rfl

/-- A call that leaves a property as it is does so in a loop. -/
theorem left_forM {α : Type} {P : KVCache Contents → Prop} {call : α → CacheM Contents Unit}
    (hCall : ∀ a s, P s → P (left (call a) s)) (items : List α) (hStart : P s) :
    P (left (items.forM call) s) := by
  induction items generalizing s with
  | nil => exact hStart
  | cons a rest ih =>
      change P (left (call a >>= fun _ => rest.forM call) s)
      rcases left_bind (call a) (fun _ => rest.forM call) s with hSame | hSame
      · rw [hSame]
        exact hCall a s hStart
      · rw [hSame]
        exact ih (hCall a s hStart)

/-- A write of one block leaves the others as they are. -/
theorem mem_modify {caches : List (Nat → Contents)} {layer_idx block : Nat} {contents : Contents}
    {cache : Nat → Contents}
    (h : cache ∈ caches.modify layer_idx fun cache => Function.update cache block contents) :
    ∃ old ∈ caches, ∀ b, b ≠ block → cache b = old b := by
  obtain ⟨i, hi, rfl⟩ := List.mem_iff_getElem.mp h
  rw [List.length_modify] at hi
  refine ⟨caches[i], List.getElem_mem hi, fun b hOther => ?_⟩
  rw [List.getElem_modify]
  split
  next => exact Function.update_of_ne hOther _ _
  next => rfl

/-- Calls that only read, one for each item. -/
theorem run_mapM {α β : Type} {read : α → CacheM Contents β} {value : α → β} {items : List α}
    (hRead : ∀ a ∈ items, (read a).run s = .ok (value a) s) :
    (items.mapM read).run s = .ok (items.map value) s := by
  induction items with
  | nil => rfl
  | cons a rest ih =>
      have hFirst := hRead a List.mem_cons_self
      have hRest := ih fun b hb => hRead b (List.mem_cons_of_mem a hb)
      simp only [EStateM.run] at hFirst hRest
      simp only [List.mapM_cons, EStateM.run, bind, EStateM.bind, hFirst, hRest]
      rfl

section Run

variable [Zero Contents] {num_layers block_size max_slots max_seq_len : Nat}

/-- The calls of the engine in any order, and the writes of the attention, which are to blocks of
the slot that it serves. -/
inductive Event (Contents : Type) where
  | ensure_blocks_for_length (slot_id : SlotId) (needed_len : Nat)
  | free_slot (slot_id : SlotId)
  | advance_seq_lens (slot_ids : List SlotId) (count : Nat)
  | advance_seq_lens_by (slot_ids : List SlotId) (counts : List Nat)
  | init_seq_len (slot_id : SlotId)
  | attend (slot_id : SlotId) (layer_idx block : Nat) (key value : Contents)

/-- The attention of a layer writes to a block. -/
def attend (layer_idx block : Nat) (key value : Contents) (s : KVCache Contents) :
    KVCache Contents :=
  { s with
    key_caches := s.key_caches.modify layer_idx fun cache => Function.update cache block key
    value_caches := s.value_caches.modify layer_idx fun cache => Function.update cache block value }

/-- A call of the manager, or a write of the attention to a block that a slot has. -/
def step (s : KVCache Contents) : Event Contents → Option (KVCache Contents)
  | .ensure_blocks_for_length slot_id needed_len =>
      some (left (ensure_blocks_for_length slot_id needed_len) s)
  | .free_slot slot_id => some (left (free_slot slot_id) s)
  | .advance_seq_lens slot_ids count => some (left (advance_seq_lens slot_ids count) s)
  | .advance_seq_lens_by slot_ids counts => some (left (advance_seq_lens_by slot_ids counts) s)
  | .init_seq_len slot_id => some (left (init_seq_len slot_id) s)
  | .attend slot_id layer_idx block key value =>
      if block ∈ s.blocks slot_id then some (attend layer_idx block key value s) else none

variable (Contents) in
/-- Any sequence of calls and writes. -/
def machine (num_layers block_size max_slots max_seq_len : Nat) :
    System (KVCache Contents) (Event Contents) :=
  ⟨fun s => s = new num_layers block_size max_slots max_seq_len, step⟩

/-- No slot is to be longer than the cache is made for. -/
def Fits (max_seq_len : Nat) (_ : KVCache Contents) : Event Contents → Prop
  | .ensure_blocks_for_length _ needed_len => needed_len ≤ max_seq_len
  | _ => True

/-- The block manager keeps the blocks apart, and the free ones are zero. -/
structure Clean (num_layers block_size max_slots max_seq_len : Nat) (s : KVCache Contents) :
    Prop where
  managed : s.Managed block_size max_slots max_seq_len
  layers : s.key_caches.length = num_layers ∧ s.value_caches.length = num_layers
  zero : ∀ cache ∈ s.key_caches ++ s.value_caches, ∀ b ∈ s.free_blocks, cache b = 0

namespace Clean

/-- A new cache is clean. -/
theorem initial : Clean num_layers block_size max_slots max_seq_len
    (new num_layers block_size max_slots max_seq_len : KVCache Contents) where
  managed := PagedKVCache.managed_new
  layers := ⟨List.length_replicate, List.length_replicate⟩
  zero cache hCache b _ := by
    rcases List.mem_append.mp hCache with hKey | hValue
    · rw [List.eq_of_mem_replicate hKey]
    · rw [List.eq_of_mem_replicate hValue]

/-- The tables may change as long as nothing that is not clean becomes free. -/
theorem paged (h : Clean num_layers block_size max_slots max_seq_len s) {cache : PagedKVCache}
    (hManaged : cache.Managed block_size max_slots max_seq_len)
    (hFree : cache.free_blocks ⊆ s.free_blocks) :
    Clean num_layers block_size max_slots max_seq_len { s with toPagedKVCache := cache } :=
  ⟨hManaged, h.layers, fun layer hLayer b hb => h.zero layer hLayer b (hFree hb)⟩

/-- Making room keeps it clean. -/
theorem ensure (h : Clean num_layers block_size max_slots max_seq_len s) {needed_len : Nat}
    (hFits : needed_len ≤ max_seq_len) : Clean num_layers block_size max_slots max_seq_len
      (left (ensure_blocks_for_length slot_id needed_len) s) := by
  unfold left
  rw [run_ensure_blocks_for_length]
  cases hEnsure : s.toPagedKVCache.ensure_blocks_for_length slot_id needed_len with
  | error message => exact h
  | ok cache =>
      obtain ⟨hManaged, hFree, -⟩ := h.managed.ensure hFits hEnsure
      exact h.paged hManaged hFree

/-- The blocks of a slot are zero when they become free. -/
theorem free_slot (h : Clean num_layers block_size max_slots max_seq_len s) (slot_id : SlotId) :
    Clean num_layers block_size max_slots max_seq_len (left (KVCache.free_slot slot_id) s) where
  managed := h.managed.free_slot slot_id
  layers := by
    refine ⟨?_, ?_⟩
    · exact (List.length_map _).trans h.layers.1
    · exact (List.length_map _).trans h.layers.2
  zero cache hCache b hb := by
    change cache ∈ s.key_caches.map (zero_fill (s.blocks slot_id)) ++
      s.value_caches.map (zero_fill (s.blocks slot_id)) at hCache
    change b ∈ (s.blocks slot_id).reverse ++ s.free_blocks at hb
    rw [← List.map_append] at hCache
    obtain ⟨old, hOld, rfl⟩ := List.mem_map.mp hCache
    unfold zero_fill
    split
    next => rfl
    next hOther =>
      refine h.zero old hOld b ?_
      simpa [hOther] using hb

/-- Lengths have no part in it. -/
theorem seq_lens (h : Clean num_layers block_size max_slots max_seq_len s)
    (slot_seq_lens : SlotId → Option Nat) : Clean num_layers block_size max_slots max_seq_len
      { s with slot_seq_lens } :=
  ⟨h.managed.seq_lens slot_seq_lens, h.layers, h.zero⟩

/-- Nor has advancing them. -/
theorem advance (h : Clean num_layers block_size max_slots max_seq_len s) (slot_id : SlotId)
    (count : Nat) :
    Clean num_layers block_size max_slots max_seq_len (left (KVCache.advance slot_id count) s) := by
  cases hLength : s.slot_seq_lens slot_id with
  | none =>
      have hSame : left (KVCache.advance slot_id count) s = s := by
        simp only [left, KVCache.advance, EStateM.run, bind, EStateM.bind, get_apply, hLength]
        rfl
      rw [hSame]
      exact h
  | some length =>
      have hSame : left (KVCache.advance slot_id count) s = { s with
          slot_seq_lens := Function.update s.slot_seq_lens slot_id (some (length + count)) } := by
        simp only [left, KVCache.advance, EStateM.run, bind, EStateM.bind, get_apply, hLength]
        rfl
      rw [hSame]
      exact h.seq_lens _

/-- A block of a slot is not free. -/
theorem not_free (h : Clean num_layers block_size max_slots max_seq_len s) {block : Nat}
    (hBlock : block ∈ s.blocks slot_id) : block ∉ s.free_blocks := by
  obtain ⟨slots, -, -, hPartition⟩ := h.managed.partition_with slot_id
  have hNodup : (Multiset.range s.num_blocks).Nodup := Multiset.nodup_range _
  rw [← hPartition, Multiset.nodup_add] at hNodup
  refine fun hFree => Multiset.disjoint_left.mp hNodup.2.2 (Multiset.mem_coe.mpr hFree) ?_
  exact Multiset.mem_add.mpr (.inl (Multiset.mem_coe.mpr hBlock))

/-- The blocks of a slot differ from each other and from those of any other slot. -/
theorem apart (h : Clean num_layers block_size max_slots max_seq_len s) (slot_id : SlotId) :
    (s.blocks slot_id).Nodup ∧
      ∀ other ≠ slot_id, ∀ b ∈ s.blocks other, b ∉ s.blocks slot_id := by
  obtain ⟨slots, -, hOut, hPartition⟩ := h.managed.partition_with slot_id
  have hNodup : (Multiset.range s.num_blocks).Nodup := Multiset.nodup_range _
  rw [← hPartition, Multiset.nodup_add, Multiset.nodup_add] at hNodup
  obtain ⟨-, ⟨hOwn, -, hDisjoint⟩, -⟩ := hNodup
  refine ⟨Multiset.coe_nodup.mp hOwn, fun other hOther b hb hSame => ?_⟩
  have hIn : other ∈ slots := by
    by_contra hOutside
    have hNone := hOut other fun hInsert =>
      (Finset.mem_insert.mp hInsert).elim hOther hOutside
    rw [hNone] at hb
    exact List.not_mem_nil hb
  refine Multiset.disjoint_left.mp hDisjoint (Multiset.mem_coe.mpr hSame) ?_
  exact Multiset.mem_sum.mpr ⟨other, hIn, Multiset.mem_coe.mpr hb⟩

/-- Only blocks in use are written to. -/
theorem attend (h : Clean num_layers block_size max_slots max_seq_len s) {layer_idx block : Nat}
    (hBlock : block ∈ s.blocks slot_id) (key value : Contents) :
    Clean num_layers block_size max_slots max_seq_len
      (KVCache.attend layer_idx block key value s) where
  managed := h.managed
  layers := by
    refine ⟨?_, ?_⟩
    · exact (List.length_modify ..).trans h.layers.1
    · exact (List.length_modify ..).trans h.layers.2
  zero cache hCache b hb := by
    have hOther : b ≠ block := fun hSame => h.not_free hBlock (hSame ▸ hb)
    rcases List.mem_append.mp hCache with hKey | hValue
    · obtain ⟨old, hOld, hSame⟩ := mem_modify hKey
      rw [hSame b hOther]
      exact h.zero old (List.mem_append_left _ hOld) b hb
    · obtain ⟨old, hOld, hSame⟩ := mem_modify hValue
      rw [hSame b hOther]
      exact h.zero old (List.mem_append_right _ hOld) b hb

/-- Every call that fits keeps it clean. -/
theorem step {event : Event Contents} (h : Clean num_layers block_size max_slots max_seq_len s)
    (hFits : Fits max_seq_len s event) (hStep : step s event = some s') :
    Clean num_layers block_size max_slots max_seq_len s' := by
  cases event with
  | ensure_blocks_for_length slot_id needed_len =>
      obtain rfl := Option.some.inj hStep
      exact h.ensure hFits
  | free_slot slot_id =>
      obtain rfl := Option.some.inj hStep
      exact h.free_slot slot_id
  | advance_seq_lens slot_ids count =>
      obtain rfl := Option.some.inj hStep
      exact left_forM (fun slot_id s (hOld : Clean num_layers block_size max_slots max_seq_len s) =>
        hOld.advance slot_id count) slot_ids h
  | advance_seq_lens_by slot_ids counts =>
      obtain rfl := Option.some.inj hStep
      exact left_forM (fun e s (hOld : Clean num_layers block_size max_slots max_seq_len s) =>
        hOld.advance e.1 e.2) (slot_ids.zip counts) h
  | init_seq_len slot_id =>
      obtain rfl := Option.some.inj hStep
      exact h.seq_lens _
  | attend slot_id layer_idx block key value =>
      simp only [KVCache.step, Option.ite_none_right_eq_some, Option.some.injEq] at hStep
      obtain ⟨hBlock, rfl⟩ := hStep
      exact h.attend hBlock key value

end Clean

/-- Whatever is called, the free blocks are clean. -/
theorem clean_of_reach
    (run : (machine Contents num_layers block_size max_slots max_seq_len).Reach
      (Fits max_seq_len) s) : Clean num_layers block_size max_slots max_seq_len s :=
  run.invariant (Clean num_layers block_size max_slots max_seq_len)
    (fun _ hInitial => hInitial ▸ Clean.initial) fun _ _ _ hOld hFits hStep => hOld.step hFits hStep

/-- What the block manager promises in a state that it has got to: blocks apart and clean, failed
calls without effect, room where it was asked for, and tables that list the blocks in order. -/
structure Sound (num_layers block_size max_slots max_seq_len : Nat) (s : KVCache Contents) :
    Prop where
  /-- The free blocks and those of the slots are all blocks, each once. -/
  once : ∃ slots : Finset SlotId, (∀ slot_id ∉ slots, s.blocks slot_id = []) ∧
    (s.free_blocks : Multiset Nat) + ∑ slot_id ∈ slots, (s.blocks slot_id : Multiset Nat) =
      Multiset.range (max_slots * (max_seq_len ⌈/⌉ block_size))
  zero : s.key_caches.length = num_layers ∧ s.value_caches.length = num_layers ∧
    ∀ cache ∈ s.key_caches ++ s.value_caches, ∀ b ∈ s.free_blocks, cache b = 0
  failed : ∀ slot_id count e s', (allocate_blocks slot_id count).run s = .error e s' → s' = s
  failed_ensure : ∀ slot_id needed_len e s',
    (ensure_blocks_for_length slot_id needed_len).run s = .error e s' → s' = s
  ensured : ∀ slot_id needed_len s', needed_len ≤ max_seq_len →
    (ensure_blocks_for_length slot_id needed_len).run s = .ok () s' →
      needed_len ⌈/⌉ block_size ≤ (s'.blocks slot_id).length ∧
        (s'.blocks slot_id).length ≤ max_seq_len ⌈/⌉ block_size
  room : ∀ slot_id needed_len (slots : Finset SlotId), needed_len ≤ max_seq_len → slot_id ∈ slots →
    (∀ other ∉ slots, s.blocks other = []) → slots.card ≤ max_slots →
      ∃ s', (ensure_blocks_for_length slot_id needed_len).run s = .ok () s'

/-- What the invariant says of the calls: each answers as the block manager is to. -/
theorem sound_of_clean (h : Clean num_layers block_size max_slots max_seq_len s) :
    Sound num_layers block_size max_slots max_seq_len s where
  once := by
    obtain ⟨slots, hSlots, hPartition⟩ := h.managed.partition
    refine ⟨slots, hSlots, ?_⟩
    rw [hPartition, h.managed.num_blocks_eq, h.managed.max_blocks, Nat.ceilDiv_eq_add_pred_div]
  zero := ⟨h.layers.1, h.layers.2, h.zero⟩
  failed slot_id count e s' hRun := by
    rw [run_allocate_blocks] at hRun
    cases hAllocate : s.toPagedKVCache.allocate_blocks slot_id count with
    | ok cache =>
        rw [hAllocate] at hRun
        cases hRun
    | error message =>
        rw [hAllocate] at hRun
        cases hRun
        rfl
  failed_ensure slot_id needed_len e s' hRun := by
    rw [run_ensure_blocks_for_length] at hRun
    cases hEnsure : s.toPagedKVCache.ensure_blocks_for_length slot_id needed_len with
    | ok cache =>
        rw [hEnsure] at hRun
        cases hRun
    | error message =>
        rw [hEnsure] at hRun
        cases hRun
        rfl
  ensured slot_id needed_len s' hFits hRun := by
    rw [run_ensure_blocks_for_length] at hRun
    cases hEnsure : s.toPagedKVCache.ensure_blocks_for_length slot_id needed_len with
    | error message =>
        rw [hEnsure] at hRun
        cases hRun
    | ok cache =>
        rw [hEnsure] at hRun
        cases hRun
        obtain ⟨hManaged, -, hNeeded⟩ := h.managed.ensure hFits hEnsure
        have hBound := hManaged.bound slot_id
        rw [hManaged.max_blocks] at hBound
        unfold PagedKVCache.needed_blocks at hNeeded
        rw [h.managed.block_size_eq] at hNeeded
        exact ⟨hNeeded, hBound⟩
  room slot_id needed_len slots hFits hSlot hSlots hFew := by
    obtain ⟨cache, hOk⟩ := h.managed.ensure_ok hFits hSlot hSlots hFew
    rw [run_ensure_blocks_for_length, hOk]
    exact ⟨_, rfl⟩

/-- The table of the attention has a row for each slot, and the row has room for its blocks. -/
theorem run_get_block_table_tensor (h : Clean num_layers block_size max_slots max_seq_len s)
    {slot_ids : List SlotId} (hTables : ∀ slot_id ∈ slot_ids, s.slot_block_tables slot_id ≠ none)
    (hFew : slot_ids.length ≤ max_slots) :
    (get_block_table_tensor max_slots slot_ids).run s = .ok (slot_ids.map fun slot_id =>
      s.blocks slot_id ++
        List.replicate (s.max_blocks_per_seq - (s.blocks slot_id).length) 0) s := by
  let row (slot_id : SlotId) : List Nat := s.blocks slot_id ++
    List.replicate (s.max_blocks_per_seq - (s.blocks slot_id).length) 0
  have hRow : ∀ e ∈ slot_ids.zipIdx, (block_table_row max_slots e.1 e.2).run s = .ok (row e.1) s := by
    intro e he
    have hIndex : e.2 < max_slots := by
      have hLt := List.snd_lt_of_mem_zipIdx he
      omega
    have hBound := h.managed.bound e.1
    cases hTable : s.slot_block_tables e.1 with
    | none => exact absurd hTable (hTables e.1 (List.fst_mem_of_mem_zipIdx he))
    | some blocks =>
        have hBlocks : s.blocks e.1 = blocks := by
          unfold PagedKVCache.blocks
          rw [hTable]
          rfl
        rw [← PagedKVCache.length_blocks, hBlocks] at hBound
        have hInside : ¬ (blocks ≠ [] ∧ (max_slots ≤ e.2 ∨ s.max_blocks_per_seq < blocks.length)) := by
          rintro ⟨-, hOut | hLong⟩
          · exact absurd hOut (Nat.not_le.mpr hIndex)
          · exact absurd hBound (Nat.not_le.mpr hLong)
        simp only [row, hBlocks, block_table_row, EStateM.run, bind, EStateM.bind, get_apply, hTable,
          if_neg hInside]
        rfl
  have hRows := run_mapM hRow
  have hFst : slot_ids.zipIdx.map (fun e => row e.1) = slot_ids.map row := by
    have hMap := congrArg (List.map row) (List.zipIdx_map_fst 0 slot_ids)
    rwa [List.map_map] at hMap
  have hTake : (slot_ids.map row).take max_slots = slot_ids.map row :=
    List.take_of_length_le ((List.length_map row).trans_le hFew)
  rw [hFst] at hRows
  simp only [EStateM.run] at hRows
  simp only [get_block_table_tensor, EStateM.run, bind, EStateM.bind, hRows]
  exact congrArg (EStateM.Result.ok · s) hTake

/-- In whatever order the calls and the writes come, the blocks are kept apart and clean. All that
is asked of the callers is that no slot is to be longer than `max_seq_len`. -/
theorem sound_of_calls
    (run : (machine Contents num_layers block_size max_slots max_seq_len).Reach
      (Fits max_seq_len) s) : Sound num_layers block_size max_slots max_seq_len s :=
  sound_of_clean (clean_of_reach run)

instance : ∀ (s : KVCache Contents) event, Decidable (Fits max_seq_len s event)
  | _, .ensure_blocks_for_length _ needed_len =>
      inferInstanceAs (Decidable (needed_len ≤ max_seq_len))
  | _, .free_slot _ | _, .advance_seq_lens _ _ | _, .advance_seq_lens_by _ _ | _, .init_seq_len _
  | _, .attend _ _ _ _ _ => .isTrue trivial

/-- A slot is freed after the attention has written to it, while another one has a block. -/
theorem sound_of_two_slots : ∃ s, (machine Nat 1 4 2 8).Reach (Fits 8) s ∧
    s.free_blocks = [1, 0, 3] ∧ s.blocks 5 = [2] ∧ Sound 1 4 2 8 s := by
  have hRun : ((machine Nat 1 4 2 8).replayUnder (Fits 8) (new 1 4 2 8)
      [.init_seq_len 9, .ensure_blocks_for_length 9 8, .attend 9 0 1 7 7,
        .advance_seq_lens_by [9] [8], .ensure_blocks_for_length 5 3, .free_slot 9]).map
      (fun s => (s.free_blocks, s.blocks 5)) = some ([1, 0, 3], [2]) := by decide +kernel
  obtain ⟨s, hReplay, hEnd⟩ := Option.map_eq_some_iff.mp hRun
  obtain ⟨hFree, hBlocks⟩ := Prod.mk.inj hEnd
  have run := System.reach_of_replayUnder (.start rfl) hReplay
  exact ⟨s, run, hFree, hBlocks, sound_of_calls run⟩

end Run

end KVCache

end Worker
