import SwarmLoRA.Data.Paged
import SwarmLoRA.Worker.BlockManager

namespace Worker.PagedAttention

open Data Machine KVCache

/-- A token in a layer, after the rotary embedding. -/
structure Row (Q V : Type) where
  query : Q
  key : V
  value : V

/-- The key and the value that later tokens attend to. -/
def Row.entry {Q V : Type} (row : Row Q V) : V × V := (row.key, row.value)

/-- The metadata of the attention in a pass, and the number of layers that are done. They are
computed once, for all layers. -/
structure Pass where
  slot_id : SlotId
  q_len : Nat
  cache_seqlens : Nat
  block_table : List Nat
  layer_idx : Nat

/-- Outside of a pass there is nothing to say of it. -/
theorem of_idle {pass : Option Pass} {P : Pass → Prop} (hIdle : pass = none) :
    ∀ p, pass = some p → P p := by
  subst hIdle
  intro p hSome
  cases hSome

/-- What goes to the slots and comes from them. -/
inductive Event (Q V O : Type) where
  | init_seq_len (slot_id : SlotId)
  | free_slot (slot_id : SlotId)
  | attention (slot_id : SlotId) (layer_idx : Nat) (rows : List (Row Q V)) (out : List O)

/-- The cache has the contents of a block by the offset in it. The last event is at the front. -/
structure State (Q V O : Type) where
  cache : KVCache (Nat → V)
  pass : Option Pass := none
  events : List (Event Q V O) := []

section Kernel

variable {Q V O : Type} (attention : Q → List (V × V) → O)

/-- The tokens one by one, each of which attends to all before it and to itself. -/
def causal : List (V × V) → List (Row Q V) → List O
  | _, [] => []
  | earlier, row :: rows =>
      attention row.query (earlier ++ [row.entry]) :: causal (earlier ++ [row.entry]) rows

/-- Rows that come later are attended to by themselves only. -/
theorem causal_append (earlier : List (V × V)) (rows later : List (Row Q V)) :
    causal attention earlier (rows ++ later) =
      causal attention earlier rows ++
        causal attention (earlier ++ rows.map Row.entry) later := by
  induction rows generalizing earlier with
  | nil => simp [causal]
  | cons row rows ih => simp [causal, ih]

/-- One output for each row. -/
theorem length_causal (earlier : List (V × V)) (rows : List (Row Q V)) :
    (causal attention earlier rows).length = rows.length := by
  induction rows generalizing earlier with
  | nil => rfl
  | cons row rows ih => simp [causal, ih]

/-- The mask of the kernel is aligned to the last key. -/
theorem causal_eq_take (earlier : List (V × V)) (rows : List (Row Q V)) :
    (rows.zipIdx.map fun row =>
      attention row.1.query
        ((earlier ++ rows.map Row.entry).take (earlier.length + row.2 + 1))) =
      causal attention earlier rows := by
  induction rows generalizing earlier with
  | nil => rfl
  | cons row rows ih =>
      have hRest := ih (earlier ++ [row.entry])
      rw [List.zipIdx_cons', List.map_cons, causal, ← hRest, List.map_map]
      congr 1
      · simp [List.take_append, List.take_of_length_le]
      · refine List.map_congr_left fun e _ => ?_
        simp [Nat.add_assoc, Nat.add_comm 1]

/-- `flash_attn_with_kvcache`, which is a parameter because its code is not of the repository. It
takes the size of a block, the queries, keys and values of the new tokens, the caches of the layer,
the length of the sequence in them and the table of its blocks. -/
abbrev Kernel (Q V O : Type) :=
  Nat → List (Row Q V) → (Nat → Nat → V) → (Nat → Nat → V) → Nat → List Nat →
    List O × (Nat → Nat → V) × (Nat → Nat → V)

/-- The documented behaviour of the kernel with `causal`, for a table that begins with blocks enough
for the sequence and the new tokens, each of them once. What the table has behind them is padding.
* The caches are updated in place: the keys and the values of the new tokens go to the blocks of the
  table, from the end of the sequence on.
* A new token attends to what the table names in the updated caches, up to its own place: the mask
  is aligned to the last key. -/
structure Kernel.Documented (kernel : Kernel Q V O) (attention : Q → List (V × V) → O) : Prop where
  key_cache : ∀ {block_size rows keys values cache_seqlens blocks} more, blocks.Nodup →
    cache_seqlens + rows.length ≤ blocks.length * block_size →
      (kernel block_size rows keys values cache_seqlens (blocks ++ more)).2.1 =
        Paged.write_all block_size (blocks ++ more) keys cache_seqlens (rows.map Row.key)
  value_cache : ∀ {block_size rows keys values cache_seqlens blocks} more, blocks.Nodup →
    cache_seqlens + rows.length ≤ blocks.length * block_size →
      (kernel block_size rows keys values cache_seqlens (blocks ++ more)).2.2 =
        Paged.write_all block_size (blocks ++ more) values cache_seqlens (rows.map Row.value)
  out : ∀ {block_size rows keys values cache_seqlens blocks} more, blocks.Nodup →
    cache_seqlens + rows.length ≤ blocks.length * block_size →
      let (out, keys, values) :=
        kernel block_size rows keys values cache_seqlens (blocks ++ more)
      let place_of := Paged.contents block_size (blocks ++ more)
      let entries := (place_of keys (cache_seqlens + rows.length)).zip
        (place_of values (cache_seqlens + rows.length))
      out = rows.zipIdx.map fun row =>
        attention row.1.query (entries.take (cache_seqlens + row.2 + 1))

/-- A kernel that does what is documented. -/
def paged_kernel : Kernel Q V O :=
  fun block_size rows keys values cache_seqlens block_table =>
    let keys := Paged.write_all block_size block_table keys cache_seqlens (rows.map Row.key)
    let values := Paged.write_all block_size block_table values cache_seqlens (rows.map Row.value)
    let place_of := Paged.contents block_size block_table
    let entries := (place_of keys (cache_seqlens + rows.length)).zip
      (place_of values (cache_seqlens + rows.length))
    (rows.zipIdx.map fun row =>
      attention row.1.query (entries.take (cache_seqlens + row.2 + 1)), keys, values)

variable {attention} in
/-- The blocks of a table, read one after the other, give a kernel that does what is documented. -/
theorem paged_kernel_documented : (paged_kernel attention).Documented attention :=
  ⟨fun _ _ _ => rfl, fun _ _ _ => rfl, fun _ _ _ => rfl⟩

end Kernel

section Engine

variable {Q V O : Type} [Zero V]

/-- `_generate_one_token_all` up to its metadata, for the slot that it serves. -/
def attn_meta (max_slots : Nat) (slot_id : SlotId) (q_len : Nat) : CacheM (Nat → V) Pass := do
  let self ← get
  ensure_blocks_for_length slot_id ((self.slot_seq_lens slot_id).getD 0 + q_len)
  let cache_seqlens ← get_seq_lens_tensor max_slots [slot_id]
  let block_tables ← get_block_table_tensor max_slots [slot_id]
  return ⟨slot_id, q_len, cache_seqlens.headD 0, block_tables.headD [], 0⟩

/-- The keys of a layer, by block and place. -/
def key_cache (cache : KVCache (Nat → V)) (layer_idx : Nat) : Nat → Nat → V :=
  cache.key_caches.getD layer_idx 0

/-- The values of a layer, by block and place. -/
def value_cache (cache : KVCache (Nat → V)) (layer_idx : Nat) : Nat → Nat → V :=
  cache.value_caches.getD layer_idx 0

/-- A layer of a pass: what the attention puts out, and the cache that it leaves. -/
def batch_flash_attention (flash_attn_with_kvcache : Kernel Q V O) (rows : List (Row Q V))
    (p : Pass) (cache : KVCache (Nat → V)) : List O × KVCache (Nat → V) :=
  let (out, keys, values) := flash_attn_with_kvcache cache.block_size rows
    (key_cache cache p.layer_idx) (value_cache cache p.layer_idx) p.cache_seqlens p.block_table
  (out, { cache with
    key_caches := cache.key_caches.set p.layer_idx keys
    value_caches := cache.value_caches.set p.layer_idx values })

/-- `free_slot`, alone or in a teardown, after which the pass of the slot does not go on. -/
def State.teardown (s : State Q V O) (slot_id : SlotId) : State Q V O where
  cache := left (free_slot slot_id) s.cache
  events := .free_slot slot_id :: s.events

/-- The calls of the engine in any order. In a pass the layers come one after the other, with
whatever queries, keys and values the rest of the model makes, unless something raises. -/
inductive Label (Q V : Type) where
  | init_seq_len (slot_id : SlotId)
  | enter (slot_id : SlotId) (q_len : Nat)
  | attend (rows : List (Row Q V))
  | leave
  | fail
  | free_slot (slot_id : SlotId)

variable (kernel : Kernel Q V O) (num_layers block_size max_slots max_seq_len : Nat)

/-- Outside of a pass. -/
def idle (s : State Q V O) : Label Q V → Option (State Q V O)
  | .init_seq_len slot_id =>
      some { s with
        cache := left (init_seq_len slot_id) s.cache
        events := .init_seq_len slot_id :: s.events }
  | .enter slot_id q_len =>
      match (attn_meta max_slots slot_id q_len).run s.cache with
      | .ok p cache => some { s with cache, pass := some p }
      | .error _ cache => some ({ s with cache }.teardown slot_id)
  | .free_slot slot_id => some (s.teardown slot_id)
  | .attend _ | .leave | .fail => none

/-- A pass begins, does a layer, or ends; or a slot is initialised or freed. -/
def step (s : State Q V O) (l : Label Q V) : Option (State Q V O) :=
  match s.pass with
  | none => idle max_slots s l
  | some p =>
      match l with
      | .attend rows =>
          if p.layer_idx < num_layers ∧ rows.length = p.q_len then
            let (out, cache) := batch_flash_attention kernel rows p s.cache
            some {
              cache
              pass := some { p with layer_idx := p.layer_idx + 1 }
              events := .attention p.slot_id p.layer_idx rows out :: s.events }
          else none
      | .leave =>
          if p.layer_idx = num_layers then
            some { s with
              cache := left (advance_seq_lens_by [p.slot_id] [p.q_len]) s.cache, pass := none }
          else none
      | .fail => some (s.teardown p.slot_id)
      | .init_seq_len _ | .enter _ _ | .free_slot _ => none

/-- Passes one after the other, over a cache that starts empty. -/
def machine : System (State Q V O) (Label Q V) where
  initial s := s = { cache := new num_layers block_size max_slots max_seq_len }
  step := step kernel num_layers max_slots

/-- No slot is to be longer than the cache is made for. -/
def Fits (s : State Q V O) : Label Q V → Prop
  | .enter slot_id q_len => (s.cache.slot_seq_lens slot_id).getD 0 + q_len ≤ max_seq_len
  | _ => True

end Engine

section Events

variable {Q V O : Type}

/-- The tokens of the request that has the slot, as far as a layer has had them. -/
def rows : List (Event Q V O) → SlotId → Nat → List (Row Q V)
  | [], _, _ => []
  | .init_seq_len slot :: before, slot_id, layer_idx =>
      if slot_id = slot then [] else rows before slot_id layer_idx
  | .free_slot slot :: before, slot_id, layer_idx =>
      if slot_id = slot then [] else rows before slot_id layer_idx
  | .attention slot layer new _ :: before, slot_id, layer_idx =>
      if slot_id = slot ∧ layer_idx = layer then rows before slot_id layer_idx ++ new
      else rows before slot_id layer_idx

/-- What the attention has given for them. -/
def outs : List (Event Q V O) → SlotId → Nat → List O
  | [], _, _ => []
  | .init_seq_len slot :: before, slot_id, layer_idx =>
      if slot_id = slot then [] else outs before slot_id layer_idx
  | .free_slot slot :: before, slot_id, layer_idx =>
      if slot_id = slot then [] else outs before slot_id layer_idx
  | .attention slot layer _ out :: before, slot_id, layer_idx =>
      if slot_id = slot ∧ layer_idx = layer then outs before slot_id layer_idx ++ out
      else outs before slot_id layer_idx

end Events

section Cache

variable {V : Type} {cache cache' : KVCache (Nat → V)} {slot_id : SlotId} {q_len : Nat}
  {num_layers block_size max_slots max_seq_len : Nat}

/-- The slots may have more blocks, and nothing else is new. -/
structure Grows (cache cache' : KVCache (Nat → V)) : Prop where
  keys : cache'.key_caches = cache.key_caches
  values : cache'.value_caches = cache.value_caches
  block_size_eq : cache'.block_size = cache.block_size
  blocks : ∀ slot_id, ∃ more, cache'.blocks slot_id = cache.blocks slot_id ++ more
  seq_lens : ∀ slot_id,
    (cache'.slot_seq_lens slot_id).getD 0 = (cache.slot_seq_lens slot_id).getD 0

/-- A cache that stays as it is has grown by nothing. -/
theorem Grows.refl (cache : KVCache (Nat → V)) : Grows cache cache :=
  ⟨rfl, rfl, rfl, fun _ => ⟨[], (List.append_nil _).symm⟩, fun _ => rfl⟩

/-- The blocks of each slot have room for its tokens. -/
def Roomy (cache : KVCache (Nat → V)) : Prop :=
  ∀ slot_id, (cache.slot_seq_lens slot_id).getD 0 ≤
    (cache.blocks slot_id).length * cache.block_size

/-- A cache that grows keeps room in every table. -/
theorem Grows.roomy (h : Grows cache cache') (hRoomy : Roomy cache) : Roomy cache' := by
  intro slot_id
  obtain ⟨more, hBlocks⟩ := h.blocks slot_id
  rw [h.seq_lens, hBlocks, h.block_size_eq, List.length_append, Nat.add_mul]
  exact Nat.le_add_right_of_le (hRoomy slot_id)

/-- An allocation lets a slot grow. -/
theorem grows_of_allocate (hRoomy : Roomy cache) {count : Nat} {paged : PagedKVCache}
    (hOk : cache.toPagedKVCache.allocate_blocks slot_id count = .ok paged) :
    Grows cache { cache with toPagedKVCache := paged } := by
  have hGrown := PagedKVCache.grown_of_allocate hOk
  refine ⟨rfl, rfl, hGrown.sizes.1, fun other => ?_, fun other => ?_⟩
  · by_cases hSame : other = slot_id
    · exact hSame ▸ ⟨_, hGrown.own⟩
    · exact ⟨[], (hGrown.others other hSame).trans (List.append_nil _).symm⟩
  · simp only [PagedKVCache.allocate_blocks, if_neg (Nat.not_lt.mpr hGrown.enough)] at hOk
    cases hTable : cache.slot_block_tables slot_id with
    | some table =>
        simp only [hTable, Except.ok.injEq] at hOk
        subst hOk
        rfl
    | none =>
        simp only [hTable, Except.ok.injEq] at hOk
        subst hOk
        by_cases hSame : other = slot_id
        · have hEmpty := hRoomy slot_id
          rw [PagedKVCache.blocks, hTable] at hEmpty
          simp only [Option.getD_none, List.length_nil, Nat.zero_mul, Nat.le_zero] at hEmpty
          subst hSame
          simp [PagedKVCache.set_seq_len, hEmpty]
        · simp [PagedKVCache.set_seq_len, Function.update_of_ne hSame]

/-- So does making room for a length. -/
theorem grows_of_ensure (hRoomy : Roomy cache) {needed_len : Nat} {paged : PagedKVCache}
    (hOk : cache.toPagedKVCache.ensure_blocks_for_length slot_id needed_len = .ok paged) :
    Grows cache { cache with toPagedKVCache := paged } := by
  unfold PagedKVCache.ensure_blocks_for_length at hOk
  split at hOk
  next => exact grows_of_allocate hRoomy hOk
  next =>
    obtain rfl := Except.ok.inj hOk
    exact .refl cache

/-- The metadata of a pass are those of its slot: its length before the pass, blocks for the new
tokens, and a table that begins with its blocks. -/
structure Running (cache : KVCache (Nat → V)) (p : Pass) : Prop where
  seq_len : cache.slot_seq_lens p.slot_id = some p.cache_seqlens
  fits : p.cache_seqlens + p.q_len ≤ (cache.blocks p.slot_id).length * cache.block_size
  table : ∃ more, p.block_table = cache.blocks p.slot_id ++ more

/-- A call that returns is followed by the next one. -/
theorem run_bind_ok {α β : Type} {call : CacheM (Nat → V) α}
    {next : α → CacheM (Nat → V) β} {a : α} (hCall : call.run cache = .ok a cache') :
    (call >>= next).run cache = (next a).run cache' := by
  simp only [EStateM.run] at hCall
  simp only [EStateM.run, bind, EStateM.bind, hCall]

/-- A call that raises is the end. -/
theorem run_bind_error {α β : Type} {call : CacheM (Nat → V) α}
    {next : α → CacheM (Nat → V) β} {e : CacheError}
    (hCall : call.run cache = .error e cache') :
    (call >>= next).run cache = .error e cache' := by
  simp only [EStateM.run] at hCall
  simp only [EStateM.run, bind, EStateM.bind, hCall]

variable (cache slot_id max_slots) in
/-- The lengths that a pass of one slot asks for. -/
theorem run_get_seq_lens_tensor :
    (get_seq_lens_tensor max_slots [slot_id]).run cache =
      match cache.slot_seq_lens slot_id with
      | none => .error (.key_error slot_id) cache
      | some length =>
          if max_slots = 0 then .error .index_error cache else .ok [length] cache := by
  simp only [get_seq_lens_tensor, seq_len_entry, List.zipIdx_cons, List.zipIdx_nil, List.mapM_cons,
    List.mapM_nil, EStateM.run, bind, EStateM.bind, get_apply, Nat.le_zero]
  cases cache.slot_seq_lens slot_id with
  | none => rfl
  | some length =>
      by_cases hNone : max_slots = 0
      · simp only [if_pos hNone]
        rfl
      · simp only [if_neg hNone]
        exact congrArg (EStateM.Result.ok · cache)
          (List.take_of_length_le (Nat.one_le_iff_ne_zero.mpr hNone))

/-- A slot without a table raises. -/
theorem run_get_block_table_of_none (hNone : cache.slot_block_tables slot_id = none) :
    (get_block_table_tensor max_slots [slot_id]).run cache = .error (.key_error slot_id) cache := by
  simp only [get_block_table_tensor, block_table_row, List.zipIdx_cons, List.zipIdx_nil,
    List.mapM_cons, List.mapM_nil, EStateM.run, bind, EStateM.bind, get_apply, hNone]
  rfl

/-- At its end a pass raises the length of its slot by what it has run. -/
theorem left_advance {p : Pass} (hRunning : Running cache p) :
    left (advance_seq_lens_by [p.slot_id] [p.q_len]) cache = { cache with
      slot_seq_lens := Function.update cache.slot_seq_lens p.slot_id
        (some (p.cache_seqlens + p.q_len)) } := by
  have hOne : (KVCache.advance p.slot_id p.q_len).run cache = .ok () { cache with
      slot_seq_lens := Function.update cache.slot_seq_lens p.slot_id
        (some (p.cache_seqlens + p.q_len)) } := by
    simp only [KVCache.advance, EStateM.run, bind, EStateM.bind, get_apply,
      hRunning.seq_len]
    rfl
  change left (KVCache.advance p.slot_id p.q_len >>= fun _ => pure ()) cache = _
  unfold left
  rw [run_bind_ok hOne]
  rfl

variable [Zero V]

/-- A pass gets blocks for all its tokens, or it does not start. -/
theorem run_attn_meta (h : Clean num_layers block_size max_slots max_seq_len cache)
    (hRoomy : Roomy cache) (hPos : 0 < block_size)
    (hFits : (cache.slot_seq_lens slot_id).getD 0 + q_len ≤ max_seq_len) :
    ∃ cache', Clean num_layers block_size max_slots max_seq_len cache' ∧ Grows cache cache' ∧
      ((∃ e, (attn_meta max_slots slot_id q_len).run cache = .error e cache') ∨
        ∃ p, (attn_meta max_slots slot_id q_len).run cache = .ok p cache' ∧ Running cache' p ∧
          p.slot_id = slot_id ∧ p.q_len = q_len ∧ p.layer_idx = 0) := by
  have hGet : (get : CacheM (Nat → V) _).run cache = .ok cache cache := rfl
  have hEnsure := @run_ensure_blocks_for_length (Nat → V) cache slot_id
    ((cache.slot_seq_lens slot_id).getD 0 + q_len)
  cases hOk : cache.toPagedKVCache.ensure_blocks_for_length slot_id
      ((cache.slot_seq_lens slot_id).getD 0 + q_len) with
  | error message =>
      rw [hOk] at hEnsure
      exact ⟨cache, h, .refl cache, .inl ⟨.runtime_error message,
        (run_bind_ok hGet).trans (run_bind_error hEnsure)⟩⟩
  | ok paged =>
      rw [hOk] at hEnsure
      obtain ⟨hManaged, hFree, -⟩ := h.managed.ensure hFits hOk
      have hClean := h.paged hManaged hFree
      have hGrows := grows_of_ensure hRoomy hOk
      have hEnsured := (sound_of_clean h).ensured slot_id _ _ hFits hEnsure
      refine ⟨_, hClean, hGrows, ?_⟩
      have hStart : (attn_meta max_slots slot_id q_len).run cache = _ :=
        (run_bind_ok hGet).trans (run_bind_ok hEnsure)
      have hLens := run_get_seq_lens_tensor { cache with toPagedKVCache := paged } slot_id max_slots
      cases hLength : paged.slot_seq_lens slot_id with
      | none =>
          simp only [hLength] at hLens
          exact .inl ⟨_, hStart.trans (run_bind_error hLens)⟩
      | some length =>
          simp only [hLength] at hLens
          by_cases hSlots : max_slots = 0
          · rw [if_pos hSlots] at hLens
            exact .inl ⟨_, hStart.trans (run_bind_error hLens)⟩
          · rw [if_neg hSlots] at hLens
            by_cases hTable : paged.slot_block_tables slot_id = none
            · exact .inl ⟨_, hStart.trans ((run_bind_ok hLens).trans
                (run_bind_error (run_get_block_table_of_none hTable)))⟩
            · have hSome : ∀ other ∈ [slot_id], paged.slot_block_tables other ≠ none := by
                simpa using hTable
              have hTables := run_get_block_table_tensor hClean hSome
                (Nat.one_le_iff_ne_zero.mpr hSlots)
              refine .inr ⟨_, hStart.trans ((run_bind_ok hLens).trans (run_bind_ok hTables)),
                ⟨hLength, ?_, ⟨_, rfl⟩⟩, rfl, rfl, rfl⟩
              have hSame := hGrows.seq_lens slot_id
              simp only [hLength, Option.getD_some] at hSame
              change length + q_len ≤ (paged.blocks slot_id).length * paged.block_size
              rw [hSame, hManaged.block_size_eq, Nat.mul_comm]
              exact (le_smul_ceilDiv hPos).trans (Nat.mul_le_mul_left _ hEnsured.1)

end Cache

section Run

variable {Q V O : Type} {attention : Q → List (V × V) → O} {kernel : Kernel Q V O}
  {old later : List (Row Q V)} {events : List (Event Q V O)}

/-- Through the table, the kernel works on the tokens of the slot alone. -/
theorem Kernel.Documented.out_eq (hKernel : kernel.Documented attention)
    {block_size cache_seqlens : Nat} {table more : List Nat} {keys values : Nat → Nat → V}
    (hTable : table.Nodup) (hKeys : Paged.Keeps block_size table keys (old.map Row.key))
    (hValues : Paged.Keeps block_size table values (old.map Row.value))
    (hOld : old.length = cache_seqlens)
    (hFits : cache_seqlens + later.length ≤ table.length * block_size) :
    (kernel block_size later keys values cache_seqlens (table ++ more)).1 =
      causal attention (old.map Row.entry) later := by
  have hNewKeys : Paged.Keeps block_size table
      (Paged.write_all block_size (table ++ more) keys cache_seqlens (later.map Row.key))
      (old.map Row.key ++ later.map Row.key) :=
    hKeys.write_all hTable ((List.length_map _).trans hOld) (by rwa [List.length_map])
  have hNewValues : Paged.Keeps block_size table
      (Paged.write_all block_size (table ++ more) values cache_seqlens (later.map Row.value))
      (old.map Row.value ++ later.map Row.value) :=
    hValues.write_all hTable ((List.length_map _).trans hOld) (by rwa [List.length_map])
  have hKeyContents := hNewKeys.contents_eq
  have hValueContents := hNewValues.contents_eq
  rw [← List.map_append, List.length_map, List.length_append, hOld] at hKeyContents hValueContents
  have hOut := @hKernel.out block_size later keys values cache_seqlens table more hTable hFits
  simp only [hKernel.key_cache more hTable hFits, hKernel.value_cache more hTable hFits] at hOut
  rw [hOut, Paged.contents_append hFits, Paged.contents_append hFits, hKeyContents,
    hValueContents, List.zip_map', ← causal_eq_take, List.length_map, hOld, ← List.map_append]
  rfl

/-- In one layer of one slot there are more tokens, and their keys or values are written behind the
others. -/
theorem keeps_attend {p : Pass} {blocks : SlotId → List Nat} {more : List Nat}
    {size slot_id layer_idx : Nat} {store : Nat → Nat → Nat → V} {part : Row Q V → V}
    {out : List O}
    (hKeeps : Paged.Keeps size (blocks slot_id) (store layer_idx)
      ((rows events slot_id layer_idx).map part))
    (hNodup : (blocks p.slot_id).Nodup)
    (hApart : ∀ other ≠ p.slot_id, ∀ b ∈ blocks other, b ∉ blocks p.slot_id)
    (hOld : (rows events p.slot_id p.layer_idx).length = p.cache_seqlens)
    (hFits : p.cache_seqlens + later.length ≤ (blocks p.slot_id).length * size)
    (hTable : p.block_table = blocks p.slot_id ++ more) :
    Paged.Keeps size (blocks slot_id)
      (if layer_idx = p.layer_idx then
        Paged.write_all size p.block_table (store layer_idx) p.cache_seqlens (later.map part)
      else store layer_idx)
      ((rows (.attention p.slot_id p.layer_idx later out :: events) slot_id layer_idx).map
        part) := by
  rw [← List.length_map part] at hFits
  by_cases hLayer : layer_idx = p.layer_idx
  · rw [if_pos hLayer, hTable]
    by_cases hSlot : slot_id = p.slot_id
    · subst hLayer hSlot
      simp only [rows, and_self, if_true, List.map_append]
      exact hKeeps.write_all hNodup ((List.length_map _).trans hOld) hFits
    · simp only [rows, hSlot, false_and, if_false]
      refine hKeeps.congr fun b hb => ?_
      rw [Paged.write_all_append hFits]
      exact Paged.write_all_of_notMem (hApart slot_id hSlot b hb) hFits
  · simp only [rows, hLayer, and_false, if_false]
    exact hKeeps

/-- A change of one entry. -/
theorem getD_set_getD {α : Type} {items : List α} {i : Nat} (hIndex : i < items.length)
    (f : α → α) (d : α) (j : Nat) :
    (items.set i (f (items.getD i d))).getD j d =
      if j = i then f (items.getD j d) else items.getD j d := by
  rw [List.getD_eq_getElem?_getD, List.getD_eq_getElem?_getD, List.getD_eq_getElem?_getD,
    List.getElem?_set]
  by_cases hSame : j = i
  · rw [if_pos hSame.symm, if_pos hIndex, if_pos hSame, hSame]
    rfl
  · rw [if_neg fun h => hSame h.symm, if_neg hSame]

/-- A layer that is written to is as before outside of the blocks of the slot. -/
theorem mem_set_write_all [Zero V] {caches : List (Nat → Nat → V)} {blocks more : List Nat}
    {size start i : Nat} {values : List V} {layer : Nat → Nat → V} (hIndex : i < caches.length)
    (hFits : start + values.length ≤ blocks.length * size)
    (hMem : layer ∈
      caches.set i (Paged.write_all size (blocks ++ more) (caches.getD i 0) start values)) :
    ∃ old ∈ caches, ∀ b ∉ blocks, layer b = old b := by
  rcases List.mem_or_eq_of_mem_set hMem with hOld | hNew
  · exact ⟨layer, hOld, fun _ _ => rfl⟩
  · refine ⟨caches.getD i 0, ?_, fun b hb => ?_⟩
    · rw [List.getD_eq_getElem _ _ hIndex]
      exact List.getElem_mem hIndex
    · rw [hNew, Paged.write_all_append hFits]
      exact Paged.write_all_of_notMem hb hFits

variable [Zero V] {num_layers block_size max_slots max_seq_len : Nat}
  {cache cache' : KVCache (Nat → V)} {s s' : State Q V O} {p : Pass}

/-- The tokens that a layer has had from a pass that is not over. -/
def added (pass : Option Pass) (slot_id : SlotId) (layer_idx : Nat) : Nat :=
  match pass with
  | some p => if slot_id = p.slot_id ∧ layer_idx < p.layer_idx then p.q_len else 0
  | none => 0

/-- The keys and the values of a slot are in its blocks. -/
def Stored (num_layers : Nat) (cache : KVCache (Nat → V)) (events : List (Event Q V O)) : Prop :=
  ∀ slot_id layer_idx, layer_idx < num_layers →
    Paged.Keeps cache.block_size (cache.blocks slot_id) (key_cache cache layer_idx)
        ((rows events slot_id layer_idx).map Row.key) ∧
      Paged.Keeps cache.block_size (cache.blocks slot_id) (value_cache cache layer_idx)
        ((rows events slot_id layer_idx).map Row.value)

variable (attention num_layers block_size max_slots max_seq_len) in
/-- What holds in every state of a run: what each layer has in the blocks of a slot is what the
passes of the slot gave it, in their order. -/
structure Invariant (s : State Q V O) : Prop where
  clean : Clean num_layers block_size max_slots max_seq_len s.cache
  roomy : Roomy s.cache
  stored : Stored num_layers s.cache s.events
  lengths : ∀ slot_id layer_idx, layer_idx < num_layers →
    (rows s.events slot_id layer_idx).length =
      (s.cache.slot_seq_lens slot_id).getD 0 + added s.pass slot_id layer_idx
  outs : ∀ slot_id layer_idx,
    outs s.events slot_id layer_idx = causal attention [] (rows s.events slot_id layer_idx)
  running : ∀ p, s.pass = some p → Running s.cache p

/-- Growing loses nothing that is stored. -/
theorem Stored.grow (h : Stored num_layers cache events) (hGrows : Grows cache cache') :
    Stored num_layers cache' events := by
  intro slot_id layer_idx hLayer
  obtain ⟨hKeys, hValues⟩ := h slot_id layer_idx hLayer
  obtain ⟨more, hBlocks⟩ := hGrows.blocks slot_id
  rw [hGrows.block_size_eq, hBlocks, key_cache, value_cache, hGrows.keys, hGrows.values]
  exact ⟨hKeys.grow more, hValues.grow more⟩

/-- Nothing is stored at the start. -/
theorem Invariant.initial : Invariant attention num_layers block_size max_slots max_seq_len
    ({ cache := new num_layers block_size max_slots max_seq_len } : State Q V O) where
  clean := Clean.initial
  roomy _ := Nat.zero_le _
  stored _ _ _ := ⟨Paged.Keeps.nil, Paged.Keeps.nil⟩
  lengths _ _ _ := rfl
  outs _ _ := rfl
  running := of_idle rfl

/-- A slot that is initialised has nothing stored. -/
theorem Invariant.init_seq_len
    (h : Invariant attention num_layers block_size max_slots max_seq_len s)
    (hPass : s.pass = none) (slot_id : SlotId) :
    Invariant attention num_layers block_size max_slots max_seq_len
      { s with
        cache := left (init_seq_len slot_id) s.cache
        events := .init_seq_len slot_id :: s.events } where
  clean := h.clean.seq_lens _
  roomy other := by
    have hOld := h.roomy other
    change (Function.update s.cache.slot_seq_lens slot_id (some 0) other).getD 0 ≤ _
    by_cases hSame : other = slot_id
    · rw [hSame, Function.update_self]
      exact Nat.zero_le _
    · rw [Function.update_of_ne hSame]
      exact hOld
  stored other layer_idx hLayer := by
    by_cases hSame : other = slot_id
    · simp only [rows, if_pos hSame]
      exact ⟨Paged.Keeps.nil, Paged.Keeps.nil⟩
    · simp only [rows, if_neg hSame]
      exact h.stored other layer_idx hLayer
  lengths other layer_idx hLayer := by
    have hOld := h.lengths other layer_idx hLayer
    rw [hPass] at hOld ⊢
    change _ = (Function.update s.cache.slot_seq_lens slot_id (some 0) other).getD 0 + _
    by_cases hSame : other = slot_id
    · simp [rows, hSame, added]
    · simp only [rows, if_neg hSame, Function.update_of_ne hSame]
      exact hOld
  outs other layer_idx := by
    by_cases hSame : other = slot_id
    · simp only [rows, PagedAttention.outs, if_pos hSame]
      rfl
    · simp only [rows, PagedAttention.outs, if_neg hSame]
      exact h.outs other layer_idx
  running := of_idle hPass

/-- More blocks leave what is stored where it is. -/
theorem Invariant.grow (h : Invariant attention num_layers block_size max_slots max_seq_len s)
    (hPass : s.pass = none) (hClean : Clean num_layers block_size max_slots max_seq_len cache')
    (hGrows : Grows s.cache cache') {pass : Option Pass}
    (hRunning : ∀ p, pass = some p → Running cache' p ∧ p.layer_idx = 0) :
    Invariant attention num_layers block_size max_slots max_seq_len
      { s with cache := cache', pass } where
  clean := hClean
  roomy := hGrows.roomy h.roomy
  stored := h.stored.grow hGrows
  lengths slot_id layer_idx hLayer := by
    have hOld := h.lengths slot_id layer_idx hLayer
    rw [hPass] at hOld
    have hNone : added pass slot_id layer_idx = 0 := by
      cases pass with
      | none => rfl
      | some p =>
          have hZero := (hRunning p rfl).2
          simp [added, hZero]
    rw [hNone, hGrows.seq_lens]
    exact hOld
  outs := h.outs
  running p hSome := (hRunning p hSome).1

/-- Blocks that are not filled with zeros. -/
theorem getD_zero_fill {caches : List (Nat → Nat → V)} {blocks : List Nat} {block : Nat}
    (hOther : block ∉ blocks) (layer_idx : Nat) :
    (caches.map (zero_fill blocks)).getD layer_idx 0 block = caches.getD layer_idx 0 block := by
  have hZero : (0 : Nat → Nat → V) = zero_fill blocks 0 := by
    funext b
    simp [zero_fill]
  rw [hZero, List.getD_map, ← hZero]
  exact if_neg hOther

/-- The other slots keep their blocks, and what is in them. -/
theorem Invariant.teardown (h : Invariant attention num_layers block_size max_slots max_seq_len s)
    {slot_id : SlotId} (hPass : ∀ p, s.pass = some p → p.slot_id = slot_id) :
    Invariant attention num_layers block_size max_slots max_seq_len (s.teardown slot_id) where
  clean := h.clean.free_slot slot_id
  roomy other := by
    have hOld := h.roomy other
    by_cases hSame : other = slot_id
    · change (Function.update s.cache.slot_seq_lens slot_id none other).getD 0 ≤ _
      rw [hSame, Function.update_self]
      exact Nat.zero_le _
    · change (Function.update s.cache.slot_seq_lens slot_id none other).getD 0 ≤
        ((Function.update s.cache.slot_block_tables slot_id none other).getD []).length * _
      rw [Function.update_of_ne hSame, Function.update_of_ne hSame]
      exact hOld
  stored other layer_idx hLayer := by
    by_cases hSame : other = slot_id
    · simp only [State.teardown, rows, if_pos hSame]
      exact ⟨Paged.Keeps.nil, Paged.Keeps.nil⟩
    · obtain ⟨hKeys, hValues⟩ := h.stored other layer_idx hLayer
      have hBlocks : (left (KVCache.free_slot slot_id) s.cache).blocks other =
          s.cache.blocks other := by
        change (Function.update s.cache.slot_block_tables slot_id none other).getD [] = _
        rw [Function.update_of_ne hSame]
        rfl
      have hApart := (h.clean.apart slot_id).2 other hSame
      simp only [State.teardown, rows, if_neg hSame, hBlocks]
      exact ⟨hKeys.congr fun b hb => getD_zero_fill (hApart b hb) layer_idx,
        hValues.congr fun b hb => getD_zero_fill (hApart b hb) layer_idx⟩
  lengths other layer_idx hLayer := by
    change _ = (Function.update s.cache.slot_seq_lens slot_id none other).getD 0 + 0
    by_cases hSame : other = slot_id
    · simp [State.teardown, rows, hSame]
    · have hOld := h.lengths other layer_idx hLayer
      have hNone : added s.pass other layer_idx = 0 := by
        cases hSome : s.pass with
        | none => rfl
        | some p =>
            rw [added, if_neg]
            exact fun hOwn => hSame (hOwn.1.trans (hPass p hSome))
      simp only [State.teardown, rows, if_neg hSame, Function.update_of_ne hSame]
      rw [hOld, hNone]
  outs other layer_idx := by
    by_cases hSame : other = slot_id
    · simp only [State.teardown, rows, PagedAttention.outs, if_pos hSame]
      rfl
    · simp only [State.teardown, rows, PagedAttention.outs, if_neg hSame]
      exact h.outs other layer_idx
  running := of_idle rfl

/-- A layer of a pass puts keys and values behind those of its slot, and does nothing else to the
cache. -/
theorem cache_attend (hKernel : kernel.Documented attention)
    (hNodup : (cache.blocks p.slot_id).Nodup) (hRunning : Running cache p)
    (hRows : later.length = p.q_len) :
    (batch_flash_attention kernel later p cache).2 = { cache with
      key_caches := cache.key_caches.set p.layer_idx (Paged.write_all cache.block_size
        p.block_table (key_cache cache p.layer_idx) p.cache_seqlens (later.map Row.key))
      value_caches := cache.value_caches.set p.layer_idx (Paged.write_all cache.block_size
        p.block_table (value_cache cache p.layer_idx) p.cache_seqlens (later.map Row.value)) } := by
  obtain ⟨more, hTable⟩ := hRunning.table
  have hFits : p.cache_seqlens + later.length ≤
      (cache.blocks p.slot_id).length * cache.block_size := hRows ▸ hRunning.fits
  simp only [batch_flash_attention, hTable, hKernel.key_cache more hNodup hFits,
    hKernel.value_cache more hNodup hFits]

/-- A layer of a pass writes the keys of its rows behind those that are there, and to no other
layer. -/
theorem key_cache_attend (hKernel : kernel.Documented attention)
    (hNodup : (cache.blocks p.slot_id).Nodup) (hRunning : Running cache p)
    (hRows : later.length = p.q_len) (hIndex : p.layer_idx < cache.key_caches.length)
    (layer_idx : Nat) :
    key_cache (batch_flash_attention kernel later p cache).2 layer_idx =
      if layer_idx = p.layer_idx then
        Paged.write_all cache.block_size p.block_table (key_cache cache layer_idx) p.cache_seqlens
          (later.map Row.key)
      else key_cache cache layer_idx := by
  rw [cache_attend hKernel hNodup hRunning hRows]
  exact getD_set_getD hIndex (fun cache_layer => Paged.write_all cache.block_size p.block_table
    cache_layer p.cache_seqlens (later.map Row.key)) 0 layer_idx

/-- And the values alike. -/
theorem value_cache_attend (hKernel : kernel.Documented attention)
    (hNodup : (cache.blocks p.slot_id).Nodup) (hRunning : Running cache p)
    (hRows : later.length = p.q_len) (hIndex : p.layer_idx < cache.value_caches.length)
    (layer_idx : Nat) :
    value_cache (batch_flash_attention kernel later p cache).2 layer_idx =
      if layer_idx = p.layer_idx then
        Paged.write_all cache.block_size p.block_table (value_cache cache layer_idx)
          p.cache_seqlens (later.map Row.value)
      else value_cache cache layer_idx := by
  rw [cache_attend hKernel hNodup hRunning hRows]
  exact getD_set_getD hIndex (fun cache_layer => Paged.write_all cache.block_size p.block_table
    cache_layer p.cache_seqlens (later.map Row.value)) 0 layer_idx

/-- A layer of a pass leaves the free blocks clean. -/
theorem clean_attend (hKernel : kernel.Documented attention)
    (h : Clean num_layers block_size max_slots max_seq_len cache)
    (hRunning : Running cache p) (hLayer : p.layer_idx < num_layers)
    (hRows : later.length = p.q_len) :
    Clean num_layers block_size max_slots max_seq_len
      (batch_flash_attention kernel later p cache).2 := by
  rw [cache_attend hKernel (h.apart p.slot_id).1 hRunning hRows]
  refine ⟨h.managed, ⟨List.length_set.trans h.layers.1, List.length_set.trans h.layers.2⟩, ?_⟩
  intro layer hMem b hb
  obtain ⟨more, hTable⟩ := hRunning.table
  have hFits (part : Row Q V → V) : p.cache_seqlens + (later.map part).length ≤
      (cache.blocks p.slot_id).length * cache.block_size := by
    rw [List.length_map, hRows]
    exact hRunning.fits
  have hOther : b ∉ cache.blocks p.slot_id := fun hIn => h.not_free hIn hb
  simp only [hTable, List.mem_append] at hMem
  rcases hMem with hKey | hValue
  · obtain ⟨old, hOld, hSame⟩ :=
      mem_set_write_all (h.layers.1.symm ▸ hLayer) (hFits Row.key) hKey
    rw [hSame b hOther]
    exact h.zero old (List.mem_append_left _ hOld) b hb
  · obtain ⟨old, hOld, hSame⟩ :=
      mem_set_write_all (h.layers.2.symm ▸ hLayer) (hFits Row.value) hValue
    rw [hSame b hOther]
    exact h.zero old (List.mem_append_right _ hOld) b hb

/-- As many rows have been through a layer as the pass counts as cached, before its own. -/
theorem Invariant.length_rows
    (h : Invariant attention num_layers block_size max_slots max_seq_len s)
    (hPass : s.pass = some p) (hLayer : p.layer_idx < num_layers) :
    (rows s.events p.slot_id p.layer_idx).length = p.cache_seqlens := by
  rw [h.lengths p.slot_id p.layer_idx hLayer, hPass, (h.running p hPass).seq_len]
  simp [added]

/-- What a layer of a pass puts out is the attention over all the rows of the slot so far. -/
theorem Invariant.out_eq (hKernel : kernel.Documented attention)
    (h : Invariant attention num_layers block_size max_slots max_seq_len s)
    (hPass : s.pass = some p) (hLayer : p.layer_idx < num_layers)
    (hRows : later.length = p.q_len) :
    (batch_flash_attention kernel later p s.cache).1 =
      causal attention ((rows s.events p.slot_id p.layer_idx).map Row.entry) later := by
  obtain ⟨more, hTable⟩ := (h.running p hPass).table
  obtain ⟨hKeys, hValues⟩ := h.stored p.slot_id p.layer_idx hLayer
  simp only [batch_flash_attention, hTable]
  exact hKernel.out_eq (h.clean.apart p.slot_id).1 hKeys hValues (h.length_rows hPass hLayer)
    (hRows ▸ (h.running p hPass).fits)

/-- A layer keeps the invariant. -/
theorem Invariant.attend (hKernel : kernel.Documented attention)
    (h : Invariant attention num_layers block_size max_slots max_seq_len s)
    (hPass : s.pass = some p) (hLayer : p.layer_idx < num_layers)
    (hRows : later.length = p.q_len) :
    Invariant attention num_layers block_size max_slots max_seq_len
      { cache := (batch_flash_attention kernel later p s.cache).2
        pass := some { p with layer_idx := p.layer_idx + 1 }
        events := .attention p.slot_id p.layer_idx later
          (batch_flash_attention kernel later p s.cache).1 :: s.events } := by
  have hRunning := h.running p hPass
  obtain ⟨more, hTable⟩ := hRunning.table
  obtain ⟨hNodup, hApart⟩ := h.clean.apart p.slot_id
  have hOld := h.length_rows hPass hLayer
  have hFits : p.cache_seqlens + later.length ≤
      (s.cache.blocks p.slot_id).length * s.cache.block_size := hRows ▸ hRunning.fits
  refine ⟨clean_attend hKernel h.clean hRunning hLayer hRows, h.roomy, ?_, ?_, ?_, ?_⟩
  · intro slot_id layer_idx hIn
    obtain ⟨hKeys, hValues⟩ := h.stored slot_id layer_idx hIn
    refine ⟨?_, ?_⟩
    · rw [key_cache_attend hKernel hNodup hRunning hRows (h.clean.layers.1.symm ▸ hLayer)]
      exact keeps_attend hKeys hNodup hApart hOld hFits hTable
    · rw [value_cache_attend hKernel hNodup hRunning hRows (h.clean.layers.2.symm ▸ hLayer)]
      exact keeps_attend hValues hNodup hApart hOld hFits hTable
  · intro slot_id layer_idx hIn
    have hLength := h.lengths slot_id layer_idx hIn
    rw [hPass] at hLength
    by_cases hSlot : slot_id = p.slot_id
    · by_cases hSame : layer_idx = p.layer_idx
      · subst hSlot hSame
        change _ = (s.cache.slot_seq_lens p.slot_id).getD 0 + _
        rw [hRunning.seq_len]
        simp [rows, added, hOld, hRows]
      · simp only [rows, hSlot, hSame, and_false, if_false, added, true_and] at hLength ⊢
        rw [hLength]
        congr 1
        split
        · rw [if_pos (by omega)]
        · rw [if_neg (by omega)]
    · simp only [rows, hSlot, false_and, if_false, added] at hLength ⊢
      exact hLength
  · intro slot_id layer_idx
    by_cases hSame : slot_id = p.slot_id ∧ layer_idx = p.layer_idx
    · obtain ⟨rfl, rfl⟩ := hSame
      simp only [rows, PagedAttention.outs, and_self, if_true]
      rw [h.outs, h.out_eq hKernel hPass hLayer hRows, causal_append, List.nil_append]
    · simp only [rows, PagedAttention.outs, if_neg hSame]
      exact h.outs slot_id layer_idx
  · rintro _ ⟨⟩
    exact ⟨hRunning.seq_len, hRunning.fits, hRunning.table⟩

/-- The tokens of the pass count once all layers have had them. -/
theorem Invariant.leave (h : Invariant attention num_layers block_size max_slots max_seq_len s)
    (hPass : s.pass = some p) (hDone : p.layer_idx = num_layers) :
    Invariant attention num_layers block_size max_slots max_seq_len
      { s with
        cache := left (advance_seq_lens_by [p.slot_id] [p.q_len]) s.cache, pass := none } := by
  have hRunning := h.running p hPass
  rw [left_advance hRunning]
  refine ⟨h.clean.seq_lens _, fun other => ?_, h.stored, fun other layer_idx hLayer => ?_, h.outs,
    of_idle rfl⟩
  · have hOld := h.roomy other
    change (Function.update s.cache.slot_seq_lens p.slot_id _ other).getD 0 ≤
      (s.cache.blocks other).length * s.cache.block_size
    by_cases hSame : other = p.slot_id
    · rw [hSame, Function.update_self]
      exact hRunning.fits
    · rw [Function.update_of_ne hSame]
      exact hOld
  · have hOld := h.lengths other layer_idx hLayer
    rw [hPass] at hOld
    change _ = (Function.update s.cache.slot_seq_lens p.slot_id _ other).getD 0 + 0
    by_cases hSame : other = p.slot_id
    · subst hSame
      rw [hRunning.seq_len, added, if_pos ⟨rfl, hDone.symm ▸ hLayer⟩] at hOld
      rw [Function.update_self]
      exact hOld
    · rw [added, if_neg fun hOwn => hSame hOwn.1] at hOld
      rw [Function.update_of_ne hSame]
      exact hOld

/-- A pass begins, with room for its tokens. -/
theorem Invariant.enter (h : Invariant attention num_layers block_size max_slots max_seq_len s)
    (hPass : s.pass = none) (hPos : 0 < block_size) {slot_id : SlotId} {q_len : Nat}
    (hFits : Fits max_seq_len s (.enter slot_id q_len))
    (hStep : idle max_slots s (.enter slot_id q_len) = some s') :
    Invariant attention num_layers block_size max_slots max_seq_len s' := by
  obtain ⟨cache, hClean, hGrows, ⟨e, hRun⟩ | ⟨p, hRun, hRunning, -, -, hZero⟩⟩ :=
    run_attn_meta h.clean h.roomy hPos hFits
  · rw [idle, hRun] at hStep
    obtain rfl := Option.some.inj hStep
    have hGrown : Invariant attention num_layers block_size max_slots max_seq_len
        { s with cache } :=
      h.grow hPass hClean hGrows (of_idle hPass)
    exact hGrown.teardown (of_idle hPass)
  · rw [idle, hRun] at hStep
    obtain rfl := Option.some.inj hStep
    refine h.grow hPass hClean hGrows ?_
    rintro _ ⟨⟩
    exact ⟨hRunning, hZero⟩

/-- A pass starts, or there are no blocks for it. -/
theorem Invariant.enter_cases
    (h : Invariant attention num_layers block_size max_slots max_seq_len s)
    (hPass : s.pass = none) (hPos : 0 < block_size) {slot_id : SlotId} {q_len : Nat}
    (hFits : Fits max_seq_len s (.enter slot_id q_len))
    (hStep : PagedAttention.step kernel num_layers max_slots s (.enter slot_id q_len) =
      some s') :
    (s'.pass = none ∧ s'.events = .free_slot slot_id :: s.events) ∨
      ∃ p, s'.pass = some p ∧ s'.events = s.events ∧
        p.slot_id = slot_id ∧ p.q_len = q_len ∧ p.layer_idx = 0 := by
  simp only [PagedAttention.step, hPass] at hStep
  obtain ⟨cache, -, -, ⟨e, hRun⟩ | ⟨p, hRun, -, hPart⟩⟩ :=
    run_attn_meta h.clean h.roomy hPos hFits
  · rw [idle, hRun] at hStep
    obtain rfl := Option.some.inj hStep
    exact .inl ⟨rfl, rfl⟩
  · rw [idle, hRun] at hStep
    obtain rfl := Option.some.inj hStep
    exact .inr ⟨p, rfl, rfl, hPart⟩

/-- Every step keeps the invariant. -/
theorem Invariant.step (hKernel : kernel.Documented attention)
    (h : Invariant attention num_layers block_size max_slots max_seq_len s)
    (hPos : 0 < block_size) {l : Label Q V} (hFits : Fits max_seq_len s l)
    (hStep : step kernel num_layers max_slots s l = some s') :
    Invariant attention num_layers block_size max_slots max_seq_len s' := by
  cases hPass : s.pass with
  | none =>
      simp only [PagedAttention.step, hPass] at hStep
      cases l with
      | init_seq_len slot_id =>
          obtain rfl := Option.some.inj hStep
          exact h.init_seq_len hPass slot_id
      | enter slot_id q_len => exact h.enter hPass hPos hFits hStep
      | free_slot slot_id =>
          obtain rfl := Option.some.inj hStep
          exact h.teardown (of_idle hPass)
      | attend | leave | fail => cases hStep
  | some p =>
      simp only [PagedAttention.step, hPass] at hStep
      cases l with
      | attend later =>
          simp only [Option.ite_none_right_eq_some, Option.some.injEq] at hStep
          obtain ⟨⟨hLayer, hRows⟩, rfl⟩ := hStep
          exact h.attend hKernel hPass hLayer hRows
      | leave =>
          simp only [Option.ite_none_right_eq_some, Option.some.injEq] at hStep
          obtain ⟨hDone, rfl⟩ := hStep
          exact h.leave hPass hDone
      | fail =>
          obtain rfl := Option.some.inj hStep
          exact h.teardown fun q hSome => by
            rw [hPass] at hSome
            exact congrArg Pass.slot_id (Option.some.inj hSome).symm
      | init_seq_len | enter | free_slot => cases hStep

/-- It holds in every state of a run in which slots stay within the length limit. -/
theorem invariant_of_reach (hKernel : kernel.Documented attention) (hPos : 0 < block_size)
    (run : (machine kernel num_layers block_size max_slots max_seq_len).Reach
      (Fits max_seq_len) s) :
    Invariant attention num_layers block_size max_slots max_seq_len s := by
  refine run.invariant (Invariant attention num_layers block_size max_slots max_seq_len) ?_
    fun _ _ _ hOld hFits hStep => hOld.step hKernel hPos hFits hStep
  rintro _ rfl
  exact Invariant.initial

/-- However the tokens of a request are cut into passes, whatever the passes of other slots do in
between and wherever the blocks are, a layer gives for them the attention over these tokens alone,
all at once. It is assumed of the kernel what its documentation says, that blocks hold tokens at
all, and of the run that no pass makes a slot longer than `max_seq_len`. -/
theorem attention_over_own_tokens (hKernel : kernel.Documented attention) (hPos : 0 < block_size)
    (run : (machine kernel num_layers block_size max_slots max_seq_len).Reach
      (Fits max_seq_len) s) (slot_id : SlotId) {layer_idx : Nat} (hLayer : layer_idx < num_layers) :
    outs s.events slot_id layer_idx = causal attention [] (rows s.events slot_id layer_idx) ∧
      Paged.Keeps s.cache.block_size (s.cache.blocks slot_id) (key_cache s.cache layer_idx)
        ((rows s.events slot_id layer_idx).map Row.key) ∧
      Paged.Keeps s.cache.block_size (s.cache.blocks slot_id) (value_cache s.cache layer_idx)
        ((rows s.events slot_id layer_idx).map Row.value) ∧
      (s.pass = none →
        (rows s.events slot_id layer_idx).length = (s.cache.slot_seq_lens slot_id).getD 0) := by
  have h := invariant_of_reach hKernel hPos run
  obtain ⟨hKeys, hValues⟩ := h.stored slot_id layer_idx hLayer
  refine ⟨h.outs slot_id layer_idx, hKeys, hValues, fun hPass => ?_⟩
  have hLength := h.lengths slot_id layer_idx hLayer
  rw [hPass] at hLength
  exact hLength

instance : ∀ (s : State Q V O) l, Decidable (Fits max_seq_len s l)
  | s, .enter slot_id q_len =>
      inferInstanceAs (Decidable ((s.cache.slot_seq_lens slot_id).getD 0 + q_len ≤ max_seq_len))
  | _, .init_seq_len _ | _, .attend _ | _, .leave | _, .fail | _, .free_slot _ => .isTrue trivial

/-- The tokens of a slot come in two passes, with one for another slot in between. -/
theorem attention_of_two_slots : ∃ s : State Nat Nat (List (Nat × Nat)),
    (machine (paged_kernel fun _ entries => entries) 1 2 2 4).Reach (Fits 4) s ∧
      outs s.events 9 0 = [[(1, 10)], [(1, 10), (2, 20)], [(1, 10), (2, 20), (3, 30)]] ∧
      outs s.events 9 0 = causal (fun _ entries => entries) [] (rows s.events 9 0) := by
  have hRun : ((machine (paged_kernel fun (_ : Nat) entries => entries) 1 2 2 4).replayUnder
      (Fits 4) { cache := (new 1 2 2 4 : KVCache (Nat → Nat)) }
      [.init_seq_len 9, .enter 9 2, .attend [⟨0, 1, 10⟩, ⟨0, 2, 20⟩], .leave,
        .init_seq_len 5, .enter 5 1, .attend [⟨0, 7, 70⟩], .leave,
        .enter 9 1, .attend [⟨0, 3, 30⟩]]).map (fun s => outs s.events 9 0) =
      some [[(1, 10)], [(1, 10), (2, 20)], [(1, 10), (2, 20), (3, 30)]] := by decide +kernel
  obtain ⟨s, hReplay, hEnd⟩ := Option.map_eq_some_iff.mp hRun
  have run := System.reach_of_replayUnder (.start rfl) hReplay
  exact ⟨s, run, hEnd,
    (attention_over_own_tokens paged_kernel_documented Nat.two_pos run 9 Nat.one_pos).1⟩

end Run

end Worker.PagedAttention
