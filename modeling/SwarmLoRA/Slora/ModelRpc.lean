import SwarmLoRA.Slora.InferAdapter
import SwarmLoRA.Slora.InferBatch

/-! The worker that runs the model, and what it is for: every request gets the tokens that the
model would give it alone, with the weights of its own adapter. -/
namespace Slora

open Data Segments

/-- The model as it is: what a token leaves in its cell, with the weights of an adapter and after
what the tokens before it have left, and the token that is sampled next for a request. -/
structure Model (V : Type) where
  kv : List V → List V → Token → V
  sample : String → List V → List V → List Token → Token

namespace Model

variable {V : Type} (model : Model V)

/-- What some tokens leave, one after the other. -/
def cache_of (weights : List V) (tokens : List Token) : List V :=
  tokens.foldl (fun cache token => cache ++ [model.kv weights cache token]) []

/-- The token that comes after others. -/
def next (request_id : String) (weights : List V) (tokens : List Token) : Token :=
  model.sample request_id weights (model.cache_of weights tokens) tokens

/-- The first tokens that a prompt gets if it is run alone. -/
def generate (request_id : String) (weights : List V) (prompt_ids : List Token) :
    Nat → List Token
  | 0 => []
  | n + 1 =>
      let output_ids := generate request_id weights prompt_ids n
      output_ids ++ [model.next request_id weights (prompt_ids ++ output_ids)]

theorem cache_of_append (weights : List V) (tokens : List Token) (token : Token) :
    model.cache_of weights (tokens ++ [token]) =
      model.cache_of weights tokens ++
        [model.kv weights (model.cache_of weights tokens) token] := by
  rw [cache_of, List.foldl_append]
  rfl

@[simp] theorem length_cache_of (weights : List V) (tokens : List Token) :
    (model.cache_of weights tokens).length = tokens.length := by
  induction tokens using List.reverseRecOn with
  | nil => rfl
  | append_singleton tokens token ih => simp [cache_of_append, ih]

@[simp] theorem length_generate (request_id : String) (weights : List V) (prompt_ids : List Token)
    (n : Nat) : (model.generate request_id weights prompt_ids n).length = n := by
  induction n with
  | zero => rfl
  | succ n ih => simp [generate, ih]

end Model

/-- The weights for a request, none for one without an adapter. -/
def weights_of {V : Type} (weights : String → List V) : Option String → List V
  | none => []
  | some dir => weights dir

section

variable {V : Type} (model : Model V) (weights : String → List V) (text : Text)

/-- The token that the model alone gives a request, with the weights of its adapter. -/
def Model.next_of : Token :=
  model.next text.request_id (weights_of weights text.adapter_dir) text.tokens

def Text.grow : Text := { text with tokens := text.tokens ++ [model.next_of weights text] }

/-- What the worker answers for the request. -/
def Text.reply : String × Token := (text.request_id, model.next_of weights text)

end

/-- What a batch is to the router. -/
structure View where
  batch_id : Nat
  prefilled : Bool
  texts : List Text

def InferBatch.view (batch : InferBatch) : View :=
  ⟨batch.batch_id, batch.prefilled, batch.sequences.map (·.toText)⟩

/-- How many cells the batch has. -/
def View.held (view : View) : Nat :=
  if view.prefilled then (view.texts.map fun text => text.tokens.length - 1).sum else 0

/-- The batches are under their ids. -/
structure ModelRpcServer (V : Type) where
  cache : List InferBatch
  infer_adapter : InferAdapter
  memory : Memory V

/-- What a pass of the model leaves: the rows with their new cells, the memory, and what is read
for a row. -/
structure Pass (V : Type) where
  rows : List Row
  memory : Memory V
  read : Row → List V

/-- `self.cache.pop`. -/
def pop (cache : List InferBatch) (batch_id : Nat) : Option (InferBatch × List InferBatch) :=
  (cache.find? (·.batch_id == batch_id)).map fun batch =>
    (batch, cache.filter (·.batch_id != batch_id))

def put (cache : List InferBatch) (batch : InferBatch) : List InferBatch :=
  batch :: cache.filter (·.batch_id != batch.batch_id)

namespace ModelRpcServer

section

variable {V : Type} (model : Model V) (adapters : List LoraAdapter) (weights : String → List V)
  (self : ModelRpcServer V)

/-- The adapters of these names. A name that is not served raises. -/
def adapters_of (adapter_dirs : List (Option String)) : Option (List LoraAdapter) :=
  (adapter_dirs.filterMap id).mapM fun dir => adapters.find? (·.lora_dir == dir)

def load_adapters (adapter_dirs : List (Option String)) (prefetch : Bool) :
    Option (ModelRpcServer V) :=
  (adapters_of adapters adapter_dirs).bind fun adapters =>
    (self.infer_adapter.load_adapters weights self.memory adapters prefetch).toOption.map
      fun (infer_adapter, memory) => { self with infer_adapter, memory }

def offload_adapters (reserve_dirs : List (Option String)) : Option (ModelRpcServer V) :=
  (self.infer_adapter.offload_adapters self.memory.mem_manager reserve_dirs).toOption.map
    fun (infer_adapter, mem_manager) =>
      { self with infer_adapter, memory := { self.memory with mem_manager } }

def add_batch (batch_id : Nat) (reqs : List Req) : Option (ModelRpcServer V) :=
  (InferBatch.init_batch batch_id reqs).map fun batch => { self with cache := put self.cache batch }

/-- An entry of `req_bins`. A request without an adapter is in the first bin. -/
def req_bin : Option String → Option Nat
  | none => some 0
  | some dir => self.infer_adapter.adapter_dirs.findIdx? (· == dir)

/-- What the kernels read for a bin. -/
def bin_weights (bin : Nat) : List V :=
  match self.infer_adapter.loaded[bin]? with
  | some entry => (self.infer_adapter.region entry).map self.memory.buffer
  | none => []

/-- The engine for a batch: what it adds to the base model for each row. -/
def engine (batch : InferBatch) : Option (Row → List V) :=
  if batch.rows.all (·.adapter_dir == none) then some fun _ => []
  else if batch.rows.all fun row => (self.req_bin row.adapter_dir).isSome then
    some fun row => ((self.req_bin row.adapter_dir).map self.bin_weights).getD []
  else none

/-- `_prefill`. The prompts are read from the input by where they start. -/
def prefill (batch : InferBatch) (lora : Row → List V) : Option (Pass V) :=
  (self.memory.mem_manager.alloc batch.nopad_total_token_num).toOption.map
    fun (prefill_mem_index, mem_manager) =>
      let input_ids := batch.rows.flatMap (·.input_ids)
      let read row := model.cache_of (lora row) (slice input_ids row.start_loc row.seq_len)
      { rows := batch.init_bloc prefill_mem_index
        memory :=
          { mem_manager
            buffer := write self.memory.buffer
              (batch.rows.flatMap fun row => slice prefill_mem_index row.start_loc row.seq_len)
              (batch.rows.flatMap read) }
        read }

/-- A run of cells if there is one, and any cells else. -/
def decode_alloc (mem_manager : MemoryAllocator) (batch_size : Nat) :
    Option (List Nat × MemoryAllocator) :=
  match mem_manager.alloc_contiguous batch_size with
  | .error _ => none
  | .ok (some (decode_mem_index, _, _), mem_manager) => some (decode_mem_index, mem_manager)
  | .ok (none, mem_manager) => (mem_manager.alloc batch_size).toOption

/-- `_decode`. What the tokens have left is read through the table. -/
def decode (batch : InferBatch) (lora : Row → List V) : Option (Pass V) :=
  (decode_alloc self.memory.mem_manager batch.rows.length).map
    fun (decode_mem_index, mem_manager) =>
      let max_len := batch.nopad_max_len_in_batch
      let rows := List.zipWith batch.add_cell decode_mem_index batch.rows
      let buffer := write self.memory.buffer decode_mem_index
        (rows.map fun row => model.kv (lora row)
          ((row.cells max_len).map self.memory.buffer) (row.input_ids.headD 0))
      { rows
        memory := { mem_manager, buffer }
        read := fun row => (row.all_cells max_len).map buffer }

def forward (batch_id : Nat) (is_prefill : Bool) :
    Option (ModelRpcServer V × List (String × Token)) :=
  (pop self.cache batch_id).bind fun (batch, cache) =>
    (self.engine batch).bind fun lora =>
      (if is_prefill then self.prefill model batch lora else self.decode model batch lora).map
        fun pass =>
          let next_token_id row :=
            model.sample row.request_id (lora row) (pass.read row) row.all_input_ids
          ({ self with
              cache := put cache (batch.advance pass.rows next_token_id)
              memory := pass.memory },
            pass.rows.map fun row => (row.request_id, next_token_id row))

def filter_batch (batch_id : Nat) (req_id_list : List String) : Option (ModelRpcServer V) :=
  (pop self.cache batch_id).bind fun (batch, cache) =>
    (batch.filter req_id_list).map fun (batch, removed) =>
      { self with
        cache := put cache batch
        memory := { self.memory with mem_manager := self.memory.mem_manager.free removed } }

def merge_batch (batch_id1 batch_id2 : Nat) : Option (ModelRpcServer V) :=
  (pop self.cache batch_id1).bind fun (batch1, cache) =>
    (pop cache batch_id2).map fun (batch2, cache) =>
      { self with cache := put cache (batch1.merge batch2) }

/-- The cells of the batch are given back. -/
def remove_batch (batch_id : Nat) : Option (ModelRpcServer V) :=
  (pop self.cache batch_id).map fun (batch, cache) =>
    { self with
      cache
      memory := { self.memory with
        mem_manager := self.memory.mem_manager.free (batch.row_cells batch.rows) } }

end

variable {V : Type} {model : Model V} {adapters : List LoraAdapter} {weights : String → List V}
  {rank : String → Nat} {buffer buffer' : Nat → V} {batch : InferBatch}
  {cache rest : List InferBatch} {tot_size batch_id : Nat} {self self' : ModelRpcServer V}

/-- Every request names an adapter, and its cells hold what the model alone leaves for the tokens
that have been run. -/
structure Cached (model : Model V) (weights : String → List V) (buffer : Nat → V)
    (batch : InferBatch) : Prop extends batch.Shape where
  named : ∀ seq ∈ batch.sequences, seq.adapter_dir ≠ none
  content : batch.prefilled = true → ∀ seq ∈ batch.sequences,
    seq.cells.map buffer = model.cache_of (weights_of weights seq.adapter_dir) seq.tokens.dropLast

theorem Cached.congr (h : Cached model weights buffer batch)
    (hSame : ∀ c ∈ batch.cells, buffer' c = buffer c) : Cached model weights buffer' batch where
  toShape := h.toShape
  named := h.named
  content hPrefilled seq hSeq := by
    rw [← h.content hPrefilled seq hSeq]
    refine List.map_congr_left fun c hc => hSame c ?_
    rw [InferBatch.cells_eq]
    exact List.mem_flatMap.mpr ⟨seq, hSeq, hc⟩

theorem Cached.named_row (h : Cached model weights buffer batch) {row : Row}
    (hRow : row ∈ batch.rows) : row.adapter_dir ≠ none :=
  h.named (row.sequence batch.nopad_max_len_in_batch batch.prefilled) (List.mem_map_of_mem hRow)

/-- The pool is shared out among the adapters and the requests, each of which finds in its cells
what it has put there. -/
structure Sound (model : Model V) (rank : String → Nat) (weights : String → List V)
    (tot_size : Nat) (server : ModelRpcServer V) : Prop where
  intact : server.infer_adapter.Intact rank weights server.memory.buffer
  holds : server.memory.mem_manager.Holds
    (server.infer_adapter.a_loc ++ server.cache.flatMap (·.cells))
  tot_size_eq : server.memory.mem_manager.tot_size = tot_size
  ids : (server.cache.map (·.batch_id)).Nodup
  cached : ∀ batch ∈ server.cache, Cached model weights server.memory.buffer batch

/-! ### The batches under their ids -/

theorem pop_spec (hIds : (cache.map (·.batch_id)).Nodup)
    (hPop : pop cache batch_id = some (batch, rest)) :
    batch.batch_id = batch_id ∧ cache.Perm (batch :: rest) ∧
      ∀ other ∈ rest, other.batch_id ≠ batch_id := by
  obtain ⟨found, hFind, hSame⟩ := Option.map_eq_some_iff.mp hPop
  obtain ⟨rfl, rfl⟩ := Prod.mk.inj hSame
  have hId : found.batch_id = batch_id := by simpa using List.find?_some hFind
  refine ⟨hId, ?_, fun other hOther => by simpa using List.of_mem_filter hOther⟩
  clear hPop hSame
  induction cache with
  | nil => simp at hFind
  | cons first cache ih =>
      obtain ⟨hNot, hRest⟩ := List.nodup_cons.mp hIds
      by_cases hFirst : first.batch_id = batch_id
      · obtain rfl : first = found := by simpa [List.find?_cons, hFirst] using hFind
        have hAll : cache.filter (·.batch_id != batch_id) = cache := by
          refine List.filter_eq_self.mpr fun other hOther => bne_iff_ne.mpr fun hSame => hNot ?_
          exact List.mem_map.mpr ⟨other, hOther, hSame.trans hFirst.symm⟩
        simp [hFirst, hAll]
      · have hFind' : cache.find? (·.batch_id == batch_id) = some found := by
          simpa [List.find?_cons, hFirst] using hFind
        simpa [hFirst] using ((ih hRest hFind').cons first).trans (List.Perm.swap _ _ _)

theorem put_eq (batch' : InferBatch) (hRest : ∀ other ∈ rest, other.batch_id ≠ batch'.batch_id) :
    put rest batch' = batch' :: rest := by
  rw [put, List.filter_eq_self.mpr fun other hOther => bne_iff_ne.mpr (hRest other hOther)]

/-- The one batch is worked on. The others and the adapters keep their cells, and what these hold
stays the same. -/
theorem Sound.replace (h : Sound model rank weights tot_size self)
    (hPop : pop self.cache batch_id = some (batch, rest)) {batch' : InferBatch}
    (memory' : Memory V) (hId : batch'.batch_id = batch_id)
    (hCached : Cached model weights memory'.buffer batch')
    (hHolds : memory'.mem_manager.Holds
      (batch'.cells ++ (self.infer_adapter.a_loc ++ rest.flatMap (·.cells))))
    (hTot : memory'.mem_manager.tot_size = tot_size)
    (hSame : ∀ c ∈ self.infer_adapter.a_loc ++ rest.flatMap (·.cells),
      memory'.buffer c = self.memory.buffer c) :
    Sound model rank weights tot_size
      { self with cache := batch' :: rest, memory := memory' } := by
  obtain ⟨hId', hPerm, hOthers⟩ := pop_spec h.ids hPop
  refine ⟨h.intact.congr fun c hc => hSame c (List.mem_append_left _ hc), hHolds.perm ?_, hTot,
    ?_, ?_⟩
  · rw [List.flatMap_cons, ← List.append_assoc, ← List.append_assoc]
    exact List.perm_append_comm.append_right _
  · refine List.nodup_cons.mpr ⟨fun hMem => ?_, ?_⟩
    · obtain ⟨other, hOther, hSame⟩ := List.mem_map.mp hMem
      exact hOthers other hOther (hSame.trans hId)
    · have := (hPerm.map (·.batch_id)).nodup_iff.mp h.ids
      exact (List.nodup_cons.mp this).2
  · intro other hOther
    rcases List.mem_cons.mp hOther with rfl | hOther
    · exact hCached
    · refine (h.cached other (hPerm.mem_iff.mpr (List.mem_cons_of_mem _ hOther))).congr
        fun c hc => hSame c (List.mem_append_right _ ?_)
      exact List.mem_flatMap.mpr ⟨other, hOther, hc⟩

/-- How the cells of the pool are shared out once a batch has been taken out. -/
theorem Sound.holds_popped (h : Sound model rank weights tot_size self)
    (hPop : pop self.cache batch_id = some (batch, rest)) :
    self.memory.mem_manager.Holds
      (batch.cells ++ (self.infer_adapter.a_loc ++ rest.flatMap (·.cells))) := by
  obtain ⟨-, hPerm, -⟩ := pop_spec h.ids hPop
  refine h.holds.perm ?_
  have : (self.cache.flatMap (·.cells)).Perm (batch.cells ++ rest.flatMap (·.cells)) := by
    simpa using hPerm.flatMap_right (·.cells)
  refine (this.append_left _).trans ?_
  rw [← List.append_assoc, ← List.append_assoc]
  exact List.perm_append_comm.append_right _

end ModelRpcServer

end Slora
