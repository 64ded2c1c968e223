import Mathlib.Data.List.TakeDrop
import SwarmLoRA.Slora.ModelRpc

namespace Slora

open Data Segments

namespace ModelRpcServer

variable {V : Type} {model : Model V} {adapters : List LoraAdapter} {weights : String → List V}
  {rank : String → Nat} {buffer buffer' : Nat → V} {batch : InferBatch}
  {cache rest : List InferBatch} {tot_size batch_id : Nat} {self self' : ModelRpcServer V}

/-- The adapters of the requests are loaded. -/
def Ready (server : ModelRpcServer V) (texts : List Text) : Prop :=
  ∀ text ∈ texts, ∀ dir, text.adapter_dir = some dir → dir ∈ server.infer_adapter.adapter_dirs

theorem adapter_dir_mem {row : Row} (hDir : row.adapter_dir ∈ batch.rows.map (·.adapter_dir)) :
    ∃ seq ∈ batch.sequences, seq.adapter_dir = row.adapter_dir := by
  obtain ⟨old, hOld, hSame⟩ := List.mem_map.mp hDir
  exact ⟨_, List.mem_map_of_mem hOld, hSame⟩

/-- The kernels find the weights of the adapter that a request names. -/
theorem bin_weights_eq (h : self.infer_adapter.Intact rank weights self.memory.buffer)
    {dir : String} (hDir : dir ∈ self.infer_adapter.adapter_dirs) :
    ∃ bin, self.req_bin (some dir) = some bin ∧ self.bin_weights bin = weights dir := by
  have hSome : (self.infer_adapter.adapter_dirs.findIdx? (· == dir)).isSome := by
    rw [List.findIdx?_isSome, List.any_eq_true]
    exact ⟨dir, hDir, beq_self_eq_true dir⟩
  obtain ⟨bin, hBin⟩ := Option.isSome_iff_exists.mp hSome
  obtain ⟨hLt, hFound, -⟩ := List.findIdx?_eq_some_iff_getElem.mp hBin
  have hLoaded : bin < self.infer_adapter.loaded.length := by
    simpa [InferAdapter.adapter_dirs] using hLt
  refine ⟨bin, hBin, ?_⟩
  have hName : self.infer_adapter.loaded[bin].lora_dir = dir := by
    simpa [InferAdapter.adapter_dirs] using hFound
  rw [bin_weights, List.getElem?_eq_getElem hLoaded, ← hName]
  exact h.content _ (List.getElem_mem hLoaded)

/-- Each request of the batch is run with the weights of its own adapter. -/
theorem engine_spec (h : self.infer_adapter.Intact rank weights self.memory.buffer)
    (hCached : Cached model weights self.memory.buffer batch)
    (hReady : self.Ready (batch.sequences.map (·.toText))) :
    ∃ lora, self.engine batch = some lora ∧ ∀ row : Row,
      row.adapter_dir ∈ batch.rows.map (·.adapter_dir) →
        lora row = weights_of weights row.adapter_dir := by
  have hBin : ∀ row : Row, row.adapter_dir ∈ batch.rows.map (·.adapter_dir) →
      ∃ bin, self.req_bin row.adapter_dir = some bin ∧
        self.bin_weights bin = weights_of weights row.adapter_dir := by
    intro row hRow
    obtain ⟨seq, hSeq, hSame⟩ := adapter_dir_mem hRow
    obtain ⟨dir, hDir⟩ := Option.ne_none_iff_exists'.mp (hCached.named seq hSeq)
    rw [← hSame, hDir]
    exact bin_weights_eq h (hReady seq.toText (List.mem_map_of_mem hSeq) dir hDir)
  have hSome : batch.rows.all (·.adapter_dir == none) = false := by
    obtain ⟨row, hRow⟩ := List.exists_mem_of_ne_nil _ hCached.some_row
    obtain ⟨seq, hSeq, hSame⟩ := adapter_dir_mem (List.mem_map_of_mem (f := Row.adapter_dir) hRow)
    refine List.all_eq_false.mpr ⟨row, hRow, ?_⟩
    have := hCached.named seq hSeq
    rw [hSame] at this
    simpa using this
  have hAll : (batch.rows.all fun row => (self.req_bin row.adapter_dir).isSome) = true := by
    refine List.all_eq_true.mpr fun row hRow => ?_
    obtain ⟨bin, hSame, -⟩ := hBin row (List.mem_map_of_mem (f := Row.adapter_dir) hRow)
    simp [hSame]
  refine ⟨_, by rw [engine, hSome, hAll, if_neg Bool.false_ne_true, if_pos rfl], fun row hRow => ?_⟩
  obtain ⟨bin, hSame, hWeights⟩ := hBin row hRow
  simp [hSame, hWeights]

/-- What a pass does for the requests of a batch, whose other cells are not its concern. -/
structure Passed (model : Model V) (weights : String → List V) (tot_size : Nat)
    (others : List Nat) (buffer : Nat → V) (batch : InferBatch) (lora : Row → List V)
    (pass : Pass V) (batch' : InferBatch) : Prop where
  advanced : batch' = batch.advance pass.rows fun row =>
    model.sample row.request_id (lora row) (pass.read row) row.all_input_ids
  cached : Cached model weights pass.memory.buffer batch'
  holds : pass.memory.mem_manager.Holds (batch'.cells ++ others)
  tot_size_eq : pass.memory.mem_manager.tot_size = tot_size
  same : ∀ c ∈ others, pass.memory.buffer c = buffer c
  texts : batch'.sequences.map (·.toText) = batch.sequences.map (·.toText.grow model weights)
  answer : (pass.rows.map fun row =>
      (row.request_id, model.sample row.request_id (lora row) (pass.read row) row.all_input_ids)) =
    batch.sequences.map (·.toText.reply model weights)

variable {lora : Row → List V} {pass : Pass V} {others : List Nat}

theorem flatten_slices_of_shape (h : batch.Shape) {m : List Nat}
    (hLength : m.length = batch.nopad_total_token_num) :
    (batch.rows.flatMap fun row => slice m row.start_loc row.seq_len) = m := by
  have := flatten_slices h.starts (l := m) (by rw [Nat.zero_add, ← h.total_eq, hLength])
  rwa [List.drop_zero, ← List.flatMap_def] at this

theorem prefill_cases (hPass : self.prefill model batch lora = some pass) :
    ∃ m, self.memory.mem_manager.alloc batch.nopad_total_token_num =
        .ok (m, pass.memory.mem_manager) ∧
      pass.rows = batch.init_bloc m ∧
      pass.read = (fun row => model.cache_of (lora row)
        (slice (batch.rows.flatMap (·.input_ids)) row.start_loc row.seq_len)) ∧
      pass.memory.buffer = write self.memory.buffer
        (batch.rows.flatMap fun row => slice m row.start_loc row.seq_len)
        (batch.rows.flatMap pass.read) := by
  obtain ⟨⟨m, mem_manager⟩, hAlloc, rfl⟩ := Option.map_eq_some_iff.mp hPass
  cases hResult : self.memory.mem_manager.alloc batch.nopad_total_token_num with
  | error message => simp [hResult, Except.toOption] at hAlloc
  | ok result =>
      obtain rfl : result = (m, mem_manager) := by simpa [hResult, Except.toOption] using hAlloc
      exact ⟨m, rfl, rfl, rfl, rfl⟩

/-- The prompts are read from the input as they are. -/
theorem slice_inputs (h : batch.Shape) (hPrefilled : batch.prefilled = false) :
    ∀ row ∈ batch.rows,
      slice (batch.rows.flatMap (·.input_ids)) row.start_loc row.seq_len = row.all_input_ids := by
  have hInputs : ∀ row ∈ batch.rows, row.input_ids = row.all_input_ids := by
    intro row hRow
    simpa [hPrefilled] using h.inputs row hRow
  have hLengths : batch.rows.map (·.seq_len) =
      (batch.rows.map (·.input_ids)).map List.length := by
    rw [List.map_map]
    refine List.map_congr_left fun row hRow => ?_
    rw [Function.comp_apply, hInputs row hRow, h.seq_len row hRow]
  have := map_slice_flatten h.starts hLengths
  rw [← List.flatMap_def] at this
  intro row hRow
  rw [List.map_inj_left.mp this row hRow, hInputs row hRow]

/-- The prompts are run, each in the cells that it is dealt. -/
theorem prefill_spec (hCached : Cached model weights self.memory.buffer batch)
    (hPrefilled : batch.prefilled = false)
    (hLora : ∀ row : Row, row.adapter_dir ∈ batch.rows.map (·.adapter_dir) →
      lora row = weights_of weights row.adapter_dir)
    (hHolds : self.memory.mem_manager.Holds (batch.cells ++ others))
    (hPass : self.prefill model batch lora = some pass) :
    ∃ batch', Passed model weights self.memory.mem_manager.tot_size others self.memory.buffer batch
      lora pass batch' := by
  have h := hCached.toShape
  have hNone : batch.cells = [] := by simp [InferBatch.cells, hPrefilled]
  rw [hNone, List.nil_append] at hHolds
  obtain ⟨m, hAlloc, hRows, hRead, hBuffer⟩ := prefill_cases hPass
  obtain ⟨hHolds', hLength, hTot⟩ := hHolds.alloc hAlloc
  obtain ⟨hNodup, -, hApart⟩ := List.nodup_append'.mp hHolds'.nodup
  have hSlices := flatten_slices_of_shape h hLength
  have hPlain : ∀ row ∈ batch.rows, ∀ start_index,
      pass.read (batch.deal m start_index row) =
        model.cache_of (weights_of weights row.adapter_dir) row.all_input_ids := by
    intro row hRow start_index
    have hDir := List.mem_map_of_mem (f := Row.adapter_dir) hRow
    rw [hRead]
    simp only
    rw [hLora (batch.deal m start_index row) hDir]
    exact congrArg _ (slice_inputs h hPrefilled row hRow)
  have hCells : ∀ row ∈ batch.rows, (slice m row.start_loc row.seq_len).map pass.memory.buffer =
      model.cache_of (weights_of weights row.adapter_dir) row.all_input_ids := by
    intro row hRow
    have hSame : ∀ row ∈ batch.rows, pass.read row =
        model.cache_of (weights_of weights row.adapter_dir) row.all_input_ids := by
      intro row hRow
      rw [hRead]
      simp only
      rw [hLora row (List.mem_map_of_mem (f := Row.adapter_dir) hRow),
        slice_inputs h hPrefilled row hRow]
    rw [hBuffer, ← hSame row hRow]
    refine map_write_flatMap (fun row => slice m row.start_loc row.seq_len) ?_
      (fun row hRow => ?_) row hRow
    · rwa [hSlices]
    · have hEnd := end_le h.starts row hRow
      rw [Nat.zero_add, ← h.total_eq, ← hLength] at hEnd
      rw [hSame row hRow, Model.length_cache_of, h.seq_len row hRow, slice, List.length_take,
        List.length_drop]
      omega
  have hNext : ∀ row ∈ batch.rows, ∀ start_index,
      model.sample row.request_id (lora (batch.deal m start_index row))
        (pass.read (batch.deal m start_index row)) row.all_input_ids =
          model.next row.request_id (weights_of weights row.adapter_dir) row.all_input_ids := by
    intro row hRow start_index
    have hDir := List.mem_map_of_mem (f := Row.adapter_dir) hRow
    rw [hPlain row hRow, hLora (batch.deal m start_index row) hDir]
    rfl
  have hSequences := h.sequences_prefill hLength fun row =>
    model.sample row.request_id (lora row) (pass.read row) row.all_input_ids
  rw [← hRows] at hSequences
  refine ⟨_, rfl, ⟨h.advance (hRows ▸ h.sameLists_init_bloc m) _, ?_, ?_⟩, ?_, hTot, ?_, ?_, ?_⟩
  · rw [hSequences]
    intro seq hSeq
    obtain ⟨row, hRow, rfl⟩ := List.mem_map.mp hSeq
    exact hCached.named_row hRow
  · rw [hSequences]
    intro _ seq hSeq
    obtain ⟨row, hRow, rfl⟩ := List.mem_map.mp hSeq
    simpa using hCells row hRow
  · rw [InferBatch.cells_eq, hSequences, List.flatMap_map, hSlices]
    exact hHolds'
  · intro c hc
    rw [hBuffer]
    refine write_of_notMem fun hMem => ?_
    rw [hSlices] at hMem
    exact hApart hMem hc
  · rw [hSequences, List.map_map, InferBatch.sequences, List.map_map]
    refine List.map_congr_left fun row hRow => ?_
    exact congrArg (fun t => Text.mk row.request_id row.adapter_dir (row.all_input_ids ++ [t]))
      (hNext row hRow row.start_loc)
  · rw [hRows, h.init_bloc, List.map_map, InferBatch.sequences, List.map_map]
    exact List.map_congr_left fun row hRow =>
      congrArg (Prod.mk row.request_id) (hNext row hRow row.start_loc)

theorem decode_alloc_spec {mem_manager mem_manager' : MemoryAllocator} {batch_size : Nat}
    {decode_mem_index : List Nat} (hHolds : mem_manager.Holds others) (hSize : 0 < batch_size)
    (hAlloc : decode_alloc mem_manager batch_size = some (decode_mem_index, mem_manager')) :
    mem_manager'.Holds (decode_mem_index ++ others) ∧ decode_mem_index.length = batch_size ∧
      mem_manager'.tot_size = mem_manager.tot_size := by
  unfold decode_alloc at hAlloc
  split at hAlloc
  · cases hAlloc
  · rename_i index start stop pool hContiguous
    obtain ⟨rfl, rfl⟩ := Prod.mk.inj (Option.some.inj hAlloc)
    obtain ⟨hHolds', rfl, -, hTot⟩ := hHolds.alloc_contiguous hSize hContiguous
    exact ⟨hHolds', List.length_range', hTot⟩
  · rename_i pool hNone
    obtain rfl := MemoryAllocator.Holds.alloc_contiguous_none hNone
    cases hResult : pool.alloc batch_size with
    | error message => simp [hResult, Except.toOption] at hAlloc
    | ok result =>
        obtain rfl : result = (decode_mem_index, mem_manager') := by
          simpa [hResult, Except.toOption] using hAlloc
        exact hHolds.alloc hResult

/-- A cell for every request is to be had if there are enough. -/
theorem decode_alloc_ok {mem_manager : MemoryAllocator} {batch_size : Nat}
    (hHolds : mem_manager.Holds others)
    (hRoom : batch_size + others.length ≤ mem_manager.tot_size) :
    ∃ result, decode_alloc mem_manager batch_size = some result := by
  have hEnough : ¬mem_manager.can_use_mem_size < batch_size := by
    have := hHolds.size_eq
    omega
  unfold decode_alloc MemoryAllocator.alloc_contiguous
  rw [if_neg hEnough]
  split
  · rename_i hSplit
    split at hSplit <;> cases hSplit
  · exact ⟨_, rfl⟩
  · rename_i pool hSplit
    split at hSplit
    · obtain ⟨-, rfl⟩ := Prod.mk.inj (Except.ok.inj hSplit)
      obtain ⟨result, hAlloc⟩ := hHolds.alloc_ok_iff.mpr hRoom
      exact ⟨result, by rw [hAlloc]; rfl⟩
    · cases hSplit

theorem decode_cases (hPass : self.decode model batch lora = some pass) :
    ∃ m, decode_alloc self.memory.mem_manager batch.rows.length =
        some (m, pass.memory.mem_manager) ∧
      pass.rows = List.zipWith batch.add_cell m batch.rows ∧
      pass.read = (fun row => (row.all_cells batch.nopad_max_len_in_batch).map
        pass.memory.buffer) ∧
      pass.memory.buffer = write self.memory.buffer m
        (pass.rows.map fun row => model.kv (lora row)
          ((row.cells batch.nopad_max_len_in_batch).map self.memory.buffer)
            (row.input_ids.headD 0)) := by
  obtain ⟨⟨m, mem_manager⟩, hAlloc, rfl⟩ := Option.map_eq_some_iff.mp hPass
  exact ⟨m, hAlloc, rfl, rfl, rfl⟩

/-- The input of a request that goes on is its last token. -/
theorem last_input (h : batch.Shape) (hPrefilled : batch.prefilled = true) {row : Row}
    (hRow : row ∈ batch.rows) :
    row.all_input_ids = row.all_input_ids.dropLast ++ [row.input_ids.headD 0] := by
  have hInputs := h.inputs row hRow
  have hLength := h.seq_len row hRow
  have hSome : row.all_input_ids ≠ [] := List.length_pos_iff.mp (hLength ▸ h.nonempty row hRow)
  rw [hPrefilled, if_pos rfl, ← hLength, List.drop_length_sub_one hSome] at hInputs
  rw [hInputs]
  exact (List.dropLast_append_getLast hSome).symm

/-- Every request is run one token further, through its cells. -/
theorem decode_spec (hCached : Cached model weights self.memory.buffer batch)
    (hPrefilled : batch.prefilled = true)
    (hLora : ∀ row : Row, row.adapter_dir ∈ batch.rows.map (·.adapter_dir) →
      lora row = weights_of weights row.adapter_dir)
    (hHolds : self.memory.mem_manager.Holds (batch.cells ++ others))
    (hPass : self.decode model batch lora = some pass) :
    ∃ batch', Passed model weights self.memory.mem_manager.tot_size others self.memory.buffer batch
      lora pass batch' := by
  have h := hCached.toShape
  obtain ⟨m, hAlloc, hRows, hRead, hBuffer⟩ := decode_cases hPass
  obtain ⟨hHolds', hLength, hTot⟩ :=
    decode_alloc_spec hHolds (List.length_pos_iff.mpr h.some_row) hAlloc
  obtain ⟨hNodup, -, hApart⟩ := List.nodup_append'.mp hHolds'.nodup
  have hFirst : (m.zip batch.rows).map (·.1) = m := List.map_fst_zip hLength.le
  have hSecond : (m.zip batch.rows).map (·.2) = batch.rows := List.map_snd_zip hLength.ge
  have hSequences := h.sequences_decode hLength fun row =>
    model.sample row.request_id (lora row) (pass.read row) row.all_input_ids
  rw [← hRows] at hSequences
  have hZip : pass.rows = (m.zip batch.rows).map fun p => batch.add_cell p.1 p.2 := by
    rw [hRows]
    exact (List.map_zip_eq_zipWith (f := fun p => batch.add_cell p.1 p.2)).symm
  generalize m.zip batch.rows = pairs at hFirst hSecond hSequences hZip
  have hMem : ∀ p ∈ pairs, p.2 ∈ batch.rows := fun p hp => hSecond ▸ List.mem_map_of_mem hp
  have hLoraOf : ∀ p ∈ pairs, lora (batch.add_cell p.1 p.2) =
      weights_of weights p.2.adapter_dir := by
    intro p hp
    have hDir := List.mem_map_of_mem (f := Row.adapter_dir) (hMem p hp)
    exact hLora (batch.add_cell p.1 p.2) hDir
  have hOld : ∀ row ∈ batch.rows, (row.cells batch.nopad_max_len_in_batch).map self.memory.buffer =
      model.cache_of (weights_of weights row.adapter_dir) row.all_input_ids.dropLast := by
    intro row hRow
    have := hCached.content hPrefilled _ (List.mem_map_of_mem hRow)
    simpa [Row.sequence, hPrefilled] using this
  have hCells : ∀ p ∈ pairs,
      (p.2.cells batch.nopad_max_len_in_batch ++ [p.1]).map pass.memory.buffer =
        model.cache_of (weights_of weights p.2.adapter_dir) p.2.all_input_ids := by
    intro p hp
    have hRow := hMem p hp
    have hLe : p.2.seq_len ≤ batch.nopad_max_len_in_batch :=
      h.max_eq ▸ InferBatch.seq_len_le_max hRow
    have hNew : pass.memory.buffer p.1 = model.kv (weights_of weights p.2.adapter_dir)
        (model.cache_of (weights_of weights p.2.adapter_dir) p.2.all_input_ids.dropLast)
          (p.2.input_ids.headD 0) := by
      rw [hBuffer, hZip, ← hFirst, List.map_map]
      refine (write_map (fun p => p.1) (hFirst.symm ▸ hNodup) p hp).trans ?_
      rw [Function.comp_apply, hLoraOf p hp,
        InferBatch.cells_add_cell hLe (h.nonempty _ hRow), hOld _ hRow]
      rfl
    have hSame : (p.2.cells batch.nopad_max_len_in_batch).map pass.memory.buffer =
        (p.2.cells batch.nopad_max_len_in_batch).map self.memory.buffer := by
      rw [hBuffer]
      refine map_write_of_disjoint fun c hc hNewCell => hApart hNewCell ?_
      refine List.mem_append_left _ ?_
      rw [InferBatch.cells, hPrefilled, if_pos rfl]
      exact List.mem_flatMap.mpr ⟨p.2, hRow, hc⟩
    rw [List.map_append, hSame, hOld _ hRow, List.map_singleton, hNew, ← Model.cache_of_append,
      ← last_input h hPrefilled hRow]
  have hNext : ∀ p ∈ pairs, model.sample p.2.request_id (lora (batch.add_cell p.1 p.2))
      (pass.read (batch.add_cell p.1 p.2)) p.2.all_input_ids =
        model.next p.2.request_id (weights_of weights p.2.adapter_dir) p.2.all_input_ids := by
    intro p hp
    have hRow := hMem p hp
    have hLe : p.2.seq_len ≤ batch.nopad_max_len_in_batch :=
      h.max_eq ▸ InferBatch.seq_len_le_max hRow
    rw [hLoraOf p hp, hRead]
    simp only
    rw [InferBatch.all_cells_add_cell hLe (h.nonempty _ hRow), hCells p hp]
    rfl
  refine ⟨_, rfl, ⟨h.advance (hRows ▸ InferBatch.sameLists_add_cell hLength) _, ?_, ?_⟩, ?_, hTot,
    ?_, ?_, ?_⟩
  · rw [hSequences]
    intro seq hSeq
    obtain ⟨p, hp, rfl⟩ := List.mem_map.mp hSeq
    exact hCached.named_row (hMem p hp)
  · rw [hSequences]
    intro _ seq hSeq
    obtain ⟨p, hp, rfl⟩ := List.mem_map.mp hSeq
    simpa using hCells p hp
  · have hPerm : ((pairs.flatMap fun p => p.2.cells batch.nopad_max_len_in_batch ++ [p.1])).Perm
        (m ++ batch.cells) := by
      have hCellsOf : batch.cells =
          pairs.flatMap fun p => p.2.cells batch.nopad_max_len_in_batch := by
        rw [InferBatch.cells, hPrefilled, if_pos rfl, InferBatch.row_cells, ← hSecond,
          List.flatMap_map]
      rw [hCellsOf, ← hFirst, List.map_eq_flatMap]
      exact (List.flatMap_append_perm ..).symm.trans List.perm_append_comm
    rw [InferBatch.cells_eq, hSequences, List.flatMap_map]
    refine hHolds'.perm ?_
    rw [← List.append_assoc]
    exact hPerm.symm.append_right _
  · intro c hc
    rw [hBuffer]
    exact write_of_notMem fun hNewCell => hApart hNewCell (List.mem_append_right _ hc)
  · rw [hSequences, List.map_map, InferBatch.sequences, ← hSecond, List.map_map, List.map_map]
    refine List.map_congr_left fun p hp => ?_
    exact congrArg (fun t => Text.mk p.2.request_id p.2.adapter_dir (p.2.all_input_ids ++ [t]))
      (hNext p hp)
  · rw [hZip, List.map_map, InferBatch.sequences, ← hSecond, List.map_map, List.map_map]
    exact List.map_congr_left fun p hp => congrArg (Prod.mk p.2.request_id) (hNext p hp)

end ModelRpcServer

end Slora
