import Mathlib.Data.List.Lattice
import Mathlib.Order.Lattice
import SwarmLoRA.Data.Segments
import SwarmLoRA.Slora.Request

namespace Slora

open Data Segments

/-- What is known of one request: an entry of each of the lists of a batch, and its row of the
table. -/
structure Row where
  request_id : String
  adapter_dir : Option String
  all_input_ids : List Token
  input_ids : List Token
  seq_len : Nat
  start_loc : Nat
  b_loc : Nat → Nat

/-- `prefilled` is a history variable: the prompts have been run. -/
structure InferBatch where
  batch_id : Nat
  rows : List Row
  nopad_total_token_num : Nat
  nopad_max_len_in_batch : Nat
  prefilled : Bool

namespace Row

variable (row : Row)

/-- The columns of the tokens that have been run, in a table of this width. -/
def columns (max_len : Nat) : List Nat :=
  let first := (max_len - 1) - (row.seq_len - 1)
  List.range' first ((max_len - 1) - first)

/-- The cells of the tokens that have been run. -/
def cells (max_len : Nat) : List Nat := (row.columns max_len).map row.b_loc

/-- The cells of all the tokens. -/
def all_cells (max_len : Nat) : List Nat :=
  (List.range' (max_len - row.seq_len) row.seq_len).map row.b_loc

/-- What a forward pass changes: a token is added, and the row moves on. -/
def advance (next_token_id : Token) (i : Nat) : Row :=
  { row with
    all_input_ids := row.all_input_ids ++ [next_token_id]
    input_ids := [next_token_id]
    seq_len := row.seq_len + 1
    start_loc := row.start_loc + i }

end Row

namespace InferBatch

/-- The rows with their places in the input. -/
def with_starts (rows : List Row) : List Row :=
  (rows.zip (starts 0 (rows.map (·.seq_len)))).map fun (row, start_loc) => { row with start_loc }

/-- The greatest length of a request. -/
def max_len (rows : List Row) : Nat := (rows.map (·.seq_len)).foldr max 0

/-- The row of a request that is sent to the worker. Nothing is in the table yet. -/
def init_row (req : Req) : Row :=
  ⟨req.request_id, req.adapter_dir, req.prompt_ids, req.prompt_ids, req.prompt_ids.length, 0,
    fun _ => 0⟩

/-- `init_batch`. Some request there must be. -/
def init_batch (batch_id : Nat) (requests : List Req) : Option InferBatch :=
  if requests = [] then none
  else
    let rows := requests.map init_row
    some ⟨batch_id, with_starts rows, (rows.map (·.seq_len)).sum, max_len rows, false⟩

section

variable (batch : InferBatch)

/-- The cells of the rows. -/
def row_cells (rows : List Row) : List Nat :=
  rows.flatMap fun row => row.cells batch.nopad_max_len_in_batch

/-- The cells that the batch has in the pool, which are those that `free_self` gives back. -/
def cells : List Nat := if batch.prefilled then batch.row_cells batch.rows else []

/-- The row in a narrower table, cut at the left. -/
def cut (new_max_len : Nat) (row : Row) : Row :=
  { row with
    b_loc := fun j => if j < new_max_len - 1
      then row.b_loc ((batch.nopad_max_len_in_batch - 1) - (new_max_len - 1) + j) else 0 }

/-- `filter`, with the cells that it gives back. A batch must keep some request, and those it keeps
must be there. -/
def filter (request_ids : List String) : Option (InferBatch × List Nat) :=
  if request_ids = [] then none
  else if request_ids.length = batch.rows.length then some (batch, [])
  else
    (request_ids.mapM fun request_id => batch.rows.find? (·.request_id == request_id)).map
      fun rows =>
        let removed := batch.rows.filter fun row => !decide (row.request_id ∈ request_ids)
        ({ batch with
            rows := with_starts (rows.map (batch.cut (max_len rows)))
            nopad_total_token_num := (rows.map (·.seq_len)).sum
            nopad_max_len_in_batch := max_len rows },
          batch.row_cells removed)

/-- A row in a wider table, moved to the right, and with a place of its own in the last column that
the next pass overwrites. -/
def widen (new_max_len start_loc last : Nat) (row : Row) : Row :=
  let shift := new_max_len - batch.nopad_max_len_in_batch
  { row with
    start_loc := row.start_loc + start_loc
    b_loc := fun j => if j = new_max_len - 1 then last
      else if shift ≤ j then row.b_loc (j - shift) else 0 }

/-- The end of the last row in the input. -/
def end_loc : Nat := (batch.rows.getLast?.map fun row => row.start_loc + row.seq_len).getD 0

/-- The requests of both batches, in the wider of the two tables. -/
def merge (batch1 batch2 : InferBatch) : InferBatch :=
  let max_len := max batch1.nopad_max_len_in_batch batch2.nopad_max_len_in_batch
  let total := batch1.nopad_total_token_num + batch2.nopad_total_token_num
  let size := batch1.rows.length + batch2.rows.length
  { batch_id := batch1.batch_id
    rows := batch1.rows.mapIdx (fun i => batch1.widen max_len 0 (total - size + i)) ++
      batch2.rows.mapIdx fun i =>
        batch2.widen max_len batch1.end_loc (total - size + (batch1.rows.length + i))
    nopad_total_token_num := total
    nopad_max_len_in_batch := max_len
    prefilled := batch1.prefilled && batch2.prefilled }

/-- The row gets its part of the new cells. -/
def deal (alloc_mem_index : List Nat) (start_index : Nat) (row : Row) : Row :=
  let first := batch.nopad_max_len_in_batch - row.seq_len
  { row with
    b_loc := fun j => if first ≤ j ∧ j < batch.nopad_max_len_in_batch
      then alloc_mem_index.getD (start_index + (j - first)) 0 else row.b_loc j }

/-- The rows get their parts of the new cells one after the other. -/
def init_bloc (alloc_mem_index : List Nat) : List Row :=
  (batch.rows.zip (starts 0 (batch.rows.map (·.seq_len)))).map fun (row, start_index) =>
    batch.deal alloc_mem_index start_index row

/-- The row gets the new cell in the last column. -/
def add_cell (mem_index : Nat) (row : Row) : Row :=
  { row with b_loc := Function.update row.b_loc (batch.nopad_max_len_in_batch - 1) mem_index }

/-- What a forward pass leaves of the batch. -/
def advance (rows : List Row) (next_token_id : Row → Token) : InferBatch :=
  { batch with
    rows := rows.mapIdx fun i row => row.advance (next_token_id row) i
    nopad_total_token_num := batch.nopad_total_token_num + rows.length
    nopad_max_len_in_batch := batch.nopad_max_len_in_batch + 1
    prefilled := true }

end

end InferBatch

/-- A request as it stands: its prompt and what has been added to it. -/
structure Text where
  request_id : String
  adapter_dir : Option String
  tokens : List Token

/-- A request of a batch, with the cells of the tokens that have been run. -/
structure Sequence extends Text where
  cells : List Nat

/-- What a row is in a table of this width. -/
def Row.sequence (max_len : Nat) (prefilled : Bool) (row : Row) : Sequence :=
  ⟨⟨row.request_id, row.adapter_dir, row.all_input_ids⟩,
    if prefilled then row.cells max_len else []⟩

namespace InferBatch

/-- The batch without its table. -/
def sequences (batch : InferBatch) : List Sequence :=
  batch.rows.map (·.sequence batch.nopad_max_len_in_batch batch.prefilled)

/-- The lists of the batch fit together: one row for each request, with starts and totals as their
lengths say, and the last token as input once the prompts have been run. -/
structure Shape (b : InferBatch) : Prop where
  some_row : b.rows ≠ []
  ids : (b.rows.map (·.request_id)).Nodup
  max_eq : b.nopad_max_len_in_batch = max_len b.rows
  total_eq : b.nopad_total_token_num = (b.rows.map (·.seq_len)).sum
  starts : b.rows.map (·.start_loc) = starts 0 (b.rows.map (·.seq_len))
  seq_len : ∀ row ∈ b.rows, row.all_input_ids.length = row.seq_len
  nonempty : ∀ row ∈ b.rows, 0 < row.seq_len
  inputs : ∀ row ∈ b.rows, row.input_ids =
    if b.prefilled then row.all_input_ids.drop (row.seq_len - 1) else row.all_input_ids

variable {batch batch1 batch2 : InferBatch} {rows : List Row} {row : Row} {n : Nat}

/-- The cells of a batch are those of its sequences. -/
theorem cells_eq : batch.cells = batch.sequences.flatMap (·.cells) := by
  unfold cells sequences row_cells
  rw [List.flatMap_map]
  cases batch.prefilled <;> simp [Row.sequence]

/-! ### Rows and columns -/

/-- No request is longer than the longest. -/
theorem seq_len_le_max (hRow : row ∈ rows) : row.seq_len ≤ max_len rows := by
  unfold max_len
  induction rows with
  | nil => exact absurd hRow List.not_mem_nil
  | cons first rows ih =>
      rw [List.map_cons, List.foldr_cons]
      rcases List.mem_cons.mp hRow with rfl | hRow
      · exact le_max_left _ _
      · exact (ih hRow).trans (le_max_right _ _)

/-- A bound of all lengths is one of the greatest. -/
theorem max_len_le (h : ∀ row ∈ rows, row.seq_len ≤ n) : max_len rows ≤ n := by
  unfold max_len
  induction rows with
  | nil => exact Nat.zero_le n
  | cons first rows ih =>
      exact max_le (h first List.mem_cons_self)
        (ih fun row hRow => h row (List.mem_cons_of_mem _ hRow))

/-- The greatest length of two lots of requests. -/
theorem max_len_append (rows rows' : List Row) :
    max_len (rows ++ rows') = max (max_len rows) (max_len rows') := by
  unfold max_len
  induction rows with
  | nil => simp
  | cons first rows ih =>
      simp only [List.cons_append, List.map_cons, List.foldr_cons, ih, max_assoc]

/-- What the tokens that have been run leave of the columns. -/
theorem columns_eq (hLe : row.seq_len ≤ n) (hPos : 0 < row.seq_len) :
    row.columns n = List.range' (n - row.seq_len) (row.seq_len - 1) := by
  unfold Row.columns
  simp only
  congr 1 <;> omega

/-- Rows that agree in the columns of the tokens that have been run, wherever these are. -/
theorem cells_congr {row' : Row} {n' : Nat} (hLe : row.seq_len ≤ n) (hLe' : row.seq_len ≤ n')
    (hPos : 0 < row.seq_len) (hSame : row'.seq_len = row.seq_len)
    (hLoc : ∀ k < row.seq_len - 1,
      row'.b_loc (n' - row.seq_len + k) = row.b_loc (n - row.seq_len + k)) :
    row'.cells n' = row.cells n := by
  rw [Row.cells, Row.cells, columns_eq hLe hPos, columns_eq (by omega) (by omega), hSame]
  refine List.ext_getElem (by simp) fun k hk _ => ?_
  rw [List.length_map, List.length_range'] at hk
  simpa using hLoc k hk

/-- A request has a cell for every token but the last. -/
theorem length_cells (hLe : row.seq_len ≤ n) (hPos : 0 < row.seq_len) :
    (row.cells n).length = row.seq_len - 1 := by
  rw [Row.cells, columns_eq hLe hPos, List.length_map, List.length_range']

/-- What depends on the element only. -/
theorem map_mapIdx_of {α β γ : Type} {f : Nat → α → β} {g : β → γ} {k : α → γ} {l : List α}
    (h : ∀ i, ∀ a ∈ l, g (f i a) = k a) : (l.mapIdx f).map g = l.map k := by
  refine List.ext_getElem (by simp) fun i hi hi' => ?_
  rw [List.getElem_map, List.getElem_mapIdx, List.getElem_map]
  exact h i _ (List.getElem_mem _)

/-- What does not depend on the places stays. -/
theorem map_with_starts {β : Type} (f : Row → β)
    (hSame : ∀ row start_loc, f { row with start_loc } = f row) (rows : List Row) :
    (with_starts rows).map f = rows.map f := by
  unfold with_starts
  rw [List.map_map]
  have hZip : (rows.zip (starts 0 (rows.map (·.seq_len)))).map (·.1) = rows :=
    List.map_fst_zip (by simp)
  conv_rhs => rw [← hZip, List.map_map]
  exact List.map_congr_left fun p _ => hSame p.1 p.2

/-- The requests start one behind the other. -/
theorem map_start_loc_with_starts (rows : List Row) :
    (with_starts rows).map (·.start_loc) = starts 0 (rows.map (·.seq_len)) := by
  unfold with_starts
  rw [List.map_map]
  exact List.map_snd_zip (by simp)

/-- Only the start is new. -/
theorem of_mem_with_starts (hRow : row ∈ with_starts rows) :
    ∃ old ∈ rows, ∃ start_loc, row = { old with start_loc } := by
  obtain ⟨p, hp, rfl⟩ := List.mem_map.mp hRow
  exact ⟨p.1, (List.of_mem_zip hp).1, p.2, rfl⟩

/-- And no length. -/
theorem max_len_with_starts (rows : List Row) : max_len (with_starts rows) = max_len rows := by
  unfold max_len
  rw [map_with_starts _ fun _ _ => rfl]

/-! ### The operations on the batches without their tables -/

/-- The request as it is sent to the worker. -/
def Sequence.of_req (req : Req) : Sequence :=
  ⟨⟨req.request_id, req.adapter_dir, req.prompt_ids⟩, []⟩

/-- A batch that has been made is in order. -/
theorem Shape.init_batch {batch_id : Nat} {requests : List Req}
    (hInit : init_batch batch_id requests = some batch)
    (hIds : (requests.map (·.request_id)).Nodup)
    (hPrompts : ∀ req ∈ requests, req.prompt_ids ≠ []) :
    batch.Shape ∧ batch.batch_id = batch_id ∧ batch.prefilled = false ∧
      batch.sequences = requests.map Sequence.of_req := by
  unfold InferBatch.init_batch at hInit
  split at hInit
  · cases hInit
  rename_i hSome
  obtain rfl := Option.some.inj hInit
  have hMem : ∀ row ∈ with_starts (requests.map init_row), ∃ req ∈ requests, ∃ start_loc,
      row = { init_row req with start_loc } := by
    intro row hRow
    obtain ⟨old, hOld, start_loc, rfl⟩ := of_mem_with_starts hRow
    obtain ⟨req, hReq, rfl⟩ := List.mem_map.mp hOld
    exact ⟨req, hReq, start_loc, rfl⟩
  refine ⟨⟨?_, ?_, ?_, ?_, ?_, ?_, ?_, ?_⟩, rfl, rfl, ?_⟩
  · intro hNone
    have := map_with_starts (·.request_id) (fun _ _ => rfl) (requests.map init_row)
    simp only at hNone
    rw [hNone] at this
    simp [hSome] at this
  · simp only
    rw [map_with_starts _ fun _ _ => rfl, List.map_map]
    exact hIds
  · exact (max_len_with_starts _).symm
  · simp only
    rw [map_with_starts _ fun _ _ => rfl]
  · simp only
    rw [map_start_loc_with_starts, map_with_starts _ fun _ _ => rfl]
  · intro row hRow
    obtain ⟨req, -, start_loc, rfl⟩ := hMem row hRow
    rfl
  · intro row hRow
    obtain ⟨req, hReq, start_loc, rfl⟩ := hMem row hRow
    exact List.length_pos_iff.mpr (hPrompts req hReq)
  · intro row hRow
    obtain ⟨req, -, start_loc, rfl⟩ := hMem row hRow
    rfl
  · rw [sequences, map_with_starts _ fun _ _ => rfl, List.map_map]
    rfl

/-- Rows that differ in nothing but their parts of the table. -/
def SameLists (rows rows' : List Row) : Prop :=
  rows.map (fun row => { row with b_loc := fun _ => 0 }) =
    rows'.map fun row => { row with b_loc := fun _ => 0 }

/-- What depends on the lists, and not on the table. -/
theorem SameLists.map {rows' : List Row} (h : SameLists rows rows') {β : Type} (f : Row → β)
    (hSame : ∀ row b_loc, f { row with b_loc } = f row) : rows.map f = rows'.map f := by
  have hErase : ∀ l : List Row,
      (l.map fun row => { row with b_loc := fun _ => 0 }).map f = l.map f := by
    intro l
    rw [List.map_map]
    exact List.map_congr_left fun row _ => hSame row _
  rw [← hErase, h, hErase]

/-- The same request with another row of the table. -/
theorem SameLists.mem {rows' : List Row} (h : SameLists rows rows') (hRow : row ∈ rows) :
    ∃ old ∈ rows', ∃ b_loc, row = { old with b_loc } := by
  have : { row with b_loc := fun _ => 0 } ∈
      rows'.map fun row : Row => { row with b_loc := fun _ => 0 } := h ▸ List.mem_map_of_mem hRow
  obtain ⟨old, hOld, hSame⟩ := List.mem_map.mp this
  refine ⟨old, hOld, row.b_loc, ?_⟩
  cases row
  cases old
  simp_all

/-- The requests have as many cells as tokens have been run. -/
theorem Shape.length_cells (h : batch.Shape) (hPrefilled : batch.prefilled = true) :
    ∀ seq ∈ batch.sequences, seq.cells.length + 1 = seq.tokens.length := by
  intro seq hSeq
  obtain ⟨row, hRow, rfl⟩ := List.mem_map.mp hSeq
  have hPos := h.nonempty row hRow
  have hLe : row.seq_len ≤ batch.nopad_max_len_in_batch := h.max_eq ▸ seq_len_le_max hRow
  simp only [Row.sequence, hPrefilled, if_true, InferBatch.length_cells hLe hPos,
    h.seq_len row hRow]
  omega

/-- The tokens of all requests are as many as are counted. -/
theorem Shape.sum_tokens (h : batch.Shape) :
    (batch.sequences.map (·.tokens.length)).sum = batch.nopad_total_token_num := by
  rw [h.total_eq, sequences, List.map_map]
  exact congrArg List.sum (List.map_congr_left fun row hRow => h.seq_len row hRow)

/-- Every length grows by one, and so does the greatest. -/
theorem foldr_max_succ {lengths : List Nat} (hSome : lengths ≠ []) :
    (lengths.map (· + 1)).foldr max 0 = lengths.foldr max 0 + 1 := by
  induction lengths with
  | nil => exact absurd rfl hSome
  | cons length lengths ih =>
      rcases lengths with _ | ⟨next, lengths⟩
      · simp
      · have := ih (List.cons_ne_nil _ _)
        simp only [List.map_cons, List.foldr_cons] at this ⊢
        omega

/-- What a pass does to the lists, whatever it does to the table. -/
theorem Shape.advance (h : batch.Shape) (hRows : SameLists rows batch.rows)
    (next_token_id : Row → Token) : (batch.advance rows next_token_id).Shape := by
  have hLength : rows.length = batch.rows.length := by simpa using congrArg List.length hRows
  have hSeq : (batch.advance rows next_token_id).rows.map (·.seq_len) =
      (batch.rows.map (·.seq_len)).map (· + 1) := by
    rw [← hRows.map (·.seq_len) fun _ _ => rfl, List.map_map]
    exact map_mapIdx_of fun _ _ _ => rfl
  have hMem : ∀ row ∈ (batch.advance rows next_token_id).rows, ∃ old ∈ batch.rows, ∃ i b_loc next,
      row = { old with b_loc }.advance next i := by
    intro row hRow
    obtain ⟨i, hi, rfl⟩ := List.mem_mapIdx.mp hRow
    obtain ⟨old, hOld, b_loc, hSame⟩ := hRows.mem (List.getElem_mem hi)
    exact ⟨old, hOld, i, b_loc, next_token_id rows[i], by rw [← hSame]⟩
  refine ⟨?_, ?_, ?_, ?_, ?_, ?_, ?_, ?_⟩
  · intro hNone
    have := congrArg List.length hNone
    simp only [InferBatch.advance, List.length_mapIdx, hLength] at this
    exact h.some_row (List.length_eq_zero_iff.mp this)
  · have : (batch.advance rows next_token_id).rows.map (·.request_id) =
        batch.rows.map (·.request_id) := by
      rw [← hRows.map (·.request_id) fun _ _ => rfl]
      exact map_mapIdx_of fun _ _ _ => rfl
    rw [this]
    exact h.ids
  · rw [max_len, hSeq, foldr_max_succ (by simpa using h.some_row)]
    exact congrArg (· + 1) h.max_eq
  · rw [hSeq, sum_map_succ, List.length_map]
    exact congrArg₂ (· + ·) h.total_eq hLength
  · have : (batch.advance rows next_token_id).rows.map (·.start_loc) =
        (rows.map (·.start_loc)).mapIdx fun i start => start + i :=
      List.ext_getElem (by simp [InferBatch.advance]) fun i hi hi' => by
        simp [InferBatch.advance, Row.advance]
    rw [this, hRows.map (·.start_loc) fun _ _ => rfl, h.starts, hSeq]
    exact mapIdx_starts 0 _
  · intro row hRow
    obtain ⟨old, hOld, i, b_loc, next, rfl⟩ := hMem row hRow
    simp [Row.advance, h.seq_len old hOld]
  · intro row hRow
    obtain ⟨old, hOld, i, b_loc, next, rfl⟩ := hMem row hRow
    exact Nat.succ_pos _
  · intro row hRow
    obtain ⟨old, hOld, i, b_loc, next, rfl⟩ := hMem row hRow
    simp [Row.advance, InferBatch.advance, ← h.seq_len old hOld]

/-- The table gives each request the cells that are dealt to it. -/
theorem Shape.init_bloc (h : batch.Shape) (alloc_mem_index : List Nat) :
    batch.init_bloc alloc_mem_index =
      batch.rows.map fun row => batch.deal alloc_mem_index row.start_loc row := by
  unfold InferBatch.init_bloc
  rw [← h.starts]
  generalize batch.rows = rows
  induction rows with
  | nil => rfl
  | cons row rows ih => simp [ih]

/-- The lists are as before. -/
theorem Shape.sameLists_init_bloc (h : batch.Shape) (alloc_mem_index : List Nat) :
    SameLists (batch.init_bloc alloc_mem_index) batch.rows := by
  rw [SameLists, h.init_bloc, List.map_map]
  rfl

/-- A new cell for each request changes the table only. -/
theorem sameLists_add_cell {mem_index : List Nat} (hLength : mem_index.length = batch.rows.length) :
    SameLists (List.zipWith batch.add_cell mem_index batch.rows) batch.rows := by
  refine List.ext_getElem (by simp [hLength]) fun i hi hi' => ?_
  simp [add_cell]

/-- The cells that are dealt to a request. -/
theorem all_cells_deal (hLe : row.seq_len ≤ batch.nopad_max_len_in_batch)
    {alloc_mem_index : List Nat} {start_index : Nat}
    (hEnd : start_index + row.seq_len ≤ alloc_mem_index.length) :
    (batch.deal alloc_mem_index start_index row).all_cells batch.nopad_max_len_in_batch =
      slice alloc_mem_index start_index row.seq_len := by
  rw [slice_eq_map _ _ _ 0 hEnd, Row.all_cells]
  refine List.ext_getElem (by simp [deal]) fun k hk hk' => ?_
  simp only [deal, List.length_map, List.length_range'] at hk
  simp only [List.getElem_map, List.getElem_range', List.getElem_range, deal]
  rw [if_pos (by omega)]
  congr 1
  omega

/-- The cells of all the tokens, the one that has just been added included. -/
theorem all_cells_add_cell (hLe : row.seq_len ≤ batch.nopad_max_len_in_batch)
    (hPos : 0 < row.seq_len) (c : Nat) :
    (batch.add_cell c row).all_cells batch.nopad_max_len_in_batch =
      row.cells batch.nopad_max_len_in_batch ++ [c] := by
  rw [Row.all_cells, Row.cells, columns_eq hLe hPos]
  obtain ⟨k, hk⟩ : ∃ k, row.seq_len = k + 1 := ⟨row.seq_len - 1, by omega⟩
  have hLast : batch.nopad_max_len_in_batch - row.seq_len + k =
      batch.nopad_max_len_in_batch - 1 := by omega
  simp only [add_cell]
  rw [show row.seq_len - 1 = k by omega, show row.seq_len = k + 1 from hk, List.range'_concat,
    List.map_append, ← hk, Nat.one_mul, hLast]
  congr 1
  · refine List.map_congr_left fun j hj => Function.update_of_ne ?_ _ _
    have := List.mem_range'_1.mp hj
    omega
  · simp

/-- The new cell is not yet one of the sequence. -/
theorem cells_add_cell (hLe : row.seq_len ≤ batch.nopad_max_len_in_batch)
    (hPos : 0 < row.seq_len) (c : Nat) :
    (batch.add_cell c row).cells batch.nopad_max_len_in_batch =
      row.cells batch.nopad_max_len_in_batch := by
  refine cells_congr hLe hLe hPos rfl fun k hk => Function.update_of_ne ?_ _ _
  omega

/-- The row that has moved on takes all its cells along. -/
theorem cells_advance (row : Row) (next_token_id : Token) (i n : Nat) (hLe : row.seq_len ≤ n) :
    (row.advance next_token_id i).cells (n + 1) = row.all_cells n := by
  rw [Row.cells, columns_eq (by simpa [Row.advance] using hLe) (by simp [Row.advance]),
    Row.all_cells]
  simp [Row.advance]

/-- The cells that the prompts are run in are dealt out in the order of the input. -/
theorem Shape.sequences_prefill (h : batch.Shape) {alloc_mem_index : List Nat}
    (hLength : alloc_mem_index.length = batch.nopad_total_token_num)
    (next_token_id : Row → Token) :
    (batch.advance (batch.init_bloc alloc_mem_index) next_token_id).sequences =
      batch.rows.map fun row => ⟨⟨row.request_id, row.adapter_dir,
        row.all_input_ids ++ [next_token_id (batch.deal alloc_mem_index row.start_loc row)]⟩,
        slice alloc_mem_index row.start_loc row.seq_len⟩ := by
  rw [sequences, h.init_bloc]
  unfold InferBatch.advance
  rw [map_mapIdx_of (k := fun row => Sequence.mk ⟨row.request_id, row.adapter_dir,
    row.all_input_ids ++ [next_token_id row]⟩
      ((row.advance (next_token_id row) 0).cells (batch.nopad_max_len_in_batch + 1)))
    fun _ _ _ => rfl, List.map_map]
  refine List.map_congr_left fun row hRow => ?_
  have hLe : row.seq_len ≤ batch.nopad_max_len_in_batch := h.max_eq ▸ seq_len_le_max hRow
  have hEnd := end_le h.starts row hRow
  rw [Nat.zero_add, ← h.total_eq, ← hLength] at hEnd
  refine congrArg (Sequence.mk _) ?_
  rw [cells_advance (batch.deal _ _ row) _ _ _ hLe, all_cells_deal hLe hEnd]

/-- Every request gets one more cell. -/
theorem Shape.sequences_decode (h : batch.Shape) {mem_index : List Nat}
    (hLength : mem_index.length = batch.rows.length) (next_token_id : Row → Token) :
    (batch.advance (List.zipWith batch.add_cell mem_index batch.rows) next_token_id).sequences =
      (mem_index.zip batch.rows).map fun p => ⟨⟨p.2.request_id, p.2.adapter_dir,
        p.2.all_input_ids ++ [next_token_id (batch.add_cell p.1 p.2)]⟩,
        p.2.cells batch.nopad_max_len_in_batch ++ [p.1]⟩ := by
  unfold sequences InferBatch.advance
  refine List.ext_getElem (by simp) fun i hi hi' => ?_
  have hLt : i < batch.rows.length := by simpa [hLength] using hi
  have hRow := List.getElem_mem hLt
  simp only [List.getElem_map, List.getElem_mapIdx, List.getElem_zipWith, List.getElem_zip,
    Row.sequence, if_true]
  generalize batch.rows[i] = row at hRow
  have hLe : row.seq_len ≤ batch.nopad_max_len_in_batch := h.max_eq ▸ seq_len_le_max hRow
  refine congrArg (Sequence.mk _) ?_
  rw [cells_advance (batch.add_cell _ row) _ _ _ hLe,
    all_cells_add_cell hLe (h.nonempty row hRow)]

/-- Filtering by a sublist gives the sublist. -/
theorem filter_mem_of_sublist {α : Type} [DecidableEq α] {l l' : List α} (hSub : l.Sublist l')
    (hNodup : l'.Nodup) : l'.filter (fun a => decide (a ∈ l)) = l := by
  induction hSub with
  | slnil => rfl
  | @cons l l' a hSub ih =>
      obtain ⟨hNot, hRest⟩ := List.nodup_cons.mp hNodup
      have : a ∉ l := fun ha => hNot (hSub.subset ha)
      simp [this, ih hRest]
  | @cons_cons l l' a hSub ih =>
      obtain ⟨hNot, hRest⟩ := List.nodup_cons.mp hNodup
      rw [List.filter_cons_of_pos (by simp)]
      refine congrArg (a :: ·) (Eq.trans (List.filter_congr fun b hb => ?_) (ih hRest))
      have : b ≠ a := fun hSame => hNot (hSame ▸ hb)
      simp [this]

/-- A request is found by its id. -/
theorem find_of_mem (hNodup : (rows.map (·.request_id)).Nodup) (hRow : row ∈ rows) :
    rows.find? (·.request_id == row.request_id) = some row := by
  induction rows with
  | nil => exact absurd hRow List.not_mem_nil
  | cons first rows ih =>
      obtain ⟨hNot, hRest⟩ := List.nodup_cons.mp hNodup
      rcases List.mem_cons.mp hRow with rfl | hRow
      · simp
      · have : first.request_id ≠ row.request_id := by
          intro hSame
          exact hNot (List.mem_map.mpr ⟨row, hRow, hSame.symm⟩)
        simp [this, ih hRest hRow]

/-- The requests that are kept, in their order. -/
theorem map_kept {ids : List String} (hSub : ids.Sublist (rows.map (·.request_id)))
    (hNodup : (rows.map (·.request_id)).Nodup) :
    ((rows.filter fun row => decide (row.request_id ∈ ids)).map (·.request_id)) = ids := by
  have := filter_mem_of_sublist hSub hNodup
  rwa [List.filter_map] at this

/-- Requests that are looked up one by one are those that are kept, if they are asked for in the
order in which they lie. -/
theorem mapM_find_of_sublist {ids : List String} (hSub : ids.Sublist (rows.map (·.request_id)))
    (hNodup : (rows.map (·.request_id)).Nodup) :
    (ids.mapM fun request_id => rows.find? (·.request_id == request_id)) =
      some (rows.filter fun row => decide (row.request_id ∈ ids)) := by
  have hKept := map_kept hSub hNodup
  conv_lhs => rw [← hKept]
  rw [List.mapM_map]
  generalize hSame : (rows.filter fun row => decide (row.request_id ∈ ids)) = kept
  have hMem : kept ⊆ rows := hSame ▸ List.filter_sublist.subset
  clear hSame hKept hSub
  induction kept with
  | nil => rfl
  | cons row kept ih =>
      rw [List.mapM_cons, Function.comp_apply, find_of_mem hNodup (hMem List.mem_cons_self),
        ih (List.subset_of_cons_subset hMem)]
      rfl

/-- The requests that are kept stay as they are, and the cells of the others are given back. -/
theorem Shape.filter {ids : List String} {batch' : InferBatch} {removed : List Nat}
    (h : batch.Shape) (hPrefilled : batch.prefilled = true)
    (hSub : ids.Sublist (batch.rows.map (·.request_id)))
    (hFilter : batch.filter ids = some (batch', removed)) :
    batch'.Shape ∧ batch'.batch_id = batch.batch_id ∧ batch'.prefilled = true ∧
      batch'.sequences = batch.sequences.filter (fun seq => decide (seq.request_id ∈ ids)) ∧
      removed = (batch.sequences.filter fun seq => !decide (seq.request_id ∈ ids)).flatMap
        (·.cells) := by
  unfold InferBatch.filter at hFilter
  split at hFilter
  · cases hFilter
  rename_i hSome
  split at hFilter
  · rename_i hAll
    obtain ⟨rfl, rfl⟩ := Prod.mk.inj (Option.some.inj hFilter)
    obtain rfl : ids = batch.rows.map (·.request_id) := hSub.eq_of_length (by simpa using hAll)
    have hKept : ∀ seq ∈ batch.sequences, seq.request_id ∈ batch.rows.map (·.request_id) := by
      intro seq hSeq
      obtain ⟨row, hRow, rfl⟩ := List.mem_map.mp hSeq
      exact List.mem_map_of_mem hRow
    refine ⟨h, rfl, hPrefilled, ?_, ?_⟩
    · exact (List.filter_eq_self.mpr fun seq hSeq => decide_eq_true (hKept seq hSeq)).symm
    · rw [List.filter_eq_nil_iff.mpr fun seq hSeq => by simpa using hKept seq hSeq]
      rfl
  · rw [mapM_find_of_sublist hSub h.ids] at hFilter
    obtain ⟨rfl, rfl⟩ := Prod.mk.inj (Option.some.inj hFilter)
    have hIds := map_kept hSub h.ids
    generalize hKept : (batch.rows.filter fun row => decide (row.request_id ∈ ids)) = kept at hIds
    have hMem : kept ⊆ batch.rows := hKept ▸ List.filter_sublist.subset
    have hLe : ∀ row ∈ kept, row.seq_len ≤ max_len kept := fun row => seq_len_le_max
    have hFits : max_len kept ≤ batch.nopad_max_len_in_batch := by
      refine max_len_le fun row hRow => ?_
      exact h.max_eq ▸ seq_len_le_max (hMem hRow)
    have hSeq : (with_starts (kept.map (batch.cut (max_len kept)))).map (·.seq_len) =
        kept.map (·.seq_len) := by
      rw [map_with_starts _ fun _ _ => rfl, List.map_map]
      rfl
    have hRows : ∀ row ∈ with_starts (kept.map (batch.cut (max_len kept))), ∃ old ∈ kept,
        ∃ start_loc, row = { batch.cut (max_len kept) old with start_loc } := by
      intro row hRow
      obtain ⟨cut, hCut, start_loc, rfl⟩ := of_mem_with_starts hRow
      obtain ⟨old, hOld, rfl⟩ := List.mem_map.mp hCut
      exact ⟨old, hOld, start_loc, rfl⟩
    refine ⟨⟨?_, ?_, ?_, ?_, ?_, ?_, ?_, ?_⟩, rfl, hPrefilled, ?_, ?_⟩
    · intro hNone
      have hLength := congrArg List.length hSeq
      simp only at hNone
      rw [hNone] at hLength
      have : kept = [] := List.length_eq_zero_iff.mp (by simpa using hLength.symm)
      rw [this] at hIds
      exact hSome hIds.symm
    · simp only
      rw [map_with_starts _ fun _ _ => rfl, List.map_map]
      have : kept.map (·.request_id) = ids := hIds
      exact this ▸ h.ids.sublist hSub
    · simp only
      rw [max_len_with_starts, max_len, max_len, List.map_map]
      rfl
    · simp only
      rw [hSeq]
    · simp only
      rw [map_start_loc_with_starts, hSeq, List.map_map]
      rfl
    · intro row hRow
      obtain ⟨old, hOld, start_loc, rfl⟩ := hRows row hRow
      exact h.seq_len old (hMem hOld)
    · intro row hRow
      obtain ⟨old, hOld, start_loc, rfl⟩ := hRows row hRow
      exact h.nonempty old (hMem hOld)
    · intro row hRow
      obtain ⟨old, hOld, start_loc, rfl⟩ := hRows row hRow
      exact h.inputs old (hMem hOld)
    · have hSequences : batch.sequences.filter (fun seq => decide (seq.request_id ∈ ids)) =
          kept.map (·.sequence batch.nopad_max_len_in_batch batch.prefilled) := by
        rw [sequences, List.filter_map, ← hKept]
        rfl
      rw [hSequences, sequences, map_with_starts _ fun _ _ => rfl, List.map_map]
      refine List.map_congr_left fun row hRow => ?_
      have hCells : (batch.cut (max_len kept) row).cells (max_len kept) =
          row.cells batch.nopad_max_len_in_batch := by
        refine cells_congr ((hLe row hRow).trans hFits) (hLe row hRow)
          (h.nonempty row (hMem hRow)) rfl fun k hk => ?_
        have := hLe row hRow
        simp only [cut]
        rw [if_pos (by omega)]
        congr 1
        omega
      simp only [Function.comp_apply, Row.sequence, hCells]
      rfl
    · rw [sequences, List.filter_map, List.flatMap_map, row_cells]
      refine List.flatMap_congr fun row _ => ?_
      simp [Row.sequence, hPrefilled]

/-- The last of the rows ends where the input does. -/
theorem Shape.end_loc (h : batch.Shape) :
    batch.end_loc = (batch.rows.map (·.seq_len)).sum := by
  have hStarts := h.starts
  unfold InferBatch.end_loc
  rcases List.eq_nil_or_concat batch.rows with hNone | ⟨front, last, hRows⟩
  · exact absurd hNone h.some_row
  rw [hRows] at hStarts ⊢
  simp only [List.concat_eq_append, List.map_append, List.map_cons, List.map_nil,
    starts_append, Segments.starts] at hStarts
  obtain ⟨-, hLast⟩ := List.append_inj hStarts (by simp)
  simp only [List.cons.injEq, and_true] at hLast
  simp [hLast]

/-- In a wider table a request has the cells that it had. -/
theorem widen_sequence (h : batch.Shape) (hPrefilled : batch.prefilled = true)
    (hLe : batch.nopad_max_len_in_batch ≤ n) {start_loc last : Nat} (hRow : row ∈ batch.rows) :
    (batch.widen n start_loc last row).sequence n true =
      row.sequence batch.nopad_max_len_in_batch batch.prefilled := by
  have hFits : row.seq_len ≤ batch.nopad_max_len_in_batch := h.max_eq ▸ seq_len_le_max hRow
  have hCells : (batch.widen n start_loc last row).cells n =
      row.cells batch.nopad_max_len_in_batch := by
    refine cells_congr hFits (hFits.trans hLe) (h.nonempty row hRow) rfl fun k hk => ?_
    simp only [widen]
    rw [if_neg (by omega), if_pos (by omega)]
    congr 1
    omega
  rw [hPrefilled, Row.sequence, Row.sequence, hCells]
  rfl

/-- Widening leaves the order in which the requests start. -/
theorem Shape.map_start_loc_widen (h : batch.Shape) (n start_loc : Nat) (last : Nat → Nat) :
    (batch.rows.mapIdx fun i => batch.widen n start_loc (last i)).map (·.start_loc) =
      Segments.starts start_loc (batch.rows.map (·.seq_len)) := by
  have hShift : (batch.rows.mapIdx fun i => batch.widen n start_loc (last i)).map (·.start_loc) =
      batch.rows.map fun row => row.start_loc + start_loc := map_mapIdx_of fun _ _ _ => rfl
  have := map_add_starts 0 start_loc (batch.rows.map (·.seq_len))
  rw [← h.starts, List.map_map, Nat.zero_add] at this
  exact hShift.trans this

/-- The requests of both batches stay as they are. -/
theorem Shape.merge (h1 : batch1.Shape) (h2 : batch2.Shape) (hPrefilled1 : batch1.prefilled = true)
    (hPrefilled2 : batch2.prefilled = true)
    (hIds : (batch1.rows.map (·.request_id) ++ batch2.rows.map (·.request_id)).Nodup) :
    (batch1.merge batch2).Shape ∧ (batch1.merge batch2).prefilled = true ∧
      (batch1.merge batch2).sequences = batch1.sequences ++ batch2.sequences := by
  have hMap : ∀ {β : Type} (f : Row → β), (∀ (batch : InferBatch) n start_loc last row,
      f (batch.widen n start_loc last row) = f row) →
      (batch1.merge batch2).rows.map f = batch1.rows.map f ++ batch2.rows.map f := by
    intro β f hf
    simp only [InferBatch.merge, List.map_append]
    congr 1 <;> exact map_mapIdx_of fun _ _ _ => hf ..
  have hRows : ∀ row ∈ (batch1.merge batch2).rows, ∃ batch : InferBatch, batch.Shape ∧
      batch.prefilled = true ∧ ∃ old ∈ batch.rows, ∃ n start_loc last,
        row = batch.widen n start_loc last old := by
    intro row hRow
    rcases List.mem_append.mp hRow with hRow | hRow
    · obtain ⟨i, hi, rfl⟩ := List.mem_mapIdx.mp hRow
      exact ⟨batch1, h1, hPrefilled1, _, List.getElem_mem hi, _, _, _, rfl⟩
    · obtain ⟨i, hi, rfl⟩ := List.mem_mapIdx.mp hRow
      exact ⟨batch2, h2, hPrefilled2, _, List.getElem_mem hi, _, _, _, rfl⟩
  have hSeq := hMap (·.seq_len) fun _ _ _ _ _ => rfl
  have hPrefilled : (batch1.merge batch2).prefilled = true := by
    simp [InferBatch.merge, hPrefilled1, hPrefilled2]
  refine ⟨⟨?_, ?_, ?_, ?_, ?_, ?_, ?_, ?_⟩, hPrefilled, ?_⟩
  · intro hNone
    rw [hNone] at hSeq
    have := (List.append_eq_nil_iff.mp hSeq.symm).1
    exact h1.some_row (List.map_eq_nil_iff.mp this)
  · rw [hMap (·.request_id) fun _ _ _ _ _ => rfl]
    exact hIds
  · rw [max_len, hSeq, ← List.map_append]
    exact (congrArg₂ max h1.max_eq h2.max_eq).trans (max_len_append _ _).symm
  · rw [hSeq, List.sum_append]
    exact congrArg₂ (· + ·) h1.total_eq h2.total_eq
  · rw [hSeq, starts_append, Nat.zero_add, ← h1.end_loc]
    refine (List.map_append ..).trans (congrArg₂ (· ++ ·) ?_ ?_)
    · exact h1.map_start_loc_widen _ 0 _
    · exact h2.map_start_loc_widen _ batch1.end_loc _
  · intro row hRow
    obtain ⟨batch, h, -, old, hOld, n, start_loc, last, rfl⟩ := hRows row hRow
    exact h.seq_len old hOld
  · intro row hRow
    obtain ⟨batch, h, -, old, hOld, n, start_loc, last, rfl⟩ := hRows row hRow
    exact h.nonempty old hOld
  · intro row hRow
    obtain ⟨batch, h, hBatch, old, hOld, n, start_loc, last, rfl⟩ := hRows row hRow
    have := h.inputs old hOld
    rw [hBatch] at this
    rw [hPrefilled]
    exact this
  · rw [sequences, hPrefilled]
    simp only [InferBatch.merge, List.map_append]
    refine congrArg₂ (· ++ ·) (map_mapIdx_of fun i row hRow => ?_)
      (map_mapIdx_of fun i row hRow => ?_)
    · exact widen_sequence h1 hPrefilled1 (le_max_left _ _) hRow
    · exact widen_sequence h2 hPrefilled2 (le_max_right _ _) hRow

end InferBatch

end Slora
