import SwarmLoRA.Worker.PagedAttention
import SwarmLoRA.Worker.Generation

/-! The passes of a worker through all layers of its model, with a paged cache that the slots
share, and the model without a cache. -/
namespace Worker.Forward

open Machine PagedAttention TokenLoop

/-- The parts of the model, for one token. They do nothing across the tokens of a pass, so that only
the attention mixes tokens. -/
structure Model (Token H Q V O : Type) where
  embed : Token → H
  /-- Of a layer, at a position: the norm, the QKV projection with its deltas, the rotary
  embedding. -/
  qkv : Nat → Nat → H → Row Q V
  attention : Q → List (V × V) → O
  /-- Of a layer: the output projection, the MLP, the residuals. -/
  mlp : Nat → H → O → H

section Model

variable {Token H Q V O : Type} (model : Model Token H Q V O)

/-- A layer for tokens at consecutive positions. -/
def rows_from (layer_idx start : Nat) (hidden : List H) : List (Row Q V) :=
  (hidden.zipIdx start).map fun x => model.qkv layer_idx x.2 x.1

/-- All tokens at once, behind so many layers. -/
def hidden : Nat → List Token → List H
  | 0, tokens => tokens.map model.embed
  | layer_idx + 1, tokens =>
      List.zipWith (model.mlp layer_idx) (hidden layer_idx tokens)
        (causal model.attention [] (rows_from model layer_idx 0 (hidden layer_idx tokens)))

/-- What a layer makes of all tokens at once. -/
def rows_of (layer_idx : Nat) (tokens : List Token) : List (Row Q V) :=
  rows_from model layer_idx 0 (hidden model layer_idx tokens)

/-- The tokens behind those that came before, of which the layers know keys and values. -/
def continued : Nat → List Token → List Token → List H
  | 0, _, later => later.map model.embed
  | layer_idx + 1, tokens, later =>
      List.zipWith (model.mlp layer_idx) (continued layer_idx tokens later)
        (causal model.attention ((rows_of model layer_idx tokens).map Row.entry)
          (rows_from model layer_idx tokens.length (continued layer_idx tokens later)))

variable {model} {layer_idx : Nat}

/-- Tokens at consecutive positions, in two parts. -/
theorem rows_from_append (start : Nat) (before later : List H) :
    rows_from model layer_idx start (before ++ later) =
      rows_from model layer_idx start before ++
        rows_from model layer_idx (start + before.length) later := by
  unfold rows_from
  rw [List.zipIdx_append, List.map_append]

@[simp] theorem length_rows_from (start : Nat) (hidden : List H) :
    (rows_from model layer_idx start hidden).length = hidden.length := by
  rw [rows_from, List.length_map, List.length_zipIdx]

@[simp] theorem length_hidden (tokens : List Token) :
    (hidden model layer_idx tokens).length = tokens.length := by
  induction layer_idx with
  | zero => exact List.length_map _
  | succ layer_idx ih =>
      rw [hidden, List.length_zipWith, length_causal, length_rows_from, Nat.min_self, ih]

@[simp] theorem length_continued (tokens later : List Token) :
    (continued model layer_idx tokens later).length = later.length := by
  induction layer_idx with
  | zero => exact List.length_map _
  | succ layer_idx ih =>
      rw [continued, List.length_zipWith, length_causal, length_rows_from, Nat.min_self, ih]

/-- Later tokens change nothing for those before them, and find what they need in the cache. -/
theorem hidden_append (tokens later : List Token) :
    hidden model layer_idx (tokens ++ later) =
      hidden model layer_idx tokens ++ continued model layer_idx tokens later := by
  induction layer_idx with
  | zero => exact List.map_append
  | succ layer_idx ih =>
      have hLength : (hidden model layer_idx tokens).length =
          (causal model.attention [] (rows_of model layer_idx tokens)).length := by
        rw [length_causal, rows_of, length_rows_from]
      rw [hidden, ih, rows_from_append, causal_append, length_hidden, Nat.zero_add,
        List.nil_append]
      exact List.zipWith_append hLength

@[simp] theorem length_rows_of (tokens : List Token) :
    (rows_of model layer_idx tokens).length = tokens.length := by
  rw [rows_of, length_rows_from, length_hidden]

/-- The rows of a longer text are those of its beginning and those of the rest. -/
theorem rows_of_append (tokens later : List Token) :
    rows_of model layer_idx (tokens ++ later) =
      rows_of model layer_idx tokens ++
        rows_from model layer_idx tokens.length (continued model layer_idx tokens later) := by
  rw [rows_of, hidden_append, rows_from_append, length_hidden, Nat.zero_add]
  rfl

/-- The positions that a pass computes are those behind what is cached. -/
theorem rows_of_positions (tokens : List Token) {hidden : List H} {q_len : Nat}
    (hLength : hidden.length = q_len) :
    List.zipWith (model.qkv layer_idx) (State.positions tokens.length q_len) hidden =
      rows_from model layer_idx tokens.length hidden := by
  rw [positions_eq, rows_from]
  apply List.ext_getElem?
  intro k
  simp only [List.getElem?_zipWith, List.getElem?_map, List.getElem?_zipIdx]
  by_cases hk : k < hidden.length
  · simp [hk, ← hLength]
  · simp [hk]

end Model

section Generation

variable {D H Q V O : Type} (model : Model TokenId H Q V O) (sample : H → D → TokenId)

/-- The tokens that the model without a cache generates, one from each draw, when it is run on all
tokens anew for each. -/
def generate (num_layers : Nat) : List TokenId → List D → List TokenId
  | _, [] => []
  | tokens, draw :: draws =>
      match (hidden model num_layers tokens).getLast? with
      | none => []
      | some last => sample last draw ::
          generate num_layers (tokens ++ [sample last draw]) draws

variable {model sample}

/-- One more draw gives one more token. -/
theorem generate_append {num_layers : Nat} {tokens : List TokenId} {draws : List D} {draw : D}
    {last : H}
    (hLast : (hidden model num_layers
      (tokens ++ generate model sample num_layers tokens draws)).getLast? = some last)
    (hSome : tokens ≠ []) :
    generate model sample num_layers tokens (draws ++ [draw]) =
      generate model sample num_layers tokens draws ++ [sample last draw] := by
  induction draws generalizing tokens with
  | nil =>
      rw [generate, List.append_nil] at hLast
      simp [generate, hLast]
  | cons first draws ih =>
      have hFirst : (hidden model num_layers tokens).getLast? ≠ none := by
        rw [ne_eq, List.getLast?_eq_none_iff, ← List.length_eq_zero_iff, length_hidden,
          List.length_eq_zero_iff]
        exact hSome
      obtain ⟨h, hHead⟩ := Option.ne_none_iff_exists'.mp hFirst
      simp only [generate, hHead, List.cons_append] at hLast ⊢
      rw [ih (by simpa using hLast) (by simp)]

end Generation

section Engine

variable {D H Q V O : Type} [Zero V] (cfg : TokenLoop.Config) (model : Model TokenId H Q V O)
  (kernel : Kernel Q V O) (sample : H → D → TokenId)

/-- The slots share the cache. Of each slot there are also the prompt that it was given for, the
tokens whose passes are over, and the draws of its tokens. -/
structure State (D H Q V O : Type) where
  attn : PagedAttention.State Q V O
  slots : SlotId → Option SlotState := fun _ => none
  hidden : List H := []
  prompts : SlotId → List TokenId := fun _ => []
  fed : SlotId → List TokenId := fun _ => []
  draws : SlotId → List D := fun _ => []

/-- The moves of the engine. A slot may be freed between passes for whatever reason. -/
inductive Label (D : Type) where
  | accept (slot_id : SlotId) (prompt : List TokenId) (max_tokens : Int)
  | enter (slot_id : SlotId)
  | layer
  | leave (draw : D)
  | fail
  | free_slot (slot_id : SlotId)

/-- What a layer takes from the hidden states of the pass. -/
def layer_rows (p : Pass) (hidden : List H) : List (Row Q V) :=
  List.zipWith (model.qkv p.layer_idx) (State.positions p.cache_seqlens p.q_len) hidden

/-- One step of the attention. -/
def attend (l : PagedAttention.Label Q V) (s : State D H Q V O) :
    Option (PagedAttention.State Q V O) :=
  PagedAttention.step kernel cfg.num_layers cfg.max_slots s.attn l

/-- `_accept_pending_requests` for a slot that is not in use. -/
def State.accept (s : State D H Q V O) (slot_id : SlotId) (prompt : List TokenId)
    (max_tokens : Int) : Option (State D H Q V O) :=
  if s.slots slot_id = none ∧ prompt ≠ [] then
    (attend cfg kernel (.init_seq_len slot_id) s).map fun attn =>
      { s with
        attn
        slots := Function.update s.slots slot_id
          (TokenLoop.accept cfg s.attn.cache.toPagedKVCache slot_id prompt max_tokens).slot
        prompts := Function.update s.prompts slot_id (cfg.truncate prompt)
        fed := Function.update s.fed slot_id []
        draws := Function.update s.draws slot_id [] }
  else none

/-- A slot that is not completed enters a pass, unless there are no blocks for it. -/
def State.enter (s : State D H Q V O) (slot_id : SlotId) : Option (State D H Q V O) :=
  match s.slots slot_id with
  | none => none
  | some slot =>
      if slot.completed cfg then none
      else (attend cfg kernel (.enter slot_id slot.input_ids.length) s).map fun attn =>
        { s with
          attn
          slots := if attn.pass.isNone then Function.update s.slots slot_id none else s.slots
          hidden := slot.input_ids.map model.embed }

/-- A layer of the pass that is under way. -/
def State.layer (s : State D H Q V O) : Option (State D H Q V O) :=
  match s.attn.pass with
  | none => none
  | some p =>
      (attend cfg kernel (.attend (layer_rows model p s.hidden)) s).map fun attn =>
        { s with
          attn
          hidden := List.zipWith (model.mlp p.layer_idx) s.hidden
            (batch_flash_attention kernel (layer_rows model p s.hidden) p
              s.attn.cache).1 }

/-- The last row of the pass goes to the final norm, the LM head and the sampler. -/
def State.leave (s : State D H Q V O) (draw : D) : Option (State D H Q V O) :=
  match s.attn.pass with
  | none => none
  | some p =>
      match s.slots p.slot_id, s.hidden.getLast? with
      | some slot, some last =>
          (attend cfg kernel .leave s).map fun attn =>
            { s with
              attn
              slots := Function.update s.slots p.slot_id
                (some (slot.get_token (sample last draw)))
              fed := Function.update s.fed p.slot_id (s.fed p.slot_id ++ slot.input_ids)
              draws := if slot.prefill_chunks.isEmpty then
                  Function.update s.draws p.slot_id (s.draws p.slot_id ++ [draw])
                else s.draws }
      | _, _ => none

/-- The pass raises, and its slot is given up. -/
def State.fail (s : State D H Q V O) : Option (State D H Q V O) :=
  match s.attn.pass with
  | none => none
  | some p =>
      (attend cfg kernel .fail s).map fun attn =>
        { s with attn, slots := Function.update s.slots p.slot_id none }

/-- A slot is freed when its request is through. -/
def State.free_slot (s : State D H Q V O) (slot_id : SlotId) : Option (State D H Q V O) :=
  (attend cfg kernel (.free_slot slot_id) s).map fun attn =>
    { s with attn, slots := Function.update s.slots slot_id none }

/-- A request is accepted, a pass begins, does a layer or ends, or a slot is freed. -/
def step (s : State D H Q V O) : Label D → Option (State D H Q V O)
  | .accept slot_id prompt max_tokens => s.accept cfg kernel slot_id prompt max_tokens
  | .enter slot_id => s.enter cfg model kernel slot_id
  | .layer => s.layer cfg model kernel
  | .leave draw => s.leave cfg kernel sample draw
  | .fail => s.fail cfg kernel
  | .free_slot slot_id => s.free_slot cfg kernel slot_id

/-- Requests in any number of slots, pass after pass. -/
def machine : System (State D H Q V O) (Label D) where
  initial s := s = {
    attn := { cache := .new cfg.num_layers cfg.block_size cfg.max_slots cfg.max_seq_len } }
  step := step cfg model kernel sample

end Engine

section Run

variable {D H Q V O : Type} {cfg : TokenLoop.Config} {model : Model TokenId H Q V O}
  {kernel : Kernel Q V O} {sample : H → D → TokenId} {s s' : State D H Q V O} {slot_id : SlotId}
  {slot : SlotState}

/-- The tokens of a pass that is not over, in the layers that are done. -/
def entering (pass : Option Pass) (slot_id : SlotId) (layer_idx : Nat) (slot : SlotState) :
    List TokenId :=
  match pass with
  | some p => if slot_id = p.slot_id ∧ layer_idx < p.layer_idx then slot.input_ids else []
  | none => []

variable (cfg model sample) in
/-- A slot that is in use: what has been fed to it and what is to come make up its prompt and its
answer, and the answer is the one of the model alone. -/
structure Serves (s : State D H Q V O) (slot_id : SlotId) (slot : SlotState) : Prop where
  prompt_ne_nil : s.prompts slot_id ≠ []
  budget : (s.prompts slot_id).length + slot.max_tokens ≤ cfg.max_seq_len
  count : slot.generated_tokens.length ≤ slot.max_tokens
  stopped : ∀ token ∈ slot.generated_tokens.dropLast, cfg.eos_token_id ≠ some token
  tokens : s.fed slot_id ++ slot.input_ids ++ slot.prefill_chunks.flatten =
    s.prompts slot_id ++ slot.generated_tokens
  generated : slot.generated_tokens =
    generate model sample cfg.num_layers (s.prompts slot_id) (s.draws slot_id)
  rows : ∀ layer_idx < cfg.num_layers, rows s.attn.events slot_id layer_idx =
    rows_of model layer_idx (s.fed slot_id ++ entering s.attn.pass slot_id layer_idx slot)

variable (cfg model) in
/-- The pass that is not over is behind some layers. -/
structure Passes (s : State D H Q V O) (p : Pass) (slot : SlotState) : Prop where
  slot_eq : s.slots p.slot_id = some slot
  q_len_eq : p.q_len = slot.input_ids.length
  more : slot.completed cfg = false
  hidden_eq : s.hidden = continued model p.layer_idx (s.fed p.slot_id) slot.input_ids

/-- A slot that the step is not about. -/
theorem Serves.frame (h : Serves cfg model sample s slot_id slot)
    (hPrompts : s'.prompts slot_id = s.prompts slot_id) (hFed : s'.fed slot_id = s.fed slot_id)
    (hDraws : s'.draws slot_id = s.draws slot_id)
    (hRows : ∀ layer_idx, PagedAttention.rows s'.attn.events slot_id layer_idx =
      PagedAttention.rows s.attn.events slot_id layer_idx)
    (hEntering : ∀ layer_idx, entering s'.attn.pass slot_id layer_idx slot =
      entering s.attn.pass slot_id layer_idx slot) :
    Serves cfg model sample s' slot_id slot where
  prompt_ne_nil := hPrompts ▸ h.prompt_ne_nil
  budget := hPrompts ▸ h.budget
  count := h.count
  stopped := h.stopped
  tokens := by
    rw [hFed, hPrompts]
    exact h.tokens
  generated := by
    rw [hPrompts, hDraws]
    exact h.generated
  rows layer_idx hLayer := by
    rw [hRows, hFed, hEntering]
    exact h.rows layer_idx hLayer

/-- A pass concerns its own slot. -/
theorem entering_of_ne {p : Pass} (hOther : slot_id ≠ p.slot_id) (layer_idx : Nat) :
    entering (some p) slot_id layer_idx slot = [] :=
  if_neg fun h => hOther h.1

/-- The prompt, cut to what fits, is cut into chunks. -/
theorem serves_accept {prompt : List TokenId} {max_tokens : Int} (hPrompt : prompt ≠ [])
    {cache : PagedKVCache}
    (hSlot : (TokenLoop.accept cfg cache slot_id prompt max_tokens).slot = some slot)
    (hPrompts : s.prompts slot_id = cfg.truncate prompt) (hFed : s.fed slot_id = [])
    (hDraws : s.draws slot_id = [])
    (hRows : ∀ layer_idx, PagedAttention.rows s.attn.events slot_id layer_idx = [])
    (hPass : s.attn.pass = none) : Serves cfg model sample s slot_id slot := by
  obtain ⟨hLength, -⟩ := truncate_eq cfg prompt
  have hTwo := cfg.two_le_seq
  have hPos := List.length_pos_of_ne_nil hPrompt
  have hSome : cfg.truncate prompt ≠ [] := List.ne_nil_of_length_pos (by omega)
  obtain ⟨hFlatten, -, hPieces⟩ := pieces_eq cfg hSome
  obtain rfl := Option.some.inj hSlot
  refine ⟨hPrompts ▸ hSome, ?_, Nat.zero_le _, fun _ hNone => absurd hNone List.not_mem_nil, ?_,
    ?_, fun layer_idx _ => ?_⟩
  · rw [hPrompts]
    change _ + min _ (cfg.max_seq_len - (cfg.truncate prompt).length) ≤ _
    omega
  · rw [hFed, hPrompts, List.append_nil, List.nil_append]
    refine Eq.trans ?_ hFlatten
    obtain ⟨first, rest, hCons⟩ := List.exists_cons_of_ne_nil hPieces
    simp [hCons]
  · rw [hDraws]
    rfl
  · rw [hRows, hFed, hPass]
    exact (List.eq_nil_of_length_eq_zero (length_rows_of _)).symm

/-- A slot goes on with its next chunk, or with the token that follows all that it has. -/
theorem Serves.get_token (h : Serves cfg model sample s slot_id slot) {draw : D} {last : H}
    (hMore : slot.completed cfg = false)
    (hLast : (hidden model cfg.num_layers (s.fed slot_id ++ slot.input_ids)).getLast? = some last)
    (hRows : ∀ layer_idx < cfg.num_layers, PagedAttention.rows s'.attn.events slot_id layer_idx =
      rows_of model layer_idx (s.fed slot_id ++ slot.input_ids))
    (hPass : s'.attn.pass = none) (hPrompts : s'.prompts slot_id = s.prompts slot_id)
    (hFed : s'.fed slot_id = s.fed slot_id ++ slot.input_ids)
    (hDraws : s'.draws slot_id =
      if slot.prefill_chunks.isEmpty then s.draws slot_id ++ [draw] else s.draws slot_id) :
    Serves cfg model sample s' slot_id (slot.get_token (sample last draw)) := by
  have hTokens := h.tokens
  have hGenerated := h.generated
  have hRowsNow (layer_idx : Nat) (hIn : layer_idx < cfg.num_layers)
      (later : SlotState) : PagedAttention.rows s'.attn.events slot_id layer_idx =
        rows_of model layer_idx
          (s'.fed slot_id ++ entering s'.attn.pass slot_id layer_idx later) := by
    rw [hPass, hFed, hRows layer_idx hIn]
    exact congrArg (rows_of model layer_idx) (List.append_nil _).symm
  cases hChunks : slot.prefill_chunks with
  | cons chunk rest =>
      simp only [hChunks, List.isEmpty_cons, Bool.false_eq_true, if_false] at hDraws
      have hNext : slot.get_token (sample last draw) =
          { slot with input_ids := chunk, prefill_chunks := rest } := by
        simp only [SlotState.get_token, hChunks]
      rw [hNext]
      refine ⟨hPrompts ▸ h.prompt_ne_nil, hPrompts ▸ h.budget, h.count, h.stopped, ?_, ?_,
        fun layer_idx hIn => hRowsNow layer_idx hIn _⟩
      · rw [hChunks, List.flatten_cons] at hTokens
        rw [hFed, hPrompts, List.append_assoc, hTokens]
      · rw [hPrompts, hDraws]
        exact hGenerated
  | nil =>
      simp only [hChunks, List.isEmpty_nil, if_true] at hDraws
      rw [hChunks, List.flatten_nil, List.append_nil] at hTokens
      have hNext : slot.get_token (sample last draw) =
          { slot with
            generated_tokens := slot.generated_tokens ++ [sample last draw]
            input_ids := [sample last draw] } := by
        simp only [SlotState.get_token, hChunks]
      rw [hNext]
      refine ⟨hPrompts ▸ h.prompt_ne_nil, hPrompts ▸ h.budget, ?_, ?_, ?_, ?_,
        fun layer_idx hIn => hRowsNow layer_idx hIn _⟩
      · rw [List.length_append]
        exact SlotState.lt_of_not_completed hMore
      · intro token hToken
        rw [List.dropLast_concat] at hToken
        rcases mem_dropLast_or_getLast hToken with hEarlier | hLatest
        · exact h.stopped token hEarlier
        · exact SlotState.not_eos_of_not_completed hMore token hLatest
      · simp only [hChunks, List.flatten_nil, List.append_nil]
        rw [hFed, hPrompts, hTokens, List.append_assoc]
      · rw [hTokens, hGenerated] at hLast
        rw [hPrompts, hDraws, generate_append hLast h.prompt_ne_nil, ← hGenerated]

variable [Zero V]

variable (cfg model sample) in
/-- What holds in every state of a run: what is fed in each slot, what each layer has been given
there, and which tokens have been sampled. -/
structure Invariant (s : State D H Q V O) : Prop where
  attn : PagedAttention.Invariant model.attention cfg.num_layers cfg.block_size cfg.max_slots
    cfg.max_seq_len s.attn
  serves : ∀ slot_id slot, s.slots slot_id = some slot → Serves cfg model sample s slot_id slot
  passes : ∀ p, s.attn.pass = some p → ∃ slot, Passes cfg model s p slot

/-- Nothing has been fed at the start. -/
theorem Invariant.initial : Invariant cfg model sample
    ({ attn := { cache := .new cfg.num_layers cfg.block_size cfg.max_slots cfg.max_seq_len } } :
      State D H Q V O) :=
  ⟨PagedAttention.Invariant.initial,
    fun _ _ hSome => absurd hSome (Option.some_ne_none _).symm, of_idle rfl⟩

/-- A step of the attention that no slot is concerned by. -/
theorem Invariant.attend (hKernel : kernel.Documented model.attention)
    (h : Invariant cfg model sample s) {l : PagedAttention.Label Q V}
    {attn : PagedAttention.State Q V O} (hFits : Fits cfg.max_seq_len s.attn l)
    (hStep : attend cfg kernel l s = some attn) :
    PagedAttention.Invariant model.attention cfg.num_layers cfg.block_size cfg.max_slots
      cfg.max_seq_len attn :=
  h.attn.step hKernel cfg.block_pos hFits hStep

/-- A request is accepted in a slot that is free. -/
theorem Invariant.accept (hKernel : kernel.Documented model.attention)
    (h : Invariant cfg model sample s) {prompt : List TokenId}
    {max_tokens : Int} (hStep : s.accept cfg kernel slot_id prompt max_tokens = some s') :
    Invariant cfg model sample s' := by
  simp only [State.accept, Option.ite_none_right_eq_some, Option.map_eq_some_iff] at hStep
  obtain ⟨⟨hFree, hPrompt⟩, attn, hAttend, rfl⟩ := hStep
  have hAttn := h.attend hKernel (by trivial) hAttend
  cases hPass : s.attn.pass with
  | some p =>
      simp only [Forward.attend, PagedAttention.step, hPass] at hAttend
      cases hAttend
  | none =>
      simp only [Forward.attend, PagedAttention.step, hPass] at hAttend
      obtain rfl := Option.some.inj hAttend
      refine ⟨hAttn, fun other slot hSlot => ?_, of_idle hPass⟩
      by_cases hSame : other = slot_id
      · subst hSame
        simp only [Function.update_self] at hSlot
        exact serves_accept hPrompt hSlot (Function.update_self ..) (Function.update_self ..)
          (Function.update_self ..) (fun _ => if_pos rfl) hPass
      · simp only [Function.update_of_ne hSame] at hSlot
        exact (h.serves other slot hSlot).frame (Function.update_of_ne hSame ..)
          (Function.update_of_ne hSame ..) (Function.update_of_ne hSame ..)
          (fun _ => if_neg hSame) fun _ => rfl

/-- A slot that is not completed has room for another pass. -/
theorem Invariant.fits (h : Invariant cfg model sample s) (hLayers : 0 < cfg.num_layers)
    (hSlot : s.slots slot_id = some slot) (hMore : slot.completed cfg = false)
    (hPass : s.attn.pass = none) :
    Fits cfg.max_seq_len s.attn (.enter slot_id slot.input_ids.length) := by
  have hServes := h.serves slot_id slot hSlot
  have hRows := h.attn.lengths slot_id 0 hLayers
  rw [hServes.rows 0 hLayers, hPass] at hRows
  simp only [entering, added, List.append_nil, length_rows_of, Nat.add_zero] at hRows
  have hTokens := congrArg List.length hServes.tokens
  simp only [List.length_append] at hTokens
  have hFew := SlotState.lt_of_not_completed hMore
  have hBudget := hServes.budget
  change (s.attn.cache.slot_seq_lens slot_id).getD 0 + _ ≤ _
  omega

/-- A pass begins with what is to be fed next. -/
theorem Invariant.enter (hKernel : kernel.Documented model.attention)
    (h : Invariant cfg model sample s) (hLayers : 0 < cfg.num_layers)
    (hStep : s.enter cfg model kernel slot_id = some s') : Invariant cfg model sample s' := by
  cases hSlot : s.slots slot_id with
  | none =>
      simp only [State.enter, hSlot] at hStep
      cases hStep
  | some own =>
      simp only [State.enter, hSlot, Option.ite_none_left_eq_some, Option.map_eq_some_iff,
        Bool.not_eq_true] at hStep
      obtain ⟨hMore, attn, hAttend, rfl⟩ := hStep
      cases hPass : s.attn.pass with
      | some p =>
          simp only [Forward.attend, PagedAttention.step, hPass] at hAttend
          cases hAttend
      | none =>
          have hFits := h.fits hLayers hSlot hMore hPass
          have hAttn := h.attend hKernel hFits hAttend
          obtain ⟨hTorn, hEvents⟩ | ⟨p, hEntered, hEvents, hOwn, hLength, hZero⟩ :=
            h.attn.enter_cases hPass cfg.block_pos hFits hAttend
          · refine ⟨hAttn, fun other slot hOther => ?_, of_idle hTorn⟩
            simp only [hTorn, Option.isNone_none, if_true] at hOther
            by_cases hSame : other = slot_id
            · subst hSame
              simp only [Function.update_self] at hOther
              cases hOther
            · rw [Function.update_of_ne hSame] at hOther
              refine (h.serves other slot hOther).frame rfl rfl rfl (fun _ => ?_) fun _ => ?_
              · rw [hEvents]
                exact if_neg hSame
              · rw [hTorn, hPass]
          · refine ⟨hAttn, fun other slot hOther => ?_, fun q hSome => ?_⟩
            · simp only [hEntered, Option.isNone_some, Bool.false_eq_true, if_false] at hOther
              refine (h.serves other slot hOther).frame rfl rfl rfl (fun _ => ?_) fun _ => ?_
              · rw [hEvents]
              · rw [hEntered, hPass]
                exact if_neg fun hIn => Nat.not_lt_zero _ (hZero ▸ hIn.2)
            · obtain rfl := Option.some.inj (hEntered.symm.trans hSome)
              refine ⟨own, ?_, hLength, hMore, ?_⟩
              · simp only [hEntered, Option.isNone_some, Bool.false_eq_true, if_false]
                rw [hOwn, hSlot]
              · rw [hZero]
                rfl

/-- The rows of a layer are those of the whole sequence at the places of the pass. -/
theorem Invariant.layer_rows_eq (h : Invariant cfg model sample s) {p : Pass}
    (hPass : s.attn.pass = some p) (hLayer : p.layer_idx < cfg.num_layers)
    (hPasses : Passes cfg model s p slot) :
    PagedAttention.rows s.attn.events p.slot_id p.layer_idx =
        rows_of model p.layer_idx (s.fed p.slot_id) ∧
      layer_rows model p s.hidden =
        rows_from model p.layer_idx (s.fed p.slot_id).length
          (continued model p.layer_idx (s.fed p.slot_id) slot.input_ids) := by
  have hRows := (h.serves p.slot_id slot hPasses.slot_eq).rows p.layer_idx hLayer
  have hNone : entering s.attn.pass p.slot_id p.layer_idx slot = [] := by
    rw [hPass]
    exact if_neg fun hIn => Nat.lt_irrefl _ hIn.2
  rw [hNone, List.append_nil] at hRows
  have hStart := h.attn.length_rows hPass hLayer
  rw [hRows, length_rows_of] at hStart
  refine ⟨hRows, ?_⟩
  rw [layer_rows, ← hStart, hPasses.hidden_eq]
  exact rows_of_positions _ ((length_continued ..).trans hPasses.q_len_eq.symm)

/-- A layer of the pass gives what the model without a cache gives. -/
theorem Invariant.layer (hKernel : kernel.Documented model.attention)
    (h : Invariant cfg model sample s)
    (hStep : s.layer cfg model kernel = some s') : Invariant cfg model sample s' := by
  cases hPass : s.attn.pass with
  | none =>
      simp only [State.layer, hPass] at hStep
      cases hStep
  | some p =>
      simp only [State.layer, hPass, Option.map_eq_some_iff] at hStep
      obtain ⟨attn, hAttend, rfl⟩ := hStep
      have hAttn := h.attend hKernel (by trivial) hAttend
      simp only [Forward.attend, PagedAttention.step, hPass, Option.ite_none_right_eq_some,
        Option.some.injEq] at hAttend
      obtain ⟨⟨hLayer, hLength⟩, rfl⟩ := hAttend
      obtain ⟨own, hPasses⟩ := h.passes p hPass
      obtain ⟨hRows, hLayerRows⟩ := h.layer_rows_eq hPass hLayer hPasses
      refine ⟨hAttn, fun other slot hOther => ?_, fun q hSome => ?_⟩
      · have hServes := h.serves other slot hOther
        by_cases hSame : other = p.slot_id
        · subst hSame
          obtain rfl := Option.some.inj (hPasses.slot_eq.symm.trans hOther)
          refine ⟨hServes.prompt_ne_nil, hServes.budget, hServes.count, hServes.stopped,
            hServes.tokens, hServes.generated, fun layer_idx hIn => ?_⟩
          by_cases hHere : layer_idx = p.layer_idx
          · subst hHere
            simp only [PagedAttention.rows, and_self, if_true, entering, Nat.lt_succ_self]
            rw [hRows, hLayerRows, rows_of_append]
          · have hOld := hServes.rows layer_idx hIn
            have hIff : layer_idx < p.layer_idx + 1 ↔ layer_idx < p.layer_idx := by omega
            rw [hPass] at hOld
            simp only [PagedAttention.rows, hHere, and_false, if_false, entering, true_and,
              hIff] at hOld ⊢
            exact hOld
        · refine hServes.frame rfl rfl rfl (fun _ => if_neg fun hIn => hSame hIn.1) fun _ => ?_
          rw [hPass, entering_of_ne hSame]
          exact if_neg fun hIn => hSame hIn.1
      · obtain rfl := Option.some.inj hSome
        refine ⟨own, hPasses.slot_eq, hPasses.q_len_eq, hPasses.more, ?_⟩
        change List.zipWith _ s.hidden _ = _
        rw [h.attn.out_eq hKernel hPass hLayer hLength, hRows, hLayerRows, hPasses.hidden_eq]
        rfl

/-- At the end of a pass the next token is the one that the model samples. -/
theorem Invariant.leave (hKernel : kernel.Documented model.attention)
    (h : Invariant cfg model sample s) {draw : D}
    (hStep : s.leave cfg kernel sample draw = some s') : Invariant cfg model sample s' := by
  cases hPass : s.attn.pass with
  | none =>
      simp only [State.leave, hPass] at hStep
      cases hStep
  | some p =>
      obtain ⟨own, hPasses⟩ := h.passes p hPass
      cases hHidden : s.hidden.getLast? with
      | none =>
          simp only [State.leave, hPass, hPasses.slot_eq, hHidden] at hStep
          cases hStep
      | some last =>
          simp only [State.leave, hPass, hPasses.slot_eq, hHidden,
            Option.map_eq_some_iff] at hStep
          obtain ⟨attn, hAttend, rfl⟩ := hStep
          have hAttn := h.attend hKernel (by trivial) hAttend
          simp only [Forward.attend, PagedAttention.step, hPass, Option.ite_none_right_eq_some,
            Option.some.injEq] at hAttend
          obtain ⟨hDone, rfl⟩ := hAttend
          refine ⟨hAttn, fun other slot hOther => ?_, of_idle rfl⟩
          by_cases hSame : other = p.slot_id
          · subst hSame
            simp only [Function.update_self, Option.some.injEq] at hOther
            subst hOther
            have hServes := h.serves p.slot_id own hPasses.slot_eq
            refine hServes.get_token hPasses.more ?_ (fun layer_idx hIn => ?_) rfl rfl
              (Function.update_self ..) ?_
            · rw [hidden_append, List.getLast?_append, ← hDone, ← hPasses.hidden_eq, hHidden]
              rfl
            · have hOld := hServes.rows layer_idx hIn
              rw [hPass, entering, if_pos ⟨rfl, hDone.symm ▸ hIn⟩] at hOld
              exact hOld
            · cases own.prefill_chunks with
              | nil => simp
              | cons chunk rest => simp
          · simp only [Function.update_of_ne hSame] at hOther
            refine (h.serves other slot hOther).frame rfl (Function.update_of_ne hSame ..) ?_
              (fun _ => rfl) fun _ => ?_
            · cases own.prefill_chunks with
              | nil => simp [Function.update_of_ne hSame]
              | cons chunk rest => simp
            · rw [hPass, entering_of_ne hSame]
              rfl

/-- A slot that is torn down takes nothing from the others. -/
theorem Invariant.dropped (h : Invariant cfg model sample s)
    {attn : PagedAttention.State Q V O}
    (hAttn : PagedAttention.Invariant model.attention cfg.num_layers cfg.block_size cfg.max_slots
      cfg.max_seq_len attn)
    (hEvents : attn.events = .free_slot slot_id :: s.attn.events) (hPass : attn.pass = none)
    (hOwn : ∀ p, s.attn.pass = some p → p.slot_id = slot_id) :
    Invariant cfg model sample
      { s with attn, slots := Function.update s.slots slot_id none } := by
  refine ⟨hAttn, fun other slot hOther => ?_, of_idle hPass⟩
  by_cases hSame : other = slot_id
  · subst hSame
    simp only [Function.update_self] at hOther
    cases hOther
  · simp only [Function.update_of_ne hSame] at hOther
    refine (h.serves other slot hOther).frame rfl rfl rfl (fun _ => ?_) fun layer_idx => ?_
    · rw [hEvents]
      exact if_neg hSame
    · rw [hPass]
      cases hOld : s.attn.pass with
      | none => rfl
      | some p => exact (entering_of_ne (hOwn p hOld ▸ hSame) layer_idx).symm

/-- A pass that raises gives up its slot. -/
theorem Invariant.fail (hKernel : kernel.Documented model.attention)
    (h : Invariant cfg model sample s)
    (hStep : s.fail cfg kernel = some s') : Invariant cfg model sample s' := by
  cases hPass : s.attn.pass with
  | none =>
      simp only [State.fail, hPass] at hStep
      cases hStep
  | some p =>
      simp only [State.fail, hPass, Option.map_eq_some_iff] at hStep
      obtain ⟨attn, hAttend, rfl⟩ := hStep
      have hAttn := h.attend hKernel (by trivial) hAttend
      simp only [Forward.attend, PagedAttention.step, hPass] at hAttend
      obtain rfl := Option.some.inj hAttend
      refine h.dropped hAttn rfl rfl fun q hSome => ?_
      rw [Option.some.inj (hPass.symm.trans hSome)]

/-- A slot that is freed has nothing fed. -/
theorem Invariant.free_slot (hKernel : kernel.Documented model.attention)
    (h : Invariant cfg model sample s)
    (hStep : s.free_slot cfg kernel slot_id = some s') : Invariant cfg model sample s' := by
  simp only [State.free_slot, Option.map_eq_some_iff] at hStep
  obtain ⟨attn, hAttend, rfl⟩ := hStep
  have hAttn := h.attend hKernel (by trivial) hAttend
  cases hPass : s.attn.pass with
  | some p =>
      simp only [Forward.attend, PagedAttention.step, hPass] at hAttend
      cases hAttend
  | none =>
      simp only [Forward.attend, PagedAttention.step, hPass] at hAttend
      obtain rfl := Option.some.inj hAttend
      exact h.dropped hAttn rfl rfl (of_idle hPass)

/-- Every step keeps the invariant. -/
theorem Invariant.step (hKernel : kernel.Documented model.attention)
    (h : Invariant cfg model sample s) (hLayers : 0 < cfg.num_layers)
    {l : Label D} (hStep : step cfg model kernel sample s l = some s') :
    Invariant cfg model sample s' := by
  cases l with
  | accept slot_id prompt max_tokens => exact h.accept hKernel hStep
  | enter slot_id => exact h.enter hKernel hLayers hStep
  | layer => exact h.layer hKernel hStep
  | leave draw => exact h.leave hKernel hStep
  | fail => exact h.fail hKernel hStep
  | free_slot slot_id => exact h.free_slot hKernel hStep

/-- It holds in every state of a run. -/
theorem invariant_of_reachable (hKernel : kernel.Documented model.attention)
    (hLayers : 0 < cfg.num_layers)
    (run : (machine cfg model kernel sample).Reachable s) : Invariant cfg model sample s := by
  refine run.invariant (Invariant cfg model sample) ?_
    fun _ _ _ hOld _ hStep => hOld.step hKernel hLayers hStep
  rintro _ rfl
  exact Invariant.initial

/-- Requests come and go and take turns in any order, their prompts are cut into chunks, and their
keys and values lie in whatever blocks there are: each slot has generated what the model without a
cache generates from its prompt alone. It is assumed of the kernel what its documentation says, and
that the model has layers. -/
theorem generated_of_prompt (hKernel : kernel.Documented model.attention)
    (hLayers : 0 < cfg.num_layers)
    (run : (machine cfg model kernel sample).Reachable s) (hSlot : s.slots slot_id = some slot) :
    slot.generated_tokens =
        generate model sample cfg.num_layers (s.prompts slot_id) (s.draws slot_id) ∧
      (∀ token ∈ slot.generated_tokens.dropLast, cfg.eos_token_id ≠ some token) ∧
      slot.generated_tokens.length ≤ slot.max_tokens ∧
        (s.prompts slot_id).length + slot.max_tokens ≤ cfg.max_seq_len := by
  have hServes := (invariant_of_reachable hKernel hLayers run).serves slot_id slot hSlot
  exact ⟨hServes.generated, hServes.stopped, hServes.count, hServes.budget⟩

/-- A model that counts. -/
def counting : Model TokenId Nat Nat Nat Nat where
  embed token := token
  qkv layer_idx position h := ⟨h + layer_idx, h + position, h⟩
  attention query entries := (entries.map fun e => query * e.1 + e.2).sum
  mlp layer_idx h out := (h + layer_idx + out) % 10

/-- A small worker with two slots. -/
def shared : TokenLoop.Config :=
  { TokenLoop.small with max_slots := 2, slots_pos := Nat.two_pos }

/-- The token is the last hidden state with the draw on top. -/
def shared_machine : System (State Nat Nat Nat Nat Nat) (Label Nat) :=
  machine shared counting (paged_kernel counting.attention) fun h draw => h + draw

/-- A prompt in two chunks, with a pass for another slot in between. -/
theorem generated_of_two_slots : ∃ s slot,
    shared_machine.Reachable s ∧ s.slots 9 = some slot ∧ slot.generated_tokens = [8] ∧
      slot.generated_tokens =
        generate counting (fun h draw => h + draw) 1 (s.prompts 9) (s.draws 9) := by
  have hRun : (shared_machine.replay { attn := { cache := .new 1 2 2 4 } }
      [.accept 9 [1, 2, 3] 4, .accept 5 [4] 2, .enter 9, .layer, .leave 0,
        .enter 5, .layer, .leave 1, .enter 9, .layer, .leave 2]).map
          (fun s => (s.slots 9).map SlotState.generated_tokens) = some (some [8]) := by
    decide +kernel
  obtain ⟨s, hReplay, hEnd⟩ := Option.map_eq_some_iff.mp hRun
  obtain ⟨slot, hSlot, hTokens⟩ := Option.map_eq_some_iff.mp hEnd
  have run := System.reachable_of_replay (.start rfl) hReplay
  exact ⟨s, slot, run, hSlot, hTokens,
    (generated_of_prompt paged_kernel_documented (by decide) run hSlot).1⟩

end Run

end Worker.Forward
