import SwarmLoRA.Worker.TokenLoop

namespace Worker.TokenLoop

/-- The length of an answer of at most so many tokens, which ends with the first end of
sequence. -/
def answer_length (eos_token_id : Option TokenId) : Nat → (Nat → TokenId) → Nat
  | 0, _ => 0
  | left + 1, next_token =>
      if eos_token_id = some (next_token 0) then 1
      else 1 + answer_length eos_token_id left fun i => next_token (i + 1)

theorem answer_length_le (eos_token_id : Option TokenId) (left : Nat)
    (next_token : Nat → TokenId) : answer_length eos_token_id left next_token ≤ left := by
  induction left generalizing next_token with
  | zero => exact Nat.le_refl 0
  | succ left ih =>
      unfold answer_length
      split
      · omega
      · have hRest := ih fun i => next_token (i + 1)
        omega

theorem mem_dropLast_or_getLast {l : List TokenId} {token : TokenId} (hMem : token ∈ l) :
    token ∈ l.dropLast ∨ l.getLast? = some token := by
  obtain rfl | ⟨front, last, rfl⟩ := List.eq_nil_or_concat l
  · cases hMem
  · rw [List.concat_eq_append] at hMem ⊢
    rw [List.dropLast_concat, List.getLast?_concat]
    rw [List.mem_append, List.mem_singleton] at hMem
    exact hMem.imp_right fun hLast => congrArg some hLast.symm

namespace SlotState

variable {cfg : Config} {slot : SlotState} {next_token : Nat → TokenId}

/-- The passes that a slot needs before it is completed. -/
def passes_needed (cfg : Config) (slot : SlotState) (next_token : Nat → TokenId) : Nat :=
  if slot.completed cfg then 0
  else
    slot.prefill_chunks.length +
      answer_length cfg.eos_token_id (slot.max_tokens - slot.generated_tokens.length)
        fun i => next_token (slot.prefill_chunks.length + i)

theorem lt_of_not_completed (hRunning : slot.completed cfg = false) :
    slot.generated_tokens.length < slot.max_tokens := by
  unfold completed at hRunning
  rw [Bool.or_eq_false_iff, decide_eq_false_iff_not] at hRunning
  omega

theorem not_eos_of_not_completed (hRunning : slot.completed cfg = false) :
    ∀ token ∈ slot.generated_tokens.getLast?, cfg.eos_token_id ≠ some token := by
  intro token hLast
  unfold completed at hRunning
  rw [Bool.or_eq_false_iff] at hRunning
  rw [Option.mem_def] at hLast
  rw [hLast] at hRunning
  exact of_decide_eq_false hRunning.2

theorem passes_needed_le :
    slot.passes_needed cfg next_token ≤ slot.max_tokens + slot.prefill_chunks.length := by
  unfold passes_needed
  split
  · omega
  · have hLe := answer_length_le cfg.eos_token_id
      (slot.max_tokens - slot.generated_tokens.length)
      fun i => next_token (slot.prefill_chunks.length + i)
    omega

/-- Every pass brings the slot one pass closer to its completion. -/
theorem passes_needed_get_token (hRunning : slot.completed cfg = false) :
    slot.passes_needed cfg next_token =
      (slot.get_token (next_token 0)).passes_needed cfg (fun i => next_token (i + 1)) + 1 := by
  have hLeft := lt_of_not_completed hRunning
  cases hChunks : slot.prefill_chunks with
  | cons chunk rest =>
      have hSame : (slot.get_token (next_token 0)).completed cfg = false := by
        simpa [get_token, hChunks, completed] using hRunning
      simp only [passes_needed, hRunning, hSame, Bool.false_eq_true, if_false]
      simp only [get_token, hChunks, List.length_cons]
      simp only [Nat.add_right_comm _ 1]
  | nil =>
      obtain ⟨left, hSucc⟩ : ∃ left, slot.max_tokens - slot.generated_tokens.length = left + 1 :=
        ⟨slot.max_tokens - slot.generated_tokens.length - 1, by omega⟩
      have hNext : slot.max_tokens - (slot.generated_tokens.length + 1) = left := by omega
      by_cases hEos : cfg.eos_token_id = some (next_token 0)
      · have hDone : (slot.get_token (next_token 0)).completed cfg = true := by
          simp [get_token, hChunks, completed, hEos]
        simp [passes_needed, hRunning, hDone, hChunks, hSucc, answer_length, hEos]
      · by_cases hFull : left = 0
        · have hDone : (slot.get_token (next_token 0)).completed cfg = true := by
            simp only [get_token, hChunks, completed, List.length_append, List.length_singleton,
              Bool.or_eq_true, decide_eq_true_eq]
            omega
          simp [passes_needed, hRunning, hDone, hChunks, hSucc, answer_length, hEos, hFull]
        · have hMore : (slot.get_token (next_token 0)).completed cfg = false := by
            simp only [get_token, hChunks, completed, List.length_append, List.length_singleton,
              List.getLast?_concat, hEos, decide_false, Bool.or_false, decide_eq_false_iff_not]
            omega
          simp only [passes_needed, hRunning, hMore, Bool.false_eq_true, if_false]
          simp [get_token, hChunks, hSucc, hNext, answer_length, hEos, Nat.add_comm]

theorem get_token_max_tokens (token : TokenId) :
    (slot.get_token token).max_tokens = slot.max_tokens := by
  unfold get_token
  split <;> rfl

theorem completed_of_passes_needed (hZero : slot.passes_needed cfg next_token = 0) :
    slot.completed cfg = true := by
  cases hRunning : slot.completed cfg with
  | true => rfl
  | false =>
      rw [passes_needed_get_token hRunning] at hZero
      exact absurd hZero (Nat.succ_ne_zero _)

end SlotState

/-- What holds before every pass of a request for these tokens. `early` says that only the last
token can be the end of sequence. -/
structure Serving (cfg : Config) (slot_id : SlotId) (input : List TokenId) (s : State)
    (slot : SlotState) : Prop where
  slot_eq : s.slot = some slot
  prompt : input ≠ []
  limit_pos : 1 ≤ slot.max_tokens
  fits : input.length + slot.max_tokens ≤ cfg.max_seq_len
  next : slot.input_ids ≠ []
  chunks : ∀ chunk ∈ slot.prefill_chunks, chunk ≠ []
  fresh : slot.prefill_chunks ≠ [] → slot.generated_tokens = []
  decode : slot.generated_tokens ≠ [] → slot.input_ids = slot.generated_tokens.getLast?.toList
  tokens : ∃ done, s.fed = place done 0 ∧
    done ++ slot.input_ids ++ slot.prefill_chunks.flatten = input ++ slot.generated_tokens
  seq_len : s.cache.slot_seq_lens slot_id = some s.fed.length
  held : s.cache.Held cfg.block_size cfg.max_slots cfg.max_seq_len slot_id s.fed.length
  bounded : slot.generated_tokens.length ≤ slot.max_tokens
  early : ∀ token ∈ slot.generated_tokens.dropLast, cfg.eos_token_id ≠ some token
  kept : ((s.samples.filter (·.kept)).map fun x => (x.token, x.position)) =
    slot.generated_tokens.zipIdx (input.length - 1)
  dropped : ∀ x ∈ s.samples, x.kept = false → x.position + 1 < input.length

section Run

variable {cfg : Config} {slot_id : SlotId} {input : List TokenId} {s : State} {slot : SlotState}
  {turn : Turn} {turns : Nat → Turn}

theorem Serving.completed_eq (h : Serving cfg slot_id input s slot) :
    s.completed cfg = slot.completed cfg := by
  unfold State.completed
  rw [h.slot_eq]
  rfl

/-- The tokens that are in the cache and the ones of the next pass fit. -/
theorem Serving.length_add_lt (h : Serving cfg slot_id input s slot)
    (hRunning : slot.completed cfg = false) :
    s.fed.length + slot.input_ids.length < cfg.max_seq_len := by
  obtain ⟨done, hFed, hTokens⟩ := h.tokens
  have hLength := congrArg List.length hTokens
  simp only [List.length_append] at hLength
  have hLeft := SlotState.lt_of_not_completed hRunning
  have hFits := h.fits
  rw [hFed, length_place]
  omega

theorem Serving.ensure (h : Serving cfg slot_id input s slot)
    (hRunning : slot.completed cfg = false) :
    ∃ cache, s.cache.ensure_blocks_for_length slot_id
        ((s.cache.slot_seq_lens slot_id).getD 0 + slot.input_ids.length) = .ok cache ∧
      cache.Held cfg.block_size cfg.max_slots cfg.max_seq_len slot_id
        (s.fed.length + slot.input_ids.length) ∧
      cache.slot_seq_lens slot_id = some s.fed.length := by
  rw [h.seq_len]
  exact h.held.ensure cfg.block_pos cfg.slots_pos h.seq_len (Nat.le_add_right _ _)
    (Nat.le_of_lt (h.length_add_lt hRunning))

theorem generate_quiet {cache : PagedKVCache} (hSlot : s.slot = some slot)
    (hQuiet : turn.quiet = true)
    (hOk : s.cache.ensure_blocks_for_length slot_id
      ((s.cache.slot_seq_lens slot_id).getD 0 + slot.input_ids.length) = .ok cache) :
    s.generate_one_token_all slot_id turn = s.forward slot_id turn slot cache := by
  simp only [Turn.quiet, Bool.and_eq_true, Bool.not_eq_true'] at hQuiet
  simp [State.generate_one_token_all, State.blocks, hSlot, hQuiet.1, hQuiet.2, hOk]

/-- An eviction or blocks that are not to be had end the slot. -/
theorem generate_torn (hTorn : turn.quiet = false) :
    (s.generate_one_token_all slot_id turn).slot = none := by
  simp only [Turn.quiet, Bool.and_eq_false_iff, Bool.not_eq_false'] at hTorn
  unfold State.generate_one_token_all
  cases hSlot : s.slot with
  | none => exact hSlot
  | some slot =>
      by_cases hEvicted : turn.evicted = true
      · simp [hEvicted, State.teardown]
      · have hExhausted : turn.exhausted = true := hTorn.resolve_left hEvicted
        simp [hEvicted, hExhausted, State.blocks, State.teardown]

theorem generate_none (hNone : s.slot = none) : s.generate_one_token_all slot_id turn = s := by
  unfold State.generate_one_token_all
  rw [hNone]

/-- A pass that nothing stops. -/
theorem Serving.pass (h : Serving cfg slot_id input s slot)
    (hRunning : slot.completed cfg = false) (hQuiet : turn.quiet = true) :
    Serving cfg slot_id input (s.generate_one_token_all slot_id turn)
      (slot.get_token turn.token) := by
  obtain ⟨cache, hOk, hHeld, hSeq⟩ := h.ensure hRunning
  obtain ⟨done, hFed, hTokens⟩ := h.tokens
  have hLength := congrArg List.length hTokens
  simp only [List.length_append] at hLength
  have hWidth : 0 < slot.input_ids.length := List.length_pos_of_ne_nil h.next
  rw [generate_quiet h.slot_eq hQuiet hOk]
  have hRows : (s.forward slot_id turn slot cache).fed = place (done ++ slot.input_ids) 0 := by
    have hStart : done.length = s.fed.length := by rw [hFed, length_place]
    simp only [State.forward, hSeq, Option.getD_some, rows_eq]
    rw [place_append, Nat.zero_add, hStart, ← hFed]
  have hRowsLength : (s.forward slot_id turn slot cache).fed.length =
      s.fed.length + slot.input_ids.length := by
    rw [hRows, length_place, List.length_append, hFed, length_place]
  have hSeqLen : (s.forward slot_id turn slot cache).cache.slot_seq_lens slot_id =
      some (s.forward slot_id turn slot cache).fed.length := by
    rw [hRowsLength]
    simp [State.forward, PagedKVCache.advance_seq_lens_by, hSeq]
  have hSlot : (s.forward slot_id turn slot cache).slot = some (slot.get_token turn.token) := rfl
  have hSamples : (s.forward slot_id turn slot cache).samples = s.samples ++
      [⟨turn.token, done.length + slot.input_ids.length - 1, slot.prefill_chunks.isEmpty⟩] := by
    simp [State.forward, hSeq, hFed, length_place]
  have hHeld' : (s.forward slot_id turn slot cache).cache.Held cfg.block_size cfg.max_slots
      cfg.max_seq_len slot_id (s.forward slot_id turn slot cache).fed.length := by
    rw [hRowsLength]
    exact hHeld.advance _
  cases hChunks : slot.prefill_chunks with
  | cons chunk rest =>
      -- The sampled token is dropped, and the pass ended before the end of the prompt.
      have hNone : slot.generated_tokens = [] := h.fresh (by simp [hChunks])
      have hChunk : chunk ≠ [] := h.chunks chunk (by simp [hChunks])
      have hNext : slot.get_token turn.token =
          { slot with input_ids := chunk, prefill_chunks := rest } := by
        simp only [SlotState.get_token, hChunks]
      rw [hChunks, hNone, List.append_nil, List.flatten_cons] at hTokens
      rw [hChunks, List.isEmpty_cons] at hSamples
      rw [hChunks, hNone] at hLength
      rw [hNext] at hSlot ⊢
      refine ⟨hSlot, h.prompt, h.limit_pos, h.fits, hChunk, ?_, fun _ => hNone, fun hSome => absurd hNone hSome,
        ⟨done ++ slot.input_ids, hRows, ?_⟩, hSeqLen, hHeld', h.bounded, h.early, ?_, ?_⟩
      · intro c hMem
        exact h.chunks c (by rw [hChunks]; exact List.mem_cons_of_mem _ hMem)
      · simp only [hNone, List.append_nil, ← hTokens, List.append_assoc]
      · rw [hSamples, List.filter_append, List.map_append, h.kept]
        simp
      · intro x hMem hDropped
        rw [hSamples, List.mem_append, List.mem_singleton] at hMem
        rcases hMem with hOld | hNew
        · exact h.dropped x hOld hDropped
        · have hPos : 0 < chunk.length := List.length_pos_of_ne_nil hChunk
          rw [hNew]
          simp only [List.flatten_cons, List.length_append, List.length_nil] at hLength
          change done.length + slot.input_ids.length - 1 + 1 < input.length
          omega
  | nil =>
      have hNext : slot.get_token turn.token =
          { slot with
            generated_tokens := slot.generated_tokens ++ [turn.token]
            input_ids := [turn.token] } := by
        simp only [SlotState.get_token, hChunks]
      rw [hChunks, List.flatten_nil, List.append_nil] at hTokens
      rw [hChunks, List.isEmpty_nil] at hSamples
      rw [hChunks] at hLength
      rw [hNext] at hSlot ⊢
      refine ⟨hSlot, h.prompt, h.limit_pos, h.fits, List.cons_ne_nil _ _, ?_, fun hSome => absurd hChunks hSome,
        fun _ => ?_, ⟨done ++ slot.input_ids, hRows, ?_⟩, hSeqLen, hHeld', ?_, ?_, ?_, ?_⟩
      · simp [hChunks]
      · simp
      · simp [hChunks, hTokens]
      · have hLeft := SlotState.lt_of_not_completed hRunning
        simp only [List.length_append, List.length_singleton]
        omega
      · intro token hMem
        rw [List.dropLast_concat] at hMem
        rcases mem_dropLast_or_getLast hMem with hOld | hLast
        · exact h.early token hOld
        · exact SlotState.not_eos_of_not_completed hRunning token hLast
      · have hPrompt : 0 < input.length := List.length_pos_of_ne_nil h.prompt
        have hRow : done.length + slot.input_ids.length - 1 =
            input.length - 1 + slot.generated_tokens.length := by
          simp only [List.flatten_nil, List.length_nil] at hLength
          omega
        rw [hSamples, List.filter_append, List.map_append, h.kept, List.zipIdx_append, hRow]
        rfl
      · intro x hMem hDropped
        rw [hSamples, List.mem_append, List.mem_singleton] at hMem
        rcases hMem with hOld | hNew
        · exact h.dropped x hOld hDropped
        · rw [hNew] at hDropped
          cases hDropped

/-- Whatever a pass meets, the slot is either served on or gone. -/
theorem Serving.step (h : Serving cfg slot_id input s slot)
    (hRunning : slot.completed cfg = false) :
    (s.generate_one_token_all slot_id turn).slot = none ∨
      ∃ slot', Serving cfg slot_id input (s.generate_one_token_all slot_id turn) slot' := by
  cases hTurn : turn.quiet with
  | true => exact .inr ⟨_, h.pass hRunning hTurn⟩
  | false => exact .inl (generate_torn hTurn)

/-- The first pass needs the first chunk of the truncated prompt. -/
theorem serving_accept {cache : PagedKVCache} {prompt : List TokenId} (max_tokens : Int)
    (hRested : cache.Rested cfg.block_size cfg.max_slots cfg.max_seq_len)
    (hPrompt : prompt ≠ []) :
    ∃ slot, Serving cfg slot_id (cfg.truncate prompt)
        (accept cfg cache slot_id prompt max_tokens) slot ∧
      slot.generated_tokens = [] ∧
      slot.max_tokens =
        min (cfg.requested max_tokens) (cfg.max_seq_len - (cfg.truncate prompt).length) := by
  have hTwo := cfg.two_le_seq
  have hLength := (truncate_eq cfg prompt).1
  have hPos : 0 < prompt.length := List.length_pos_of_ne_nil hPrompt
  have hSome : cfg.truncate prompt ≠ [] := List.ne_nil_of_length_pos (by omega)
  obtain ⟨hFlatten, hNonempty, hPieces⟩ := pieces_eq cfg hSome
  obtain ⟨first, rest, hCons⟩ := List.exists_cons_of_ne_nil hPieces
  have hRequested : 1 ≤ cfg.requested max_tokens := by
    unfold Config.requested
    omega
  rw [hCons] at hFlatten hNonempty
  refine ⟨_, ⟨rfl, hSome, ?_, ?_, ?_, ?_, fun _ => rfl, fun hGenerated => absurd rfl hGenerated,
    ⟨[], rfl, ?_⟩, ?_, hRested.held cfg.block_pos, Nat.zero_le _, ?_, rfl, ?_⟩, rfl, rfl⟩
  · change 1 ≤ min _ _
    omega
  · change (cfg.truncate prompt).length + min _ _ ≤ cfg.max_seq_len
    omega
  · change (cfg.pieces (cfg.truncate prompt)).headD [] ≠ []
    rw [hCons]
    exact hNonempty first (List.mem_cons_self ..)
  · change ∀ chunk ∈ (cfg.pieces (cfg.truncate prompt)).tail, chunk ≠ []
    rw [hCons]
    exact fun chunk hMem => hNonempty chunk (List.mem_cons_of_mem _ hMem)
  · change (cfg.pieces (cfg.truncate prompt)).headD [] ++
      (cfg.pieces (cfg.truncate prompt)).tail.flatten = cfg.truncate prompt ++ []
    rw [hCons, List.append_nil]
    exact hFlatten
  · exact Function.update_self _ _ _
  · intro token hMem
    cases hMem
  · intro x hMem
    cases hMem

theorem run_succ_front (n : Nat) :
    s.run slot_id turns (n + 1) =
      (s.generate_one_token_all slot_id (turns 0)).run slot_id (fun i => turns (i + 1)) n := by
  induction n with
  | zero => rfl
  | succ n ih => exact congrArg (·.generate_one_token_all slot_id (turns (n + 1))) ih

theorem run_none (hNone : s.slot = none) (n : Nat) : (s.run slot_id turns n).slot = none := by
  induction n with
  | zero => exact hNone
  | succ n ih =>
      have hSame : s.run slot_id turns (n + 1) = s.run slot_id turns n := generate_none ih
      rw [hSame]
      exact ih

/-- Along the passes up to the completion the slot is either served on or gone. -/
theorem Serving.run (h : Serving cfg slot_id input s slot) (n : Nat)
    (hRunning : ∀ m < n, (s.run slot_id turns m).completed cfg = false) :
    (s.run slot_id turns n).slot = none ∨
      ∃ slot', Serving cfg slot_id input (s.run slot_id turns n) slot' := by
  induction n with
  | zero => exact .inr ⟨slot, h⟩
  | succ n ih =>
      rcases ih fun m hm => hRunning m (Nat.lt_succ_of_lt hm) with hNone | ⟨slot', hServing⟩
      · have hSame : s.run slot_id turns (n + 1) = s.run slot_id turns n := generate_none hNone
        rw [hSame]
        exact .inl hNone
      · have hMore := hRunning n (Nat.lt_succ_self n)
        rw [hServing.completed_eq] at hMore
        exact hServing.step hMore

/-- Without an eviction and with blocks for its tokens, a slot is completed after as many passes
as it needs, and not before. -/
theorem Serving.run_completes (h : Serving cfg slot_id input s slot)
    (hQuiet : ∀ i < slot.passes_needed cfg (fun i => (turns i).token), (turns i).quiet = true) :
    ∃ slot', Serving cfg slot_id input
        (s.run slot_id turns (slot.passes_needed cfg fun i => (turns i).token)) slot' ∧
      slot'.completed cfg = true ∧ slot'.max_tokens = slot.max_tokens ∧
      ∀ m < slot.passes_needed cfg (fun i => (turns i).token),
        (s.run slot_id turns m).completed cfg = false := by
  generalize hNeeded : slot.passes_needed cfg (fun i => (turns i).token) = needed at hQuiet ⊢
  induction needed generalizing s slot turns with
  | zero =>
      exact ⟨slot, h, SlotState.completed_of_passes_needed hNeeded, rfl,
        fun m hm => absurd hm (Nat.not_lt_zero m)⟩
  | succ needed ih =>
      have hRunning : slot.completed cfg = false := by
        by_contra hDone
        rw [Bool.not_eq_false] at hDone
        simp [SlotState.passes_needed, hDone] at hNeeded
      have hPass := h.pass hRunning (hQuiet 0 (Nat.succ_pos _))
      rw [SlotState.passes_needed_get_token hRunning, Nat.add_right_cancel_iff] at hNeeded
      obtain ⟨slot', hServing, hDone, hLimit, hBefore⟩ :=
        ih hPass hNeeded fun i hi => hQuiet (i + 1) (Nat.succ_lt_succ hi)
      refine ⟨slot', ?_, hDone, ?_, ?_⟩
      · rw [run_succ_front]
        exact hServing
      · rw [hLimit, SlotState.get_token_max_tokens]
      · intro m hm
        cases m with
        | zero => exact h.completed_eq.trans hRunning
        | succ m =>
            rw [run_succ_front]
            exact hBefore m (Nat.lt_of_succ_lt_succ hm)

/-- A slot that is completed some time has met no eviction and has had its blocks. -/
theorem Serving.quiet_of_completed (h : Serving cfg slot_id input s slot) (n : Nat)
    (hDone : (s.run slot_id turns n).completed cfg = true) :
    ∀ i < slot.passes_needed cfg (fun i => (turns i).token), (turns i).quiet = true := by
  induction n generalizing s slot turns with
  | zero =>
      have hSlot : slot.completed cfg = true := h.completed_eq.symm.trans hDone
      intro i hi
      simp [SlotState.passes_needed, hSlot] at hi
  | succ n ih =>
      intro i hi
      cases hRunning : slot.completed cfg with
      | true => simp [SlotState.passes_needed, hRunning] at hi
      | false =>
          rw [run_succ_front] at hDone
          have hFirst : (turns 0).quiet = true := by
            by_contra hTorn
            rw [Bool.not_eq_true] at hTorn
            have hNone : (s.generate_one_token_all slot_id (turns 0)).slot = none :=
              generate_torn hTorn
            simp [State.completed, run_none hNone n] at hDone
          rw [SlotState.passes_needed_get_token hRunning] at hi
          cases i with
          | zero => exact hFirst
          | succ i => exact ih (h.pass hRunning hFirst) hDone i (Nat.lt_of_succ_lt_succ hi)

end Run

end Worker.TokenLoop
