import SwarmLoRA.Worker.Serving

namespace Worker.TokenLoop

open Machine

variable {cfg : Config} {slot_id : SlotId} {input : List TokenId} {s : State} {slot : SlotState}
  {turns : Nat → Turn}

/-- The run gives the answer in this slot after so many passes. -/
structure Answers (cfg : Config) (slot_id : SlotId) (s : State) (turns : Nat → Turn) (n : Nat)
    (slot : SlotState) : Prop where
  slot_eq : (s.run slot_id turns n).slot = some slot
  completed : slot.completed cfg = true
  first : ∀ m < n, (s.run slot_id turns m).completed cfg = false

/-- The generated tokens are the ones sampled from the last token of the prompt on, and the ones
sampled before it are dropped. -/
structure Sampled (input : List TokenId) (s : State) (slot : SlotState) : Prop where
  kept : ((s.samples.filter (·.kept)).map fun x => (x.token, x.position)) =
    slot.generated_tokens.zipIdx (input.length - 1)
  dropped : ∀ x ∈ s.samples, x.kept = false → x.position + 1 < input.length

/-- What the next pass asks of the cache and of the rotary table is there: blocks for its tokens,
and positions below `max_seq_len`. -/
structure WithinBudget (cfg : Config) (slot_id : SlotId) (s : State) (slot : SlotState)
    (cache : PagedKVCache) : Prop where
  ensured : s.cache.ensure_blocks_for_length slot_id
    ((s.cache.slot_seq_lens slot_id).getD 0 + slot.input_ids.length) = .ok cache
  table : cache.current_blocks slot_id ≤ cache.max_blocks_per_seq
  positions : ∀ position ∈ State.positions ((s.cache.slot_seq_lens slot_id).getD 0)
      slot.input_ids.length,
    position < cfg.max_seq_len ∧ position / cache.block_size < cache.current_blocks slot_id

/-- The most tokens that a request can get. -/
def answer_bound (cfg : Config) (prompt : List TokenId) (max_tokens : Int) : Nat :=
  min max_tokens.toNat (cfg.max_seq_len - min prompt.length (cfg.max_seq_len - 1))

theorem Serving.generated_ne_nil (h : Serving cfg slot_id input s slot)
    (hDone : slot.completed cfg = true) : slot.generated_tokens ≠ [] := by
  intro hNone
  have hLimit := h.limit_pos
  simp only [SlotState.completed, hNone, List.length_nil, List.getLast?_nil, Bool.or_false,
    decide_eq_true_eq] at hDone
  omega

/-- The last token of an answer is not fed. -/
theorem Serving.fed_of_completed (h : Serving cfg slot_id input s slot)
    (hDone : slot.completed cfg = true) :
    s.fed = place (input ++ slot.generated_tokens.dropLast) 0 := by
  have hSome := h.generated_ne_nil hDone
  have hChunks : slot.prefill_chunks = [] := by
    by_contra hMore
    exact hSome (h.fresh hMore)
  obtain ⟨done, hFed, hTokens⟩ := h.tokens
  have hLast : slot.generated_tokens.getLast?.toList = [slot.generated_tokens.getLast hSome] := by
    rw [List.getLast?_eq_getLast_of_ne_nil hSome]
    rfl
  have hSplit : input ++ slot.generated_tokens = input ++ slot.generated_tokens.dropLast ++
      [slot.generated_tokens.getLast hSome] := by
    rw [List.append_assoc, List.dropLast_append_getLast hSome]
  rw [hChunks, List.flatten_nil, List.append_nil, h.decode hSome, hLast, hSplit] at hTokens
  rw [hFed, List.append_cancel_right hTokens]

/-- A whole answer ends at its bound or with its only end of sequence. -/
theorem Serving.ends (h : Serving cfg slot_id input s slot) (hDone : slot.completed cfg = true) :
    slot.generated_tokens.length = slot.max_tokens ∨
      ∃ token, slot.generated_tokens.getLast? = some token ∧ cfg.eos_token_id = some token := by
  have hBounded := h.bounded
  unfold SlotState.completed at hDone
  rw [Bool.or_eq_true, decide_eq_true_eq] at hDone
  rcases hDone with hFull | hEos
  · exact .inl (Nat.le_antisymm hBounded hFull)
  · cases hLast : slot.generated_tokens.getLast? with
    | none =>
        rw [hLast] at hEos
        cases hEos
    | some token =>
        rw [hLast] at hEos
        exact .inr ⟨token, rfl, of_decide_eq_true hEos⟩

theorem Serving.withinBudget (h : Serving cfg slot_id input s slot)
    (hRunning : slot.completed cfg = false) : ∃ cache, WithinBudget cfg slot_id s slot cache := by
  obtain ⟨cache, hOk, hHeld, -⟩ := h.ensure hRunning
  have hLength := h.length_add_lt hRunning
  have hBlock : 0 < cache.block_size := hHeld.block_size_eq.symm ▸ cfg.block_pos
  refine ⟨cache, hOk, ?_, ?_⟩
  · rw [hHeld.current, hHeld.max_blocks, ← hHeld.block_size_eq]
    exact Nat.div_le_div_right (by omega)
  · intro position hMem
    rw [h.seq_len, Option.getD_some, positions_eq] at hMem
    obtain ⟨offset, hOffset, rfl⟩ := List.mem_map.mp hMem
    rw [List.mem_range] at hOffset
    refine ⟨by omega, ?_⟩
    rw [hHeld.current]
    unfold PagedKVCache.needed_blocks
    rw [Nat.div_lt_iff_lt_mul hBlock]
    have hCeil := Data.le_ceil_mul (s.fed.length + slot.input_ids.length) hBlock
    omega

/-- The blocks of a request come back when its slot is freed, so that the next request finds the
cache as this one did. -/
theorem Serving.rested (h : Serving cfg slot_id input s slot) :
    (s.teardown slot_id).cache.Rested cfg.block_size cfg.max_slots cfg.max_seq_len :=
  h.held.rested

theorem Serving.answers (h : Serving cfg slot_id input s slot)
    (hQuiet : ∀ i, (turns i).quiet = true) :
    ∃ n slot', Answers cfg slot_id s turns n slot' ∧
      Serving cfg slot_id input (s.run slot_id turns n) slot' ∧
      slot'.max_tokens = slot.max_tokens := by
  obtain ⟨slot', hServing, hDone, hLimit, hFirst⟩ := h.run_completes fun i _ => hQuiet i
  exact ⟨_, slot', ⟨hServing.slot_eq, hDone, hFirst⟩, hServing, hLimit⟩

/-- Whatever the sampled tokens are, a slot that is not torn down answers after some passes. Its
passes have fed the prompt, cut to what the cache is made for, and then the generated tokens but the
last, each once and at the next position; and the tokens that are kept are those sampled from the
last of the prompt on. -/
theorem chunked_prefill {cache : PagedKVCache} {prompt : List TokenId} {max_tokens : Int}
    (hAccept : s = accept cfg cache slot_id prompt max_tokens)
    (hRested : cache.Rested cfg.block_size cfg.max_slots cfg.max_seq_len)
    (hPrompt : prompt ≠ []) (hQuiet : ∀ i, (turns i).quiet = true) :
    ∃ n slot, Answers cfg slot_id s turns n slot ∧
      (s.run slot_id turns n).fed =
        place (cfg.truncate prompt ++ slot.generated_tokens.dropLast) 0 ∧
      Sampled (cfg.truncate prompt) (s.run slot_id turns n) slot := by
  obtain ⟨start, hServing, -, -⟩ := serving_accept max_tokens hRested hPrompt
  rw [← hAccept] at hServing
  obtain ⟨n, slot, hAnswers, hEnd, -⟩ := hServing.answers hQuiet
  exact ⟨n, slot, hAnswers, hEnd.fed_of_completed hAnswers.completed, hEnd.kept, hEnd.dropped⟩

/-- A worker for sequences of four tokens, in chunks and blocks of two. -/
def small : Config where
  eos_token_id := none
  num_layers := 1
  max_seq_len := 4
  prefill_chunk_size := 2
  block_size := 2
  max_slots := 1
  two_le_seq := by decide
  chunk_pos := by decide
  block_pos := by decide
  slots_pos := by decide

def small_turns (_ : Nat) : Turn := { token := 5 }

theorem chunked_prefill_three : ∃ n slot,
    Answers small 0 (accept small (.new 2 1 4) 0 [6, 7, 8] 1) small_turns n slot ∧
      ((accept small (.new 2 1 4) 0 [6, 7, 8] 1).run 0 small_turns n).fed =
        place (small.truncate [6, 7, 8] ++ slot.generated_tokens.dropLast) 0 ∧
      Sampled (small.truncate [6, 7, 8])
        ((accept small (.new 2 1 4) 0 [6, 7, 8] 1).run 0 small_turns n) slot :=
  chunked_prefill rfl PagedKVCache.rested_new (by decide) fun _ => rfl

/-- The only token of an answer is never fed. -/
theorem last_token_not_fed : ¬ ∀ (cfg : Config) (slot_id : SlotId) (cache : PagedKVCache)
    (prompt : List TokenId) (max_tokens : Int) (turns : Nat → Turn),
    cache.Rested cfg.block_size cfg.max_slots cfg.max_seq_len → prompt ≠ [] →
    (∀ i, (turns i).quiet = true) →
    ∃ n slot, Answers cfg slot_id (accept cfg cache slot_id prompt max_tokens) turns n slot ∧
      ((accept cfg cache slot_id prompt max_tokens).run slot_id turns n).fed =
        place (cfg.truncate prompt ++ slot.generated_tokens) 0 := by
  intro hAll
  obtain ⟨n, slot, hAnswers, hFed⟩ := hAll small 0 (.new 2 1 4) [7] 1 small_turns
    PagedKVCache.rested_new (by decide) fun _ => rfl
  have hSlot := hAnswers.slot_eq
  match n with
  | 0 =>
      have hDone := hAnswers.completed
      rw [← Option.some.inj hSlot] at hDone
      exact absurd hDone (by decide)
  | 1 =>
      rw [← Option.some.inj hSlot] at hFed
      exact absurd hFed (by decide)
  | n + 2 => exact absurd (hAnswers.first 1 (by omega)) (by decide)

/-- As long as other slots leave it the blocks it needs, each pass of a slot finds its blocks and
its positions in the rotary table. If it is not evicted either it answers, with one token at least
and `answer_bound` at most, and with fewer only after an end-of-sequence token. -/
theorem kv_budget {cache : PagedKVCache} {prompt : List TokenId} {max_tokens : Int}
    (hAccept : s = accept cfg cache slot_id prompt max_tokens)
    (hRested : cache.Rested cfg.block_size cfg.max_slots cfg.max_seq_len)
    (hPrompt : prompt ≠ []) (hSome : 1 ≤ max_tokens)
    (hAlone : ∀ i, (turns i).exhausted = false) :
    (∀ n slot, (∀ m ≤ n, (s.run slot_id turns m).completed cfg = false) →
        (s.run slot_id turns n).slot = some slot →
        ∃ cache', WithinBudget cfg slot_id (s.run slot_id turns n) slot cache') ∧
      ((∀ i, (turns i).evicted = false) →
        ∃ n slot, Answers cfg slot_id s turns n slot ∧
          1 ≤ slot.generated_tokens.length ∧
          slot.generated_tokens.length ≤ answer_bound cfg prompt max_tokens ∧
          (slot.generated_tokens.length = answer_bound cfg prompt max_tokens ∨
            ∃ token, slot.generated_tokens.getLast? = some token ∧
              cfg.eos_token_id = some token) ∧
          ∀ token ∈ slot.generated_tokens.dropLast, cfg.eos_token_id ≠ some token) := by
  obtain ⟨start, hServing, -, hLimit⟩ := serving_accept max_tokens hRested hPrompt
  rw [← hAccept] at hServing
  have hBound : start.max_tokens = answer_bound cfg prompt max_tokens := by
    have hLength := (truncate_eq cfg prompt).1
    have hPos : 0 < prompt.length := List.length_pos_of_ne_nil hPrompt
    rw [hLimit, hLength]
    unfold Config.requested answer_bound
    omega
  refine ⟨?_, ?_⟩
  · intro n slot hRunning hSlot
    rcases hServing.run n fun m hm => hRunning m (Nat.le_of_lt hm) with hNone | ⟨slot', hEnd⟩
    · rw [hNone] at hSlot
      cases hSlot
    · obtain rfl : slot' = slot := Option.some.inj (hEnd.slot_eq.symm.trans hSlot)
      exact hEnd.withinBudget (hEnd.completed_eq.symm.trans (hRunning n (Nat.le_refl n)))
  · intro hKept
    have hQuiet : ∀ i, (turns i).quiet = true := by
      intro i
      simp [Turn.quiet, hKept i, hAlone i]
    obtain ⟨n, slot, hAnswers, hEnd, hSame⟩ := hServing.answers hQuiet
    rw [← hBound, ← hSame]
    exact ⟨n, slot, hAnswers, List.length_pos_of_ne_nil (hEnd.generated_ne_nil hAnswers.completed),
      hEnd.bounded, hEnd.ends hAnswers.completed, hEnd.early⟩

theorem kv_budget_three :
    (∀ n slot, (∀ m ≤ n, ((accept small (.new 2 1 4) 0 [6, 7, 8] 9).run 0 small_turns m).completed
          small = false) →
        ((accept small (.new 2 1 4) 0 [6, 7, 8] 9).run 0 small_turns n).slot = some slot →
        ∃ cache, WithinBudget small 0
          ((accept small (.new 2 1 4) 0 [6, 7, 8] 9).run 0 small_turns n) slot cache) ∧
      ∃ n slot, Answers small 0 (accept small (.new 2 1 4) 0 [6, 7, 8] 9) small_turns n slot ∧
        1 ≤ slot.generated_tokens.length ∧
          slot.generated_tokens.length ≤ answer_bound small [6, 7, 8] 9 := by
  have hTurns : ∀ i, (small_turns i).exhausted = false := fun _ => rfl
  obtain ⟨hBudget, hAnswer⟩ := kv_budget (s := accept small (.new 2 1 4) 0 [6, 7, 8] 9) rfl
    PagedKVCache.rested_new (by decide) (by decide) hTurns
  obtain ⟨n, slot, hAnswers, hPos, hLe, -, -⟩ := hAnswer fun _ => rfl
  exact ⟨hBudget, n, slot, hAnswers, hPos, hLe⟩

/-- The slot of a reachable state is served. -/
theorem serving_of_reachable (hRun : (loop cfg slot_id).Reachable s) :
    s.slot = none ∨ ∃ input slot, Serving cfg slot_id input s slot := by
  refine hRun.invariant (fun s => s.slot = none ∨ ∃ input slot, Serving cfg slot_id input s slot)
    ?_ ?_
  · rintro s ⟨cache, prompt, max_tokens, hRested, hPrompt, rfl⟩
    obtain ⟨slot, hServing, -, -⟩ := serving_accept max_tokens hRested hPrompt
    exact .inr ⟨_, slot, hServing⟩
  · intro s turn s' hInv _ hStep
    simp only [loop, Option.ite_none_left_eq_some, Option.some.injEq] at hStep
    obtain ⟨hRunning, rfl⟩ := hStep
    rcases hInv with hNone | ⟨input, slot, hServing⟩
    · rw [generate_none hNone]
      exact .inl hNone
    · rw [Bool.not_eq_true, hServing.completed_eq] at hRunning
      rcases hServing.step hRunning with hNone | ⟨slot', hNext⟩
      · exact .inl hNone
      · exact .inr ⟨input, slot', hNext⟩

/-- The tight loop is left in time if and only if nothing tears the slot down before it is
completed, or something arrives from outside. -/
theorem leaves_iff {bound : Nat} (hRun : (loop cfg slot_id).Reachable s)
    (hSlot : s.slot = some slot) (hRunning : slot.completed cfg = false)
    (hBound : slot.max_tokens + slot.prefill_chunks.length ≤ bound) :
    (∃ n ≤ bound, s.leaves slot_id cfg turns n) ↔
      (∀ i < slot.passes_needed cfg fun i => (turns i).token, (turns i).quiet = true) ∨
        ∃ i < bound, (turns i).arrival = true := by
  obtain ⟨input, hServing⟩ : ∃ input, Serving cfg slot_id input s slot := by
    rcases serving_of_reachable hRun with hNone | ⟨input, slot', hServing⟩
    · rw [hNone] at hSlot
      cases hSlot
    · obtain rfl : slot' = slot := Option.some.inj (hServing.slot_eq.symm.trans hSlot)
      exact ⟨input, hServing⟩
  constructor
  · rintro ⟨n, hLe, m, rfl, hDone | hArrival⟩
    · exact .inl (hServing.quiet_of_completed (m + 1) hDone)
    · exact .inr ⟨m, hLe, hArrival⟩
  · rintro (hQuiet | ⟨m, hLt, hArrival⟩)
    · obtain ⟨slot', hEnd, hDone, -, -⟩ := hServing.run_completes hQuiet
      have hNeeded : slot.passes_needed cfg (fun i => (turns i).token) = _ :=
        SlotState.passes_needed_get_token hRunning
      exact ⟨_, Nat.le_trans SlotState.passes_needed_le hBound, _, hNeeded,
        .inl (hEnd.completed_eq.trans hDone)⟩
    · exact ⟨m + 1, hLt, m, rfl, .inr hArrival⟩

/-- A pass that finds its slot evicted. -/
def evicted_turns (i : Nat) : Turn := { token := 5, evicted := decide (i = 0) }

theorem leaves_iff_evicted :
    (∃ n ≤ 5, (accept small (.new 2 1 4) 0 [7] 1).leaves 0 small evicted_turns n) ↔
      (∀ i < 1, (evicted_turns i).quiet = true) ∨ ∃ i < 5, (evicted_turns i).arrival = true :=
  have hSlot : (accept small (.new 2 1 4) 0 [7] 1).slot =
      some { max_tokens := 1, prompt_tokens := 1, input_ids := [7] } := rfl
  leaves_iff (.start ⟨_, [7], 1, PagedKVCache.rested_new, by decide, rfl⟩) hSlot rfl (by decide)

/-- Once the only slot is evicted, the loop goes on for ever. -/
theorem evicted_slot_spins :
    (loop small 0).Reachable (accept small (.new 2 1 4) 0 [7] 1) ∧
      (evicted_turns 0).evicted = true ∧ (∀ i, (evicted_turns i).arrival = false) ∧
        ∀ n, ¬ (accept small (.new 2 1 4) 0 [7] 1).leaves 0 small evicted_turns n := by
  refine ⟨.start ⟨_, [7], 1, PagedKVCache.rested_new, by decide, rfl⟩, rfl, fun _ => rfl, ?_⟩
  rintro n ⟨m, rfl, hDone | hArrival⟩
  · have hNone : ((accept small (.new 2 1 4) 0 [7] 1).generate_one_token_all 0
        (evicted_turns 0)).slot = none := generate_torn rfl
    rw [run_succ_front] at hDone
    simp [State.completed, run_none hNone m] at hDone
  · cases hArrival

end Worker.TokenLoop
