import Mathlib.Data.Fin.Tuple.Sort
import Mathlib.Data.Matrix.Mul
import SwarmLoRA.Aggregator.SlotMemory
import SwarmLoRA.Data.Softmax
import SwarmLoRA.Ipc.SlotSets

/-! The distribution that the next token of each slot is drawn from. Logits and probabilities
are real numbers here. -/
namespace Aggregator.Sampling

open Ipc Data
open scoped BigOperators

/-- What a worker has set for its sampling. -/
structure WorkerSamplingState where
  do_sample : Bool := false
  temperature : ℝ := 1
  top_k : Int := 0
  top_p : ℝ := 1

/-- What the kernels of torch do with a row. Which of several equal entries comes first is left
to them. -/
structure Torch (vocab : Nat) where
  argmax : (Fin vocab → ℝ) → Fin vocab
  argmax_spec : ∀ (logits : Fin vocab → ℝ) (i : Fin vocab), logits i ≤ logits (argmax logits)
  /-- Descending. -/
  sort : (Fin vocab → WithBot ℝ) → Equiv.Perm (Fin vocab)
  sort_spec : ∀ logits : Fin vocab → WithBot ℝ, Antitone (logits ∘ sort logits)

variable {vocab hidden_dim : Nat}

/-- `torch::where` with minus infinity. -/
noncomputable def remove (logits : Fin vocab → WithBot ℝ) (removed : Fin vocab → Prop)
    [DecidablePred removed] : Fin vocab → WithBot ℝ := fun i => if removed i then ⊥ else logits i

/-- What is not removed keeps its value. -/
def Removes (y z : Fin vocab → WithBot ℝ) : Prop := ∀ i, z i = y i ∨ z i = ⊥

/-- What is removed gets minus infinity. -/
theorem removes_remove (y : Fin vocab → WithBot ℝ) (removed : Fin vocab → Prop)
    [DecidablePred removed] : Removes y (remove y removed) := by
  intro i
  unfold remove
  split
  · exact .inr rfl
  · exact .inl rfl

theorem removes_refl (y : Fin vocab → WithBot ℝ) : Removes y y := fun _ => .inl rfl

/-- Removing twice is removing. -/
theorem Removes.trans {x y z : Fin vocab → WithBot ℝ} (h : Removes x y) (h' : Removes y z) :
    Removes x z := by
  intro i
  rcases h' i with hSame | hGone
  · exact hSame ▸ h i
  · exact .inr hGone

/-- What stays is as it was. -/
theorem remove_ne_bot {y : Fin vocab → WithBot ℝ} {removed : Fin vocab → Prop}
    [DecidablePred removed] {i : Fin vocab} (hStays : ¬ removed i) (hi : y i ≠ ⊥) :
    remove y removed i ≠ ⊥ := by
  unfold remove
  rw [if_neg hStays]
  exact hi

variable [NeZero vocab] (torch : Torch vocab)

section Filter

variable (state : WorkerSamplingState) (logits : Fin vocab → WithBot ℝ)

/-- The temperature that the logits are divided by. -/
noncomputable def effective_temperature : ℝ :=
  if state.temperature < 1 / 100 then 1 / 100 else state.temperature

/-- Entries below the `top_k`-th largest one are removed. -/
noncomputable def top_k_filter : Fin vocab → WithBot ℝ :=
  if h : 0 < state.top_k ∧ state.top_k < vocab then
    let threshold := logits (torch.sort logits ⟨(state.top_k - 1).toNat, by omega⟩)
    remove logits fun i => logits i < threshold
  else logits

/-- Entries are removed from where the probabilities of the largest ones add up to more than
`top_p`, but never the first one. -/
noncomputable def top_p_filter : Fin vocab → WithBot ℝ :=
  open Classical in
  if state.top_p < 1 then
    let sorted_indices := torch.sort logits
    let probs := softmax (logits ∘ sorted_indices)
    let cumulative_probs := fun m => ∑ k ∈ Finset.Iic m, probs k
    remove logits fun i =>
      sorted_indices.symm i ≠ 0 ∧ state.top_p < cumulative_probs (sorted_indices.symm i)
  else logits

/-- The logits of one row that the token is drawn with. -/
noncomputable def filtered (logits : Fin vocab → ℝ) : Fin vocab → WithBot ℝ :=
  top_p_filter torch state (top_k_filter torch state fun i =>
    ((logits i / effective_temperature state : ℝ) : WithBot ℝ))

/-- Probabilities of the next token. -/
noncomputable def next_tokens (logits : Fin vocab → ℝ) : Fin vocab → ℝ :=
  if state.do_sample then softmax (filtered torch state logits)
  else Pi.single (torch.argmax logits) 1

end Filter

/-- What `execute_batched_lm_head_sample_slots` reads besides the commands and the pool. Logits are
real numbers here, with no rounding of the dtype. -/
structure Model (vocab hidden_dim : Nat) where
  lm_head_weight_t : Matrix (Fin hidden_dim) (Fin vocab) ℝ
  /-- The rows of the input buffer of each slot. -/
  input_buffer : Int → Nat → Fin hidden_dim → ℝ
  worker_sampling_state : Int → Option WorkerSamplingState

namespace Model

variable (model : Model vocab hidden_dim)

/-- What is stored for a worker, or greedy defaults. -/
def sampling_state (worker_id : Int) : WorkerSamplingState :=
  (model.worker_sampling_state worker_id).getD {}

/-- The row of the last token of a command. -/
def last_hidden (c : Command) : Fin hidden_dim → ℝ := model.input_buffer c.slot_id (tokens c - 1)

/-- The logits of a command's row. -/
noncomputable def logits (c : Command) : Fin vocab → ℝ :=
  Matrix.vecMul (model.last_hidden c) model.lm_head_weight_t

end Model

/-- The slots that are written, each with the distribution of its token. A batch of one has a path
of its own. -/
noncomputable def execute_batched_lm_head_sample_slots (e : Executor)
    (model : Model vocab hidden_dim) (commands : List Command) :
    Except String (List (Int × (Fin vocab → ℝ))) :=
  match (Aggregator.execute_batched_lm_head_sample_slots e commands).error with
  | some error => .error error
  | none =>
      if e.embed_lm_head_initialized = false then .ok []
      else
        match commands with
        | [] => .ok []
        | [c] => .ok [(c.slot_id, next_tokens torch (model.sampling_state c.worker_id)
            (model.logits c))]
        | first :: rest =>
            let commands := first :: rest
            let state := model.sampling_state first.worker_id
            let last_hidden : Matrix (Fin commands.length) (Fin hidden_dim) ℝ :=
              Matrix.of fun i => model.last_hidden commands[i]
            let logits := last_hidden * model.lm_head_weight_t
            .ok (List.ofFn fun i : Fin commands.length =>
              (commands[i].slot_id, next_tokens torch state (logits i)))

section Kept

variable (state : WorkerSamplingState)

/-- The tokens that the filters of a worker keep. -/
def kept (logits : Fin vocab → ℝ) : Set (Fin vocab) := {i | filtered torch state logits i ≠ ⊥}

variable {torch state}

omit [NeZero vocab] in
/-- The top-k filter only removes. -/
theorem removes_top_k_filter (y : Fin vocab → WithBot ℝ) :
    Removes y (top_k_filter torch state y) := by
  unfold top_k_filter
  split
  · exact removes_remove _ _
  · exact removes_refl y

/-- So does the top-p filter. -/
theorem removes_top_p_filter (y : Fin vocab → WithBot ℝ) :
    Removes y (top_p_filter torch state y) := by
  unfold top_p_filter
  split
  · exact removes_remove _ _
  · exact removes_refl y

/-- The tokens that are kept are those that are not minus infinity. -/
theorem mem_kept {logits : Fin vocab → ℝ} {i : Fin vocab} :
    i ∈ kept torch state logits ↔ filtered torch state logits i ≠ ⊥ := Iff.rfl

/-- A token that is kept has its logit over the temperature. -/
theorem filtered_of_mem_kept {logits : Fin vocab → ℝ} {i : Fin vocab}
    (hKept : i ∈ kept torch state logits) :
    filtered torch state logits i = ((logits i / effective_temperature state : ℝ) : WithBot ℝ) := by
  have hRemoves : Removes (fun i => ((logits i / effective_temperature state : ℝ) : WithBot ℝ))
      (filtered torch state logits) :=
    (removes_top_k_filter _).trans (removes_top_p_filter _)
  exact (hRemoves i).resolve_right hKept

/-- The others are. -/
theorem filtered_of_not_mem_kept {logits : Fin vocab → ℝ} {i : Fin vocab}
    (hGone : i ∉ kept torch state logits) : filtered torch state logits i = ⊥ :=
  not_not.mp hGone

/-- The largest entry is in the first place. -/
theorem le_first (y : Fin vocab → WithBot ℝ) (i : Fin vocab) : y i ≤ y (torch.sort y 0) := by
  have hLe := torch.sort_spec y (Fin.zero_le ((torch.sort y).symm i))
  simpa using hLe

/-- The top-k filter keeps a token. -/
theorem top_k_filter_ne_bot {y : Fin vocab → WithBot ℝ} (hAll : ∀ i, y i ≠ ⊥) :
    ∃ i, top_k_filter torch state y i ≠ ⊥ := by
  refine ⟨torch.sort y 0, ?_⟩
  unfold top_k_filter
  split
  · exact remove_ne_bot (not_lt.mpr (torch.sort_spec y (Fin.zero_le _))) (hAll _)
  · exact hAll _

/-- So does the top-p filter. -/
theorem top_p_filter_ne_bot {y : Fin vocab → WithBot ℝ} (hSome : ∃ i, y i ≠ ⊥) :
    ∃ i, top_p_filter torch state y i ≠ ⊥ := by
  obtain ⟨i, hi⟩ := hSome
  have hFirst : y (torch.sort y 0) ≠ ⊥ := by
    intro hBot
    exact hi (le_bot_iff.mp (hBot ▸ le_first y i))
  refine ⟨torch.sort y 0, ?_⟩
  unfold top_p_filter
  split
  · exact remove_ne_bot (fun h => h.1 ((torch.sort y).symm_apply_apply 0)) hFirst
  · exact hFirst

/-- Some token can be drawn. -/
theorem kept_nonempty (logits : Fin vocab → ℝ) : (kept torch state logits).Nonempty :=
  top_p_filter_ne_bot (top_k_filter_ne_bot fun _ => WithBot.coe_ne_bot)

/-- Without filters every token is kept. -/
theorem kept_eq_univ {logits : Fin vocab → ℝ} (hTopK : state.top_k ≤ 0) (hTopP : 1 ≤ state.top_p) :
    kept torch state logits = Set.univ := by
  ext i
  simp only [mem_kept, Set.mem_univ, iff_true]
  unfold filtered top_p_filter top_k_filter
  rw [if_neg (not_lt.mpr hTopP), dif_neg (fun h => absurd h.1 (not_lt.mpr hTopK))]
  exact WithBot.coe_ne_bot

/-- What is drawn from is a distribution. -/
theorem sum_next_tokens (logits : Fin vocab → ℝ) :
    (∀ i, 0 ≤ next_tokens torch state logits i) ∧ ∑ i, next_tokens torch state logits i = 1 := by
  unfold next_tokens
  split
  · exact ⟨softmax_nonneg, sum_softmax (kept_nonempty logits)⟩
  · refine ⟨fun i => ?_, ?_⟩
    · rw [Pi.single_apply]
      split
      · exact zero_le_one
      · exact le_refl 0
    · simp

end Kept

/-- Two workers draw alike from these logits: both take the largest one, or one of them does and
the other one keeps no other token, or both keep the same tokens and do not weigh them
differently. -/
def Agree (state state' : WorkerSamplingState) (logits : Fin vocab → ℝ) : Prop :=
  match state.do_sample, state'.do_sample with
  | false, false => True
  | false, true => kept torch state' logits = {torch.argmax logits}
  | true, false => kept torch state logits = {torch.argmax logits}
  | true, true => kept torch state logits = kept torch state' logits ∧
      (effective_temperature state = effective_temperature state' ∨
        ∀ i ∈ kept torch state logits, ∀ j ∈ kept torch state logits, logits i = logits j)

section Agree

variable {torch} {state state' : WorkerSamplingState} {logits : Fin vocab → ℝ}

/-- A token is drawn for sure exactly if it is the only one that is kept. -/
theorem softmax_filtered_eq_single {a : Fin vocab} :
    softmax (filtered torch state logits) = Pi.single a 1 ↔ kept torch state logits = {a} := by
  rw [← softmax_point a, softmax_eq_iff (kept_nonempty logits) ⟨a, by simp⟩]
  constructor
  · rintro ⟨c, hc⟩
    ext i
    rw [Set.mem_singleton_iff, mem_kept, hc i]
    by_cases hi : i = a
    · simp [hi]
    · simp [hi]
  · intro hKept
    have hMem : a ∈ kept torch state logits := hKept ▸ Set.mem_singleton a
    refine ⟨logits a / effective_temperature state, fun i => ?_⟩
    by_cases hi : i = a
    · rw [hi, filtered_of_mem_kept hMem, if_pos rfl]
      simp
    · have hGone : i ∉ kept torch state logits := by
        rw [hKept]
        exact hi
      rw [filtered_of_not_mem_kept hGone, if_neg hi]
      simp

/-- Two states give one distribution exactly if they keep the same tokens and divide by
temperatures that make no difference to these. -/
theorem softmax_filtered_eq_iff :
    softmax (filtered torch state logits) = softmax (filtered torch state' logits) ↔
      kept torch state logits = kept torch state' logits ∧
        (effective_temperature state = effective_temperature state' ∨
          ∀ i ∈ kept torch state logits, ∀ j ∈ kept torch state logits, logits i = logits j) := by
  rw [softmax_eq_iff (kept_nonempty logits) (kept_nonempty logits)]
  constructor
  · rintro ⟨c, hc⟩
    have hSame : kept torch state logits = kept torch state' logits := by
      ext i
      rw [mem_kept, mem_kept, hc i]
      simp
    have hShift : ∀ i ∈ kept torch state logits, logits i / effective_temperature state =
        logits i / effective_temperature state' + c := by
      intro i hi
      have hi' := hc i
      rw [filtered_of_mem_kept hi, filtered_of_mem_kept (hSame ▸ hi)] at hi'
      exact_mod_cast hi'
    refine ⟨hSame, or_iff_not_imp_left.mpr fun hNe i hi j hj => ?_⟩
    have hInv : (effective_temperature state)⁻¹ - (effective_temperature state')⁻¹ ≠ 0 :=
      sub_ne_zero.mpr fun h => hNe (inv_injective h)
    have hi' := hShift i hi
    have hj' := hShift j hj
    rw [div_eq_mul_inv, div_eq_mul_inv] at hi' hj'
    refine mul_right_cancel₀ hInv ?_
    rw [mul_sub, mul_sub]
    linarith
  · rintro ⟨hSame, hWeigh⟩
    obtain ⟨a, ha⟩ : (kept torch state logits).Nonempty := kept_nonempty logits
    refine ⟨logits a / effective_temperature state - logits a / effective_temperature state',
      fun i => ?_⟩
    by_cases hi : i ∈ kept torch state logits
    · rw [filtered_of_mem_kept hi, filtered_of_mem_kept (hSame ▸ hi)]
      have hShift : logits i / effective_temperature state =
          logits i / effective_temperature state' +
            (logits a / effective_temperature state - logits a / effective_temperature state') := by
        rcases hWeigh with hTemperature | hEqual
        · rw [hTemperature]
          ring
        · rw [hEqual i hi a ha]
          ring
      exact_mod_cast hShift
    · rw [filtered_of_not_mem_kept hi, filtered_of_not_mem_kept (hSame ▸ hi)]
      simp

/-- And the next tokens agree exactly if the states do. -/
theorem next_tokens_eq_iff :
    next_tokens torch state logits = next_tokens torch state' logits ↔
      Agree torch state state' logits := by
  unfold next_tokens Agree
  cases state.do_sample with
  | false =>
      cases state'.do_sample with
      | false => simp
      | true =>
          simp only [Bool.false_eq_true, if_false, if_true]
          exact eq_comm.trans softmax_filtered_eq_single
  | true =>
      cases state'.do_sample with
      | false =>
          simp only [Bool.false_eq_true, if_false, if_true]
          exact softmax_filtered_eq_single
      | true =>
          simp only [if_true]
          exact softmax_filtered_eq_iff

end Agree

section Pending

variable (pool : SlotPool) (pending_sampling : Slot → WorkerSamplingState)

/-- What a slot has pending is stored for its owner, if it has one. -/
def store_pending (stored : Int → Option WorkerSamplingState) (slot : Slot) :
    Int → Option WorkerSamplingState :=
  if 0 ≤ pool.owner_worker_id slot then
    Function.update stored (pool.owner_worker_id slot) (some (pending_sampling slot))
  else stored

/-- The pending mask and what is stored for the workers, after the slots of a mask have joined. The
source takes them from the lowest one up. -/
def apply_pending_sampling_states (pending_sampling_mask join_mask : SlotMask)
    (stored : Int → Option WorkerSamplingState) :
    SlotMask × (Int → Option WorkerSamplingState) :=
  let to_apply := pending_sampling_mask &&& join_mask
  (pending_sampling_mask &&& ~~~to_apply,
    ((List.finRange MAX_SLOTS).filter to_apply.test_bit).foldl
      (store_pending pool pending_sampling) stored)

variable {pool pending_sampling}

/-- What is stored is what the loop over the lowest slots stores. -/
theorem drain_store_pending {pending_sampling_mask join_mask : SlotMask} {fuel : Nat}
    (hFuel : (pending_sampling_mask &&& join_mask).popcount ≤ fuel)
    (stored : Int → Option WorkerSamplingState) :
    (pending_sampling_mask &&& join_mask).drain (store_pending pool pending_sampling) fuel stored =
      some (apply_pending_sampling_states pool pending_sampling pending_sampling_mask join_mask
        stored).2 := by
  rw [SlotMask.drain_eq, if_pos hFuel, SlotMask.slots_sort]
  rfl

/-- Only the slots of the worker get its state. -/
theorem foldl_store_pending_other {worker_id : Int} {slots : List Slot}
    (hOther : ∀ slot ∈ slots, pool.owner_worker_id slot ≠ worker_id)
    (stored : Int → Option WorkerSamplingState) :
    slots.foldl (store_pending pool pending_sampling) stored worker_id = stored worker_id := by
  induction slots generalizing stored with
  | nil => rfl
  | cons slot rest ih =>
      rw [List.foldl_cons, ih fun s hs => hOther s (List.mem_cons_of_mem _ hs)]
      unfold store_pending
      split
      · exact Function.update_of_ne (hOther slot (List.mem_cons_self ..)).symm _ _
      · rfl

/-- A worker that joins with one slot is sampled with what it has left pending for that slot. -/
theorem apply_pending_sampling_states_joined {pending_sampling_mask join_mask : SlotMask}
    {slot : Slot} (stored : Int → Option WorkerSamplingState)
    (hJoins : (pending_sampling_mask &&& join_mask).test_bit slot = true)
    (hOwner : 0 ≤ pool.owner_worker_id slot)
    (hOnly : ∀ other, (pending_sampling_mask &&& join_mask).test_bit other = true →
      pool.owner_worker_id other = pool.owner_worker_id slot → other = slot) :
    (apply_pending_sampling_states pool pending_sampling pending_sampling_mask join_mask
      stored).2 (pool.owner_worker_id slot) = some (pending_sampling slot) := by
  have hMem : slot ∈ (List.finRange MAX_SLOTS).filter
      (pending_sampling_mask &&& join_mask).test_bit := by
    rw [List.mem_filter]
    exact ⟨List.mem_finRange slot, hJoins⟩
  obtain ⟨before, after, hSplit⟩ := List.append_of_mem hMem
  have hNodup := (List.nodup_finRange MAX_SLOTS).filter
    (pending_sampling_mask &&& join_mask).test_bit
  rw [hSplit] at hNodup
  have hAfter : ∀ other ∈ after, pool.owner_worker_id other ≠ pool.owner_worker_id slot := by
    intro other hOther hSame
    have hIn : other ∈ (List.finRange MAX_SLOTS).filter
        (pending_sampling_mask &&& join_mask).test_bit := by
      rw [hSplit]
      exact List.mem_append_right _ (List.mem_cons_of_mem _ hOther)
    obtain rfl : other = slot := hOnly other (List.mem_filter.mp hIn).2 hSame
    exact (List.nodup_cons.mp (List.nodup_append.mp hNodup).2.1).1 hOther
  unfold apply_pending_sampling_states
  simp only
  rw [hSplit, List.foldl_append, List.foldl_cons, foldl_store_pending_other hAfter]
  unfold store_pending
  rw [if_pos hOwner]
  exact Function.update_self _ _ _

end Pending

/-- Each slot of the batch gets the distribution that its command gets in a batch of its own. -/
def SampledAsAlone (e : Executor) (model : Model vocab hidden_dim) (commands : List Command) :
    Prop :=
  ∃ outputs, execute_batched_lm_head_sample_slots torch e model commands = .ok outputs ∧
    ∀ (i : Nat) (c : Command), commands[i]? = some c → ∃ output, outputs[i]? = some output ∧
      execute_batched_lm_head_sample_slots torch e model [c] = .ok [output]

section Batch

variable {torch} {e : Executor} {model : Model vocab hidden_dim} {commands : List Command}

/-- With accepted commands of owned slots the executor raises nothing. -/
theorem error_none (hAccepted : ∀ c ∈ commands, submit_slot_command_check c = .ok ())
    (hOwned : ¬ Disowned e.pool commands) :
    (Aggregator.execute_batched_lm_head_sample_slots e commands).error = none := by
  unfold Aggregator.execute_batched_lm_head_sample_slots
  cases commands with
  | nil => rfl
  | cons first rest =>
      have hWorker := (submit_slot_command_check_ok (hAccepted first (List.mem_cons_self ..))).2.1
      simp only
      split
      · rfl
      · rw [if_neg (by omega), (first_failure_none hAccepted).mpr hOwned]
        rfl

/-- A command that is executed alone is sampled by the state of its own worker. -/
theorem execute_alone {c : Command} (hInit : e.embed_lm_head_initialized = true)
    (hAccepted : submit_slot_command_check c = .ok ()) (hOwned : ¬ Disowned e.pool [c]) :
    execute_batched_lm_head_sample_slots torch e model [c] =
      .ok [(c.slot_id, next_tokens torch (model.sampling_state c.worker_id) (model.logits c))] := by
  have hError : (Aggregator.execute_batched_lm_head_sample_slots e [c]).error = none :=
    error_none (by simpa using hAccepted) hOwned
  unfold execute_batched_lm_head_sample_slots
  rw [hError]
  simp [hInit]

/-- The batch is sampled with what is stored for the worker of its first command. -/
theorem execute_batch {first : Command} {rest : List Command}
    (hInit : e.embed_lm_head_initialized = true)
    (hAccepted : ∀ c ∈ first :: rest, submit_slot_command_check c = .ok ())
    (hOwned : ¬ Disowned e.pool (first :: rest)) :
    execute_batched_lm_head_sample_slots torch e model (first :: rest) =
      .ok ((first :: rest).map fun c =>
        (c.slot_id, next_tokens torch (model.sampling_state first.worker_id) (model.logits c))) := by
  cases rest with
  | nil => exact execute_alone hInit (hAccepted first (List.mem_cons_self ..)) hOwned
  | cons second rest =>
      unfold execute_batched_lm_head_sample_slots
      rw [error_none hAccepted hOwned]
      simp only [hInit, Bool.true_eq_false, if_false, Except.ok.injEq]
      simp only [Matrix.mul_apply_eq_vecMul]
      exact List.ofFn_getElem_eq_map _ fun c => (c.slot_id,
        next_tokens torch (model.sampling_state first.worker_id) (model.logits c))

/-- Sampling as alone, said of the next tokens. -/
theorem sampled_as_alone_iff_next_tokens {first : Command} {rest : List Command}
    (hInit : e.embed_lm_head_initialized = true)
    (hAccepted : ∀ c ∈ first :: rest, submit_slot_command_check c = .ok ())
    (hOwned : ¬ Disowned e.pool (first :: rest)) :
    SampledAsAlone torch e model (first :: rest) ↔
      ∀ c ∈ first :: rest,
        next_tokens torch (model.sampling_state first.worker_id) (model.logits c) =
          next_tokens torch (model.sampling_state c.worker_id) (model.logits c) := by
  have hAlone : ∀ c ∈ first :: rest, execute_batched_lm_head_sample_slots torch e model [c] =
      .ok [(c.slot_id, next_tokens torch (model.sampling_state c.worker_id) (model.logits c))] := by
    intro c hMem
    refine execute_alone hInit (hAccepted c hMem) ?_
    rintro ⟨c', hMem', hBad⟩
    obtain rfl : c' = c := List.mem_singleton.mp hMem'
    exact hOwned ⟨c', hMem, hBad⟩
  unfold SampledAsAlone
  rw [execute_batch hInit hAccepted hOwned]
  constructor
  · rintro ⟨outputs, hOutputs, hEach⟩ c hMem
    obtain ⟨i, hi⟩ := List.mem_iff_getElem?.mp hMem
    obtain ⟨output, hOutput, hOk⟩ := hEach i c hi
    rw [← Except.ok.inj hOutputs, List.getElem?_map, hi, Option.map_some,
      Option.some.injEq] at hOutput
    have hSame := (hAlone c hMem).symm.trans hOk
    rw [← hOutput, Except.ok.injEq, List.cons.injEq, Prod.mk.injEq] at hSame
    exact hSame.1.2.symm
  · intro hSame
    refine ⟨_, rfl, fun i c hi => ?_⟩
    have hMem : c ∈ first :: rest := List.mem_of_getElem? hi
    refine ⟨_, by rw [List.getElem?_map, hi, Option.map_some], ?_⟩
    rw [hSame c hMem]
    exact hAlone c hMem

/-- The slots of a batch are sampled as each would be alone if and only if the worker of the first
command draws from the logits of every slot as the worker of that slot does. -/
theorem sampled_as_alone_iff {first : Command} {rest : List Command}
    (hInit : e.embed_lm_head_initialized = true)
    (hAccepted : ∀ c ∈ first :: rest, submit_slot_command_check c = .ok ())
    (hOwned : ¬ Disowned e.pool (first :: rest)) :
    SampledAsAlone torch e model (first :: rest) ↔
      ∀ c ∈ first :: rest, Agree torch (model.sampling_state first.worker_id)
        (model.sampling_state c.worker_id) (model.logits c) := by
  rw [sampled_as_alone_iff_next_tokens hInit hAccepted hOwned]
  simp only [next_tokens_eq_iff]

end Batch

/-- Kernels that keep the order of equal entries. -/
noncomputable def Torch.stable (vocab : Nat) [NeZero vocab] : Torch vocab where
  argmax logits := Tuple.sort (fun i => OrderDual.toDual (logits i)) 0
  argmax_spec logits i := by
    have hLe := Tuple.monotone_sort (fun i => OrderDual.toDual (logits i))
      (Fin.zero_le ((Tuple.sort fun i => OrderDual.toDual (logits i)).symm i))
    simpa using hLe
  sort logits := Tuple.sort fun i => OrderDual.toDual (logits i)
  sort_spec logits _ _ hLe := Tuple.monotone_sort (fun i => OrderDual.toDual (logits i)) hLe

/-- Two slots, each of a worker of its own. -/
def pair_executor : Executor where
  pool := {
    num_slots := 2, hidden_dim := 1, intermediate_dim := 1, qkv_dim := 1, max_seq_per_step := 1
    input_buffer_size := 8, output_buffer_size := 8
    free_mask := .zero, active_mask := .all_below 2
    owner_worker_id := fun slot => slot.val + 1 }
  num_layers := 1
  layer_weights := fun _ => ⟨1, 1, 1, 1, 1⟩
  embed_lm_head_initialized := true
  element_size := 2

/-- A command for the last operation of a slot. -/
def lm_head_command (slot_id : Int) : Command :=
  ⟨OP_LM_HEAD, 0, slot_id, slot_id + 1, 1, 1, 1, 0, 0, 0, 0, 0⟩

/-- All logits are equal. The first worker has stored nothing, the second one samples. -/
def pair_model : Model 2 1 where
  lm_head_weight_t := 0
  input_buffer := fun _ _ _ => 0
  worker_sampling_state := fun worker_id => if worker_id = 2 then some { do_sample := true } else none

/-- Two rows are sampled as alone exactly if the state of each worker agrees with that of the
first one. -/
theorem sampled_as_alone_iff_pair :
    SampledAsAlone (Torch.stable 2) pair_executor pair_model
        [lm_head_command 0, lm_head_command 1] ↔
      ∀ c ∈ [lm_head_command 0, lm_head_command 1], Agree (Torch.stable 2)
        (pair_model.sampling_state 1) (pair_model.sampling_state c.worker_id)
        (pair_model.logits c) :=
  sampled_as_alone_iff rfl (by decide) (by unfold Disowned; decide)

/-- The second worker samples, but its slot gets the argmax. -/
theorem second_worker_greedy :
    (∀ c ∈ [lm_head_command 0, lm_head_command 1], submit_slot_command_check c = .ok ()) ∧
      ¬ Disowned pair_executor.pool [lm_head_command 0, lm_head_command 1] ∧
        ¬ SampledAsAlone (Torch.stable 2) pair_executor pair_model
          [lm_head_command 0, lm_head_command 1] := by
  have hAccepted : ∀ c ∈ [lm_head_command 0, lm_head_command 1],
      submit_slot_command_check c = .ok () := by decide
  have hOwned : ¬ Disowned pair_executor.pool [lm_head_command 0, lm_head_command 1] := by
    unfold Disowned
    decide
  refine ⟨hAccepted, hOwned, ?_⟩
  rw [sampled_as_alone_iff_next_tokens rfl hAccepted hOwned]
  intro hSame
  have hAgree : Agree (Torch.stable 2) {} { do_sample := true }
      (pair_model.logits (lm_head_command 1)) :=
    next_tokens_eq_iff.mp (hSame (lm_head_command 1) (by simp))
  have hSingle : kept (Torch.stable 2) { do_sample := true }
      (pair_model.logits (lm_head_command 1)) = {_} := hAgree
  rw [kept_eq_univ (le_refl 0) (le_refl 1)] at hSingle
  have hZero : (0 : Fin 2) ∈ Set.univ := Set.mem_univ 0
  have hOne : (1 : Fin 2) ∈ Set.univ := Set.mem_univ 1
  rw [hSingle, Set.mem_singleton_iff] at hZero hOne
  exact absurd (hZero.trans hOne.symm) (by decide)

end Aggregator.Sampling
