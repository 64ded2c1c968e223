import Mathlib.Order.Bounds.Basic
import SwarmLoRA.Data.Rounding
import SwarmLoRA.Machine.System

/-! The queue in which the requests of a function wait for a batch, by fill or by expiry.
Requests are added at any time; what forms a batch holds the lock and takes them from the queue
one by one. -/
namespace Serverless.Batching

open Data Machine

structure BatchConfig where
  function_id : String
  base_ttft_ms : ℚ := 400
  marginal_cost_ms : ℚ := 50
  slo_ms : ℚ := 2000
  max_batch_size : Int := 16
  min_batch_delay_ms : ℚ := 50
  max_batch_delay_ms : ℚ := 250
  profiling_mode : Bool := false

namespace BatchConfig

variable (self : BatchConfig)

def compute_ttft (batch_size : Int) : ℚ :=
  self.base_ttft_ms + self.marginal_cost_ms * (batch_size - 1)

def compute_max_batch_size : Int :=
  if self.marginal_cost_ms ≤ 0 then self.max_batch_size
  else
    let max_b := truncate ((self.slo_ms - self.base_ttft_ms) / self.marginal_cost_ms) + 1
    min (max 1 max_b) self.max_batch_size

def compute_batch_delay (current_batch_size : Int) : ℚ :=
  let expected_ttft := self.compute_ttft current_batch_size
  let delay := self.slo_ms - expected_ttft
  max self.min_batch_delay_ms (min delay self.max_batch_delay_ms)

end BatchConfig

structure Batch (ρ : Type) where
  batch_id : String
  function_id : String
  requests : List ρ
  created_time : ℚ
  dispatch_time : Option ℚ

/-- The two calls that form batches. -/
inductive Call where
  | try_form_batch
  | force_dispatch
deriving DecidableEq

/-- Where the call is that holds the lock. -/
inductive Pc (ρ : Type) where
  | unlocked
  /-- before `self.queue.empty()` -/
  | looking (call : Call)
  /-- before `self.queue.get_nowait()` -/
  | taking (call : Call)
  | holding (call : Call) (req : ρ)
  /-- behind the loop -/
  | deciding (call : Call)

/-- `added` and `returned` are the history: the requests in the order in which they were added, and
the batches in the order in which they were formed, each with the call that formed it. -/
structure FunctionBatchQueue (ρ : Type) where
  queue : List ρ := []
  current_batch : List ρ := []
  batch_start_time : Option ℚ := none
  batch_counter : Nat := 0
  pc : Pc ρ := .unlocked
  added : List ρ := []
  returned : List (Call × Batch ρ) := []

/-- A move. The numbers are what the clock shows where the code reads it. -/
inductive Label (ρ : Type) where
  | add_request (request : ρ)
  | acquire (call : Call)
  | look
  | get_nowait
  | append (now : ℚ)
  | decide (now created_time dispatch_time : ℚ)

section Slices

variable {α : Type}

/-- Where the slices `l[:k]` and `l[k:]` meet. A negative `k` counts from the end. -/
def cut (l : List α) (k : Int) : Nat := if 0 ≤ k then k.toNat else (l.length + k).toNat

def slice_to (l : List α) (k : Int) : List α := l.take (cut l k)

def slice_from (l : List α) (k : Int) : List α := l.drop (cut l k)

theorem slice_to_append_slice_from (l : List α) (k : Int) : slice_to l k ++ slice_from l k = l :=
  List.take_append_drop _ l

theorem length_slice_to {l : List α} {k : Int} (hk : 0 ≤ k) (hLength : k < l.length) :
    ((slice_to l k).length : Int) = k := by
  rw [slice_to, cut, if_pos hk, List.length_take]
  omega

end Slices

variable {ρ : Type}

namespace FunctionBatchQueue

def add_request (self : FunctionBatchQueue ρ) (request : ρ) : FunctionBatchQueue ρ :=
  { self with
    queue := self.queue ++ [request]
    added := self.added ++ [request] }

/-- `current_batch.append(req)`. Only `try_form_batch` starts the timer. -/
def append (self : FunctionBatchQueue ρ) (call : Call) (req : ρ) (now : ℚ) :
    FunctionBatchQueue ρ :=
  { self with
    current_batch := self.current_batch ++ [req]
    batch_start_time :=
      if call = .try_form_batch ∧ self.batch_start_time = none then some now
      else self.batch_start_time
    pc := .looking call }

/-- The requests that are sent, the ones that are kept, and the timer. -/
def dispatch_reqs (self : FunctionBatchQueue ρ) (max_count : Option Int) :
    List ρ × List ρ × Option ℚ :=
  match max_count with
  | none => (self.current_batch, [], none)
  | some max_count =>
      if max_count ≠ 0 ∧ max_count < self.current_batch.length then
        (slice_to self.current_batch max_count, slice_from self.current_batch max_count,
          self.batch_start_time)
      else (self.current_batch, [], none)

/-- `_dispatch_batch`, at the end of the call that holds the lock. -/
def dispatch_batch (config : BatchConfig) (self : FunctionBatchQueue ρ) (call : Call)
    (max_count : Option Int) (created_time dispatch_time : ℚ) : FunctionBatchQueue ρ :=
  let (requests, rest, start) := self.dispatch_reqs max_count
  let batch : Batch ρ := {
    batch_id := config.function_id ++ "_batch_" ++ toString (self.batch_counter + 1)
    function_id := config.function_id
    requests := requests
    created_time := created_time
    dispatch_time := some dispatch_time }
  { self with
    current_batch := rest
    batch_start_time := start
    batch_counter := self.batch_counter + 1
    pc := .unlocked
    returned := self.returned ++ [(call, batch)] }

/-- The call returns `None`. -/
def return_none (self : FunctionBatchQueue ρ) : FunctionBatchQueue ρ :=
  { self with pc := .unlocked }

/-- The size that a call sends at most, or `none` if it sends nothing; the inner `none` is no
limit. -/
def decision (config : BatchConfig) (self : FunctionBatchQueue ρ) (call : Call) (now : ℚ) :
    Option (Option Int) :=
  if self.current_batch = [] then none
  else
    match call with
    | .force_dispatch => some none
    | .try_form_batch =>
        if config.profiling_mode then some none
        else
          let current_size : Int := self.current_batch.length
          let max_size := config.compute_max_batch_size
          if max_size ≤ current_size then some (some max_size)
          else
            match self.batch_start_time with
            | none => none
            | some batch_start_time =>
                let elapsed_ms := (now - batch_start_time) * 1000
                if config.compute_batch_delay current_size ≤ elapsed_ms then some none else none

def decide (config : BatchConfig) (self : FunctionBatchQueue ρ) (call : Call)
    (now created_time dispatch_time : ℚ) : FunctionBatchQueue ρ :=
  match self.decision config call now with
  | none => self.return_none
  | some max_count => self.dispatch_batch config call max_count created_time dispatch_time

end FunctionBatchQueue

def step (config : BatchConfig) (s : FunctionBatchQueue ρ) :
    Label ρ → Option (FunctionBatchQueue ρ)
  | .add_request request => some (s.add_request request)
  | .acquire call =>
      match s.pc with
      | .unlocked => some { s with pc := .looking call }
      | _ => none
  | .look =>
      match s.pc with
      | .looking call =>
          some { s with pc := if s.queue = [] then .deciding call else .taking call }
      | _ => none
  | .get_nowait =>
      match s.pc, s.queue with
      -- `queue.Empty`
      | .taking call, [] => some { s with pc := .deciding call }
      | .taking call, req :: queue => some { s with queue := queue, pc := .holding call req }
      | _, _ => none
  | .append now =>
      match s.pc with
      | .holding call req => some (s.append call req now)
      | _ => none
  | .decide now created_time dispatch_time =>
      match s.pc with
      | .deciding call => some (s.decide config call now created_time dispatch_time)
      | _ => none

def system (ρ : Type) (config : BatchConfig) : System (FunctionBatchQueue ρ) (Label ρ) where
  initial s := s = {}
  step := step config

/-- The request that has left the queue and is in no batch yet. -/
def Pc.hand : Pc ρ → List ρ
  | .holding _ req => [req]
  | _ => []

/-- Requests are sent in the order in which they were added, each once: what has been returned, what
is in the batch, what the call has in hand and what is in the queue make up what was added. -/
structure InOrder (s : FunctionBatchQueue ρ) : Prop where
  under_way : (s.returned.map (·.2.requests)).flatten ++ s.current_batch ++ s.pc.hand ++ s.queue =
    s.added
  at_rest : s.pc = .unlocked →
    (s.returned.map (·.2.requests)).flatten ++ s.current_batch ++ s.queue = s.added

/-- What every batch that was formed satisfies: it is not empty and, outside profiling,
`try_form_batch` makes none beyond the target. -/
structure WellSized (config : BatchConfig) (returned : List (Call × Batch ρ)) : Prop where
  nonempty : ∀ b ∈ returned, b.2.requests ≠ []
  limited : config.profiling_mode = false → ∀ b ∈ returned, b.1 = .try_form_batch →
    (b.2.requests.length : Int) ≤ config.compute_max_batch_size

/-- The sizes up to the cap that meet the target. -/
def BatchConfig.feasible (config : BatchConfig) : Set Int :=
  {b | 1 ≤ b ∧ b ≤ config.max_batch_size ∧ config.compute_ttft b ≤ config.slo_ms}

section Size

variable {config : BatchConfig}

theorem one_le_compute_max_batch_size (hCap : 1 ≤ config.max_batch_size) :
    1 ≤ config.compute_max_batch_size := by
  unfold BatchConfig.compute_max_batch_size
  split
  · exact hCap
  · exact le_min (le_max_left 1 _) hCap

theorem compute_ttft_le_iff (hMarginal : 0 < config.marginal_cost_ms) (b : Int) :
    config.compute_ttft b ≤ config.slo_ms ↔
      b ≤ ⌊(config.slo_ms - config.base_ttft_ms) / config.marginal_cost_ms⌋ + 1 := by
  have hShift : b ≤ ⌊(config.slo_ms - config.base_ttft_ms) / config.marginal_cost_ms⌋ + 1 ↔
      b - 1 ≤ ⌊(config.slo_ms - config.base_ttft_ms) / config.marginal_cost_ms⌋ := by omega
  rw [hShift, Int.le_floor, le_div_iff₀ hMarginal, BatchConfig.compute_ttft]
  push_cast
  constructor
  · intro h
    linarith
  · intro h
    linarith

/-- The bound is the largest size that meets the target, or one if no size does. -/
theorem compute_max_batch_size_spec (hCap : 1 ≤ config.max_batch_size)
    (hMarginal : 0 < config.marginal_cost_ms) :
    IsGreatest config.feasible config.compute_max_batch_size ∨
      (config.feasible = ∅ ∧ config.compute_max_batch_size = 1) := by
  have hSize : config.compute_max_batch_size = min (max 1 (truncate
      ((config.slo_ms - config.base_ttft_ms) / config.marginal_cost_ms) + 1))
        config.max_batch_size := by
    rw [BatchConfig.compute_max_batch_size, if_neg (not_le.mpr hMarginal)]
  by_cases hBase : 0 ≤ (config.slo_ms - config.base_ttft_ms) / config.marginal_cost_ms
  · have hFloor := Int.floor_nonneg.mpr hBase
    rw [truncate_of_nonneg hBase] at hSize
    refine .inl ⟨⟨?_, ?_, (compute_ttft_le_iff hMarginal _).mpr ?_⟩, fun b hb => ?_⟩
    · exact one_le_compute_max_batch_size hCap
    · rw [hSize]
      exact min_le_right _ _
    · omega
    · obtain ⟨hOne, hMax, hMeets⟩ := hb
      have hBound := (compute_ttft_le_iff hMarginal b).mp hMeets
      omega
  · have hNegative : ⌊(config.slo_ms - config.base_ttft_ms) / config.marginal_cost_ms⌋ < 0 :=
      Int.floor_lt.mpr (by simpa using hBase)
    refine .inr ⟨Set.eq_empty_of_forall_notMem fun b hb => ?_, ?_⟩
    · obtain ⟨hOne, -, hMeets⟩ := hb
      have hBound := (compute_ttft_le_iff hMarginal b).mp hMeets
      omega
    · have hCut : truncate ((config.slo_ms - config.base_ttft_ms) / config.marginal_cost_ms) ≤
          0 := by
        rw [truncate, if_neg hBase]
        exact Int.ceil_le.mpr (by simpa using (not_le.mp hBase).le)
      omega

end Size

section Steps

variable {config : BatchConfig} {s s' : FunctionBatchQueue ρ} {call : Call}
  {now created_time dispatch_time : ℚ}

/-- A dispatch splits the current batch. -/
theorem dispatch_reqs_append (max_count : Option Int) :
    (s.dispatch_reqs max_count).1 ++ (s.dispatch_reqs max_count).2.1 = s.current_batch := by
  cases max_count with
  | none => exact List.append_nil _
  | some max_count =>
      unfold FunctionBatchQueue.dispatch_reqs
      dsimp only
      split
      · exact slice_to_append_slice_from _ _
      · exact List.append_nil _

/-- The size of what is sent, where the size that is given is no more than what there is. -/
theorem length_dispatch_reqs {max_count : Int} (hPositive : 1 ≤ max_count)
    (hFull : max_count ≤ s.current_batch.length) :
    ((s.dispatch_reqs (some max_count)).1.length : Int) = max_count := by
  unfold FunctionBatchQueue.dispatch_reqs
  dsimp only
  split
  · rename_i hLess
    exact length_slice_to (by omega) hLess.2
  · rename_i hSame
    have hNot : ¬max_count < s.current_batch.length := fun hLess => hSame ⟨by omega, hLess⟩
    show (s.current_batch.length : Int) = max_count
    omega

/-- What a call sends is not empty, and what `try_form_batch` sends is within the bound. -/
theorem decision_spec (hCap : 1 ≤ config.max_batch_size) {max_count : Option Int}
    (hDecision : s.decision config call now = some max_count) :
    (s.dispatch_reqs max_count).1 ≠ [] ∧
      (config.profiling_mode = false → call = .try_form_batch →
        ((s.dispatch_reqs max_count).1.length : Int) ≤ config.compute_max_batch_size) := by
  unfold FunctionBatchQueue.decision at hDecision
  split at hDecision
  · cases hDecision
  · rename_i hSome
    cases call with
    | force_dispatch =>
        cases hDecision
        exact ⟨hSome, fun _ hCall => nomatch hCall⟩
    | try_form_batch =>
        dsimp only at hDecision
        split at hDecision
        · rename_i hProfiling
          cases hDecision
          exact ⟨hSome, fun hNot => absurd hProfiling (by simp [hNot])⟩
        · split at hDecision
          · rename_i hFull
            cases hDecision
            have hOne := one_le_compute_max_batch_size hCap
            have hLength := length_dispatch_reqs hOne hFull
            refine ⟨fun hNil => ?_, fun _ _ => hLength.le⟩
            rw [hNil] at hLength
            exact absurd hLength (by simp; omega)
          · rename_i hRoom
            -- the window has expired, with fewer requests than the bound allows
            have hBelow : (s.current_batch.length : Int) ≤ config.compute_max_batch_size := by
              omega
            split at hDecision
            · cases hDecision
            · split at hDecision
              · cases hDecision
                exact ⟨hSome, fun _ _ => hBelow⟩
              · cases hDecision

theorem InOrder.of_under_way
    (h : (s.returned.map (·.2.requests)).flatten ++ s.current_batch ++ s.pc.hand ++ s.queue =
      s.added) : InOrder s := by
  refine ⟨h, fun hPc => ?_⟩
  have hHand : s.pc.hand = [] := by
    rw [hPc]
    rfl
  rw [hHand, List.append_nil] at h
  exact h

theorem inOrder_decide (hPc : s.pc = .deciding call) (h : InOrder s) :
    InOrder (s.decide config call now created_time dispatch_time) := by
  have hOrder : (s.returned.map (·.2.requests)).flatten ++ s.current_batch ++ s.queue =
      s.added := by
    have hHand : s.pc.hand = [] := by
      rw [hPc]
      rfl
    have hAll := h.under_way
    rw [hHand, List.append_nil] at hAll
    exact hAll
  apply InOrder.of_under_way
  unfold FunctionBatchQueue.decide
  split
  · show _ ++ s.current_batch ++ [] ++ s.queue = s.added
    rw [List.append_nil]
    exact hOrder
  · rename_i max_count hDecision
    show ((s.returned ++ [(_, _)]).map _).flatten ++ (s.dispatch_reqs max_count).2.1 ++ [] ++
      s.queue = s.added
    rw [List.map_append, List.flatten_append, List.append_nil, ← hOrder]
    congr 1
    rw [List.append_assoc]
    congr 1
    show ((s.dispatch_reqs max_count).1 ++ []) ++ (s.dispatch_reqs max_count).2.1 = _
    rw [List.append_nil]
    exact dispatch_reqs_append max_count

theorem wellSized_decide (hCap : 1 ≤ config.max_batch_size) (h : WellSized config s.returned) :
    WellSized config (s.decide config call now created_time dispatch_time).returned := by
  unfold FunctionBatchQueue.decide
  split
  · exact h
  · rename_i max_count hDecision
    obtain ⟨hSome, hLimit⟩ := decision_spec hCap hDecision
    constructor
    · intro b hMem
      rcases List.mem_append.mp hMem with hOld | hNew
      · exact h.nonempty b hOld
      · rw [List.mem_singleton.mp hNew]
        exact hSome
    · intro hProfiling b hMem hCall
      rcases List.mem_append.mp hMem with hOld | hNew
      · exact h.limited hProfiling b hOld hCall
      · rw [List.mem_singleton.mp hNew] at hCall ⊢
        exact hLimit hProfiling hCall

/-- Only a decision forms batches. -/
theorem returned_of_step {l : Label ρ} (hStep : step config s l = some s') :
    s'.returned = s.returned ∨ ∃ call now created_time dispatch_time,
      s' = s.decide config call now created_time dispatch_time := by
  cases l with
  | add_request request =>
      cases hStep
      exact .inl rfl
  | acquire call | look | append now =>
      simp only [step] at hStep
      split at hStep
      · cases hStep
        exact .inl rfl
      · cases hStep
  | get_nowait =>
      simp only [step] at hStep
      split at hStep
      · cases hStep
        exact .inl rfl
      · cases hStep
        exact .inl rfl
      · cases hStep
  | decide now created_time dispatch_time =>
      simp only [step] at hStep
      split at hStep
      · rename_i call _
        cases hStep
        exact .inr ⟨call, now, created_time, dispatch_time, rfl⟩
      · cases hStep

theorem inOrder_step {l : Label ρ} (h : InOrder s) (hStep : step config s l = some s') :
    InOrder s' := by
  have hOrder := h.under_way
  cases l with
  | add_request request =>
      cases hStep
      apply InOrder.of_under_way
      show (s.returned.map (·.2.requests)).flatten ++ s.current_batch ++ s.pc.hand ++
        (s.queue ++ [request]) = s.added ++ [request]
      rw [← List.append_assoc, hOrder]
  | acquire call =>
      simp only [step] at hStep
      split at hStep
      · rename_i hPc
        cases hStep
        rw [hPc] at hOrder
        exact .of_under_way hOrder
      · cases hStep
  | look =>
      simp only [step] at hStep
      split at hStep
      · rename_i call hPc
        cases hStep
        rw [hPc] at hOrder
        apply InOrder.of_under_way
        dsimp only
        split
        · exact hOrder
        · exact hOrder
      · cases hStep
  | get_nowait =>
      simp only [step] at hStep
      split at hStep
      · rename_i call hPc hQueue
        cases hStep
        rw [hPc] at hOrder
        exact .of_under_way hOrder
      · rename_i call req queue hPc hQueue
        cases hStep
        rw [hPc, hQueue] at hOrder
        apply InOrder.of_under_way
        show _ ++ s.current_batch ++ [req] ++ queue = s.added
        rw [← hOrder]
        simp [Pc.hand]
      · cases hStep
  | append now =>
      simp only [step] at hStep
      split at hStep
      · rename_i call req hPc
        cases hStep
        rw [hPc] at hOrder
        apply InOrder.of_under_way
        show (s.returned.map (·.2.requests)).flatten ++ (s.current_batch ++ [req]) ++ [] ++
          s.queue = s.added
        rw [← hOrder]
        simp [Pc.hand]
      · cases hStep
  | decide now created_time dispatch_time =>
      simp only [step] at hStep
      split at hStep
      · rename_i call hPc
        cases hStep
        exact inOrder_decide hPc h
      · cases hStep

theorem inOrder_of_reachable (run : (system ρ config).Reachable s) : InOrder s := by
  refine run.invariant InOrder ?_ fun s l s' h _ hStep => inOrder_step h hStep
  rintro s rfl
  exact ⟨rfl, fun _ => rfl⟩

theorem wellSized_of_reachable (hCap : 1 ≤ config.max_batch_size)
    (run : (system ρ config).Reachable s) : WellSized config s.returned := by
  refine run.invariant (fun s => WellSized config s.returned) ?_ ?_
  · rintro s rfl
    exact ⟨fun _ hMem => absurd hMem List.not_mem_nil,
      fun _ _ hMem => absurd hMem List.not_mem_nil⟩
  · intro s l s' h _ hStep
    rcases returned_of_step hStep with hSame | ⟨call, now, created_time, dispatch_time, rfl⟩
    · exact hSame ▸ h
    · exact wellSized_decide hCap h

end Steps

/-- In every run, whoever adds requests and whoever forms batches, and whatever the clock shows,
requests are sent once and in order, in batches that are not empty and, outside profiling, as
large as the target allows at most. -/
theorem batches_partition {config : BatchConfig} (hCap : 1 ≤ config.max_batch_size)
    {s : FunctionBatchQueue ρ} (run : (system ρ config).Reachable s) :
    InOrder s ∧ WellSized config s.returned ∧
      (0 < config.marginal_cost_ms →
        IsGreatest config.feasible config.compute_max_batch_size ∨
          (config.feasible = ∅ ∧ config.compute_max_batch_size = 1)) :=
  ⟨inOrder_of_reachable run, wellSized_of_reachable hCap run, compute_max_batch_size_spec hCap⟩

/-- Two requests wait where only one of them can meet the target. -/
theorem batches_partition_two_requests :
    ∃ s, (system Nat { function_id := "f", slo_ms := 440 }).Reachable s ∧
      s.returned.map (·.2.requests) = [[7]] ∧ s.current_batch = [8] ∧
      InOrder s ∧ WellSized { function_id := "f", slo_ms := 440 } s.returned := by
  let M : System (FunctionBatchQueue Nat) (Label Nat) :=
    system Nat { function_id := "f", slo_ms := 440 }
  have hReplay : (M.replay {} [.add_request 7, .acquire .try_form_batch, .look, .get_nowait,
      .append 0, .add_request 8, .look, .get_nowait, .append 1, .look, .decide 2 2 2]).map
        (fun s => (s.returned.map (·.2.requests), s.current_batch)) = some ([[7]], [8]) := by
    decide +kernel
  obtain ⟨s, hRun, hSame⟩ := Option.map_eq_some_iff.mp hReplay
  obtain ⟨hReturned, hCurrent⟩ := Prod.mk.inj hSame
  have run : M.Reachable s := System.reachable_of_replay (.start rfl) hRun
  obtain ⟨hOrder, hSized, -⟩ := batches_partition (by decide) run
  exact ⟨s, run, hReturned, hCurrent, hOrder, hSized⟩

end Serverless.Batching
