import SwarmLoRA.Slora.RouterProgress

namespace Slora

open Data

/-- With nothing running, the queue hands something over unless all that waits is aborted. -/
def Scheduler.Eager {σ : Type} (S : Scheduler σ) (limits : Limits) (Inv : σ → Prop) : Prop :=
  ∀ (lora_ranks : Ranks) q q', Inv q → Scan.Verified (S.waiting_req_list q) →
    (∀ req ∈ S.waiting_req_list q, Admitted limits lora_ranks [] [req]) →
    S.generate_new_batch lora_ranks q none = some (q', none) →
    ∀ req ∈ S.waiting_req_list q, req.aborted = true

theorem ReqQueue.eager (limits : Limits) :
    (ReqQueue.scheduler limits).Eager limits fun _ => True := by
  intro lora_ranks waiting waiting' _ hVerified hFits hGenerate
  obtain ⟨taken, rest, rfl, hStop, ⟨hNone, -, -⟩ | ⟨-, hSome, -, -⟩⟩ :=
    generate_new_batch_spec hVerified
      (show Unfinished (running_reqs none) from fun _ hReq => absurd hReq List.not_mem_nil) rfl
      hGenerate
  · rw [hNone] at hStop
    cases rest with
    | nil =>
        intro req hReq
        have : req ∈ taken := by simpa [ReqQueue.scheduler] using hReq
        simpa using List.filter_eq_nil_iff.mp hNone req this
    | cons req later =>
        have hFirst : req ∈ taken ++ req :: later := List.mem_append_right _ List.mem_cons_self
        exact absurd (hFits req hFirst) (hStop req later rfl).2
  · cases hSome

namespace RouterManager

variable {σ V : Type} {setup : Setup σ V} {Inv : σ → Prop} {self self' : RouterManager σ V}
  {reqs reqs' others : List Req} {batch new : Batch} {jobs : List Peak.Job}

open ModelRpcServer (cells_of)

/-- How many tokens the requests may yet ask for. -/
def todo (reqs : List Req) : Nat :=
  (reqs.map fun req => req.max_output_len - req.output_ids.length).sum

/-- How many calls there are until the next pass at most. -/
def calls_left : Phase → Nat
  | .dead => 0
  | .prefill => 1
  | .decode _ => 1
  | .init => 2
  | .prefetch _ => 2
  | .load => 3
  | .top => 4
  | .merge => 5
  | .offload_all _ => 5
  | .settle => 6
  | .settle_running _ => 6
  | .offload _ => 7

def measure (setup : Setup σ V) (router : RouterManager σ V) : Nat :=
  todo (router.present setup) * 8 + calls_left router.pc

/-- Nothing is run, and only aborted requests wait. -/
def Drained (setup : Setup σ V) (router : RouterManager σ V) : Prop :=
  router.running ++ router.joining = [] ∧ ∀ req ∈ router.waiting setup, req.aborted = true

/-! ### What is left to do -/

@[simp] theorem todo_append : todo (reqs ++ reqs') = todo reqs + todo reqs' := by
  simp [todo]

theorem todo_perm (hPerm : reqs.Perm reqs') : todo reqs = todo reqs' :=
  (hPerm.map _).sum_eq

theorem todo_sublist (hSub : reqs.Sublist reqs') : todo reqs ≤ todo reqs' :=
  (hSub.map _).sum_le_sum fun _ _ => Nat.zero_le _

/-- A pass brings every request of the batch closer to its end. -/
theorem todo_goes_on (setup : Setup σ V) (hSome : batch.reqs ≠ [])
    (hUnfinished : Unfinished batch.reqs) :
    todo (batch.goes_on setup).reqs < todo batch.reqs := by
  refine (todo_sublist List.filter_sublist).trans_lt ?_
  generalize batch.reqs = reqs at hSome hUnfinished
  have hFewer : ∀ reqs, Unfinished reqs →
      todo (reqs.map setup.go_on) + reqs.length = todo reqs := by
    intro reqs hReqs
    induction reqs with
    | nil => rfl
    | cons req reqs ih =>
        have hFirst := hReqs req List.mem_cons_self
        have hRest := ih fun other hOther => hReqs other (List.mem_cons_of_mem _ hOther)
        have hGrown : (setup.go_on req).output_ids = req.output_ids ++ [setup.next_token req] := rfl
        have hMax : (setup.go_on req).max_output_len = req.max_output_len := rfl
        simp only [todo, List.map_cons, List.sum_cons, List.length_cons, hGrown, hMax,
          List.length_append, List.length_nil] at hRest ⊢
        omega
  have := hFewer reqs hUnfinished
  have := List.length_pos_iff.mpr hSome
  omega

theorem filter_running_batch_same (setup : Setup σ V) (self : RouterManager σ V)
    (has_wait_tokens : Nat) :
    (self.filter_running_batch has_wait_tokens).present setup = self.present setup ∧
      calls_left (self.filter_running_batch has_wait_tokens).pc ≤ 5 := by
  unfold filter_running_batch
  split
  · exact ⟨rfl, Nat.le_succ 4⟩
  · split
    · exact ⟨rfl, le_refl 5⟩
    · exact ⟨rfl, Nat.le_succ 4⟩

theorem prefilled_same (setup : Setup σ V) (self : RouterManager σ V) :
    self.prefilled.present setup = self.present setup ∧ calls_left self.prefilled.pc ≤ 5 := by
  unfold prefilled
  split
  · rename_i mini_batch hMini
    split
    · rename_i hClear
      have hNone : mini_batch.reqs = [] := by simpa [Batch.is_clear] using hClear
      have hJoining : self.joining = [] := by rw [joining, hMini]; exact hNone
      refine ⟨?_, Nat.le_succ 4⟩
      rw [present, present, hJoining]
      rfl
    · exact ⟨rfl, le_refl 5⟩
  · exact filter_running_batch_same setup self 0

theorem measure_filter_running_batch (has_wait_tokens : Nat) :
    (self.filter_running_batch has_wait_tokens).measure setup ≤
      todo (self.present setup) * 8 + 5 := by
  obtain ⟨hPresent, hCalls⟩ := filter_running_batch_same setup self has_wait_tokens
  rw [measure, hPresent]
  omega

theorem measure_prefilled :
    self.prefilled.measure setup ≤ todo (self.present setup) * 8 + 5 := by
  obtain ⟨hPresent, hCalls⟩ := prefilled_same setup self
  rw [measure, hPresent]
  omega

/-- The batch that has been run has less to do, and nothing else has changed. -/
theorem todo_answer (is_prefill : Bool) {worker : ModelRpcServer V} {finished : Bool}
    {req_ans : List (String × Token)} {outs : List TokenOut} (h : self.Base setup Inv)
    (hIncoming : self.Incoming setup new
      [⟨new.batch_id, !is_prefill, new.reqs.map Req.text⟩] true jobs)
    (hSome : new.reqs ≠ []) (hUnfinished : Unfinished new.reqs)
    (hForward : self.worker.forward setup.model new.batch_id is_prefill = some (worker, req_ans))
    (hTake : take_answer setup new req_ans = some (batch, finished, outs)) :
    todo ((self.set_incoming batch).present setup) < todo (self.present setup) := by
  obtain ⟨rfl, -, -⟩ := taken_eq h hIncoming hForward hTake
  have hLess := todo_goes_on setup hSome hUnfinished
  have hWaiting : (self.set_incoming (new.goes_on setup)).waiting setup = self.waiting setup := by
    unfold waiting set_incoming
    split <;> rfl
  rw [present, present, incoming_eq hIncoming.incoming, incoming_eq (incoming_set _ _), beside_set,
    hWaiting]
  simp only [todo_append]
  omega

/-- What the queue hands over is no more than what has waited. -/
theorem todo_handed (current : Option Batch) {req_queue : σ} {new_batch : Option (List Req)}
    (hValid : setup.Valid Inv) (h : self.Base setup Inv)
    (hUnfinished : Unfinished (running_reqs current))
    (hGenerate : setup.scheduler.generate_new_batch setup.lora_ranks self.req_queue current =
      some (req_queue, new_batch)) :
    todo (new_batch.getD []) + todo (setup.scheduler.waiting_req_list req_queue) ≤
      todo (self.waiting setup) := by
  obtain ⟨dropped, hPerm, -⟩ := (h.hands_over hValid current hUnfinished hGenerate).conserved
  rw [todo_perm hPerm]
  simp only [todo_append]
  omega

/-- The loop goes on to a call, unless there is nothing to do. -/
theorem choose_measure (hValid : setup.Valid Inv)
    (hEager : setup.scheduler.Eager setup.limits Inv) (h : self.Base setup Inv)
    (hRest : self.Rest setup) (hPc : self.pc = .top)
    (hFits : ∀ req ∈ self.waiting setup, Admitted setup.limits setup.lora_ranks [] [req])
    (hChoose : self.choose setup = some self') :
    self'.measure setup < self.measure setup ∨ self.Drained setup := by
  have hJoining : self.joining = [] := by rw [joining, hRest.alone]; rfl
  have hTop : calls_left self.pc = 4 := by rw [hPc]; rfl
  unfold measure
  rw [hTop]
  rcases choose_cases hChoose with ⟨hNone, req_queue, new_batch, hGenerate, hCases⟩ |
    ⟨batch, hBatch, hCases⟩
  · have hRunning : self.running = [] := by rw [running, hNone]; rfl
    have hTodo := todo_handed none hValid h
      (fun _ hReq => absurd hReq List.not_mem_nil) hGenerate
    rcases hCases with ⟨rfl, -⟩ | ⟨reqs, rfl, rfl⟩
    · refine .inr ⟨by rw [hRunning, hJoining]; rfl, ?_⟩
      exact hEager _ _ _ h.queue
        (fun req hReq => (h.origin (List.mem_append_right _ hReq)).asks) hFits hGenerate
    · left
      show todo (reqs ++ self.joining ++ setup.scheduler.waiting_req_list req_queue) * 8 + 3 <
        todo (self.running ++ self.joining ++ self.waiting setup) * 8 + 4
      simp only [todo_append, Option.getD_some] at hTodo ⊢
      omega
  · left
    have hUnfinished := hRest.unfinished
    rw [running, hBatch] at hUnfinished
    rcases hCases with rfl | ⟨reqs, -, rfl⟩ | ⟨req_queue, new_mini_batch, hGenerate, hCases⟩
    · show todo (self.present setup) * 8 + 1 < _
      omega
    · show todo (self.present setup) * 8 + 2 < _
      omega
    · have hTodo := todo_handed (some batch) hValid h hUnfinished hGenerate
      rcases hCases with ⟨rfl, rfl⟩ | ⟨reqs, rfl, rfl⟩
      · show todo (self.running ++ self.joining ++ setup.scheduler.waiting_req_list req_queue) * 8 +
          1 < todo (self.running ++ self.joining ++ self.waiting setup) * 8 + 4
        simp only [todo_append] at hTodo ⊢
        omega
      · show todo (self.running ++ reqs ++ setup.scheduler.waiting_req_list req_queue) * 8 + 3 <
          todo (self.running ++ self.joining ++ self.waiting setup) * 8 + 4
        simp only [todo_append, Option.getD_some] at hTodo ⊢
        omega

theorem measure_eq (self : RouterManager σ V) :
    self.measure setup = todo (self.present setup) * 8 + calls_left self.pc := rfl

/-- A prefill generates a token for each request of the new batch. -/
theorem prefill_measure (h : self.Base setup Inv) (hStage : self.Stage setup)
    (hPc : self.pc = .prefill) (hAdvance : self.advance setup = some self') :
    self'.measure setup < self.measure setup := by
  simp only [Stage, advance, hPc] at hStage hAdvance
  obtain ⟨new, hFresh, hIncoming⟩ := hStage
  rw [hIncoming.incoming, Option.bind_some] at hAdvance
  obtain ⟨⟨worker, req_ans⟩, hForward, hTaken⟩ := Option.bind_eq_some_iff.mp hAdvance
  obtain ⟨⟨batch, finished, outs⟩, hTake, rfl⟩ := Option.map_eq_some_iff.mp hTaken
  have hUnfinished : Unfinished new.reqs := by
    intro req hReq
    rw [hFresh.no_output req hReq]
    exact (h.origin_incoming hIncoming.incoming hReq).asks
  have hTodo := todo_answer true h hIncoming hFresh.some_req hUnfinished
    hForward hTake
  rw [measure_eq self, hPc]
  dsimp only
  split
  · show todo ((self.set_incoming batch).present setup) * 8 + 6 <
      todo (self.present setup) * 8 + 1
    omega
  · refine measure_prefilled.trans_lt ?_
    show todo ((self.set_incoming batch).present setup) * 8 + 5 <
      todo (self.present setup) * 8 + 1
    omega

theorem merge_measure (hStage : self.Stage setup) (hPc : self.pc = .merge)
    (hAdvance : self.advance setup = some self') : self'.measure setup < self.measure setup := by
  simp only [Stage, advance, hPc] at hStage hAdvance
  obtain ⟨mini_batch, hMini, -⟩ := hStage
  obtain ⟨batch, hBatch, hRest⟩ := Option.bind_eq_some_iff.mp hAdvance
  rw [hMini, Option.bind_some] at hRest
  obtain ⟨worker, -, rfl⟩ := Option.map_eq_some_iff.mp hRest
  have hPresent : self.present setup =
      batch.reqs ++ mini_batch.reqs ++ self.waiting setup := by
    rw [present, running, joining, hBatch, hMini]
    rfl
  rw [measure_eq self, hPc, hPresent]
  show todo (batch.reqs ++ mini_batch.reqs ++ [] ++ self.waiting setup) * 8 + 4 < _
  rw [List.append_nil]
  exact Nat.lt_succ_self _

/-- A decode generates a token for each request of the running batch. -/
theorem decode_measure (hValid : setup.Valid Inv) (h : self.Base setup Inv)
    (hStage : self.Stage setup) {counted : Bool} (hPc : self.pc = .decode counted)
    (hAdvance : self.advance setup = some self') : self'.measure setup < self.measure setup := by
  simp only [Stage, advance, hPc] at hStage hAdvance
  obtain ⟨hRest, -⟩ := hStage
  obtain ⟨new, hBatch, hUpdated⟩ := Option.bind_eq_some_iff.mp hAdvance
  obtain ⟨req_queue, hUpdate, hRun⟩ := Option.bind_eq_some_iff.mp hUpdated
  obtain ⟨⟨worker, req_ans⟩, hForward, hTaken⟩ := Option.bind_eq_some_iff.mp hRun
  obtain ⟨⟨batch, finished, outs⟩, hTake, rfl⟩ := Option.map_eq_some_iff.mp hTaken
  have hUnfinished := hRest.unfinished
  rw [running, hBatch] at hUnfinished
  have hTodo := todo_answer false h (hRest.incoming hBatch)
    (hRest.some_req new hBatch) hUnfinished hForward hTake
  have hPresent : (self.set_incoming batch).present setup =
      batch.reqs ++ self.joining ++ setup.scheduler.waiting_req_list req_queue := by
    have hSet : self.set_incoming batch = { self with running_batch := some batch } := by
      simp [set_incoming, hRest.alone]
    rw [hSet, hValid.lawful.waiting_update _ _ _ hUpdate]
    rfl
  rw [hPresent] at hTodo
  rw [measure_eq self, hPc]
  dsimp only
  split
  · show todo (batch.reqs ++ self.joining ++ setup.scheduler.waiting_req_list req_queue) * 8 +
      7 < todo (self.present setup) * 8 + 1
    omega
  · refine (measure_filter_running_batch _).trans_lt ?_
    show todo (batch.reqs ++ self.joining ++ setup.scheduler.waiting_req_list req_queue) * 8 +
      5 < todo (self.present setup) * 8 + 1
    omega

/-- Every step brings the end closer. -/
theorem advance_measure (hValid : setup.Valid Inv)
    (hEager : setup.scheduler.Eager setup.limits Inv) (h : self.Base setup Inv)
    (hStage : self.Stage setup)
    (hFits : ∀ req ∈ self.waiting setup, Admitted setup.limits setup.lora_ranks [] [req])
    (hAdvance : self.advance setup = some self') :
    self'.measure setup < self.measure setup ∨ self.Drained setup := by
  cases hPc : self.pc with
  | top =>
      simp only [Stage, advance, hPc] at hStage hAdvance
      exact choose_measure hValid hEager h hStage hPc hFits hAdvance
  | load | init | offload counted =>
      simp only [advance, hPc] at hAdvance
      obtain ⟨batch, -, hRest⟩ := Option.bind_eq_some_iff.mp hAdvance
      obtain ⟨worker, -, rfl⟩ := Option.map_eq_some_iff.mp hRest
      rw [measure_eq self, hPc]
      exact .inl (Nat.lt_succ_self _)
  | prefill => exact .inl (prefill_measure h hStage hPc hAdvance)
  | settle =>
      simp only [advance, hPc] at hAdvance
      obtain ⟨batch, -, hRest⟩ := Option.bind_eq_some_iff.mp hAdvance
      obtain ⟨worker, -, rfl⟩ := Option.map_eq_some_iff.mp hRest
      rw [measure_eq self, hPc]
      refine .inl (measure_prefilled.trans_lt ?_)
      exact Nat.lt_succ_self _
  | merge => exact .inl (merge_measure hStage hPc hAdvance)
  | prefetch adapter_dirs =>
      simp only [advance, hPc] at hAdvance
      obtain ⟨worker, -, rfl⟩ := Option.map_eq_some_iff.mp hAdvance
      rw [measure_eq self, hPc]
      exact .inl (Nat.lt_succ_self _)
  | decode counted => exact .inl (decode_measure hValid h hStage hPc hAdvance)
  | settle_running counted =>
      simp only [advance, hPc] at hAdvance
      obtain ⟨batch, -, hRest⟩ := Option.bind_eq_some_iff.mp hAdvance
      obtain ⟨worker, -, rfl⟩ := Option.map_eq_some_iff.mp hRest
      rw [measure_eq self, hPc]
      refine .inl ((measure_filter_running_batch _).trans_lt ?_)
      exact Nat.lt_succ_self _
  | offload_all has_wait_tokens =>
      simp only [Stage, advance, hPc] at hStage hAdvance
      obtain ⟨-, -, batch, hBatch, hNone⟩ := hStage
      obtain ⟨worker, -, rfl⟩ := Option.map_eq_some_iff.mp hAdvance
      have hRunning : self.running = [] := by rw [running, hBatch]; exact hNone
      rw [measure_eq self, hPc, present, hRunning]
      exact .inl (Nat.lt_succ_self _)
  | dead => simp [advance, hPc] at hAdvance

/-! ### The end -/

/-- The request would fit if it were run alone: its tokens and its adapter in the pool, and its
prompt in a batch. -/
structure FitsAlone (setup : Setup σ V) (req : Req) : Prop where
  total : req.input_len + req.max_output_len + adapter_cells setup.lora_ranks [req] <
    setup.limits.max_total_tokens
  prompt : req.input_len ≤ setup.limits.batch_max_tokens
  size : 1 ≤ setup.limits.running_max_req_size

theorem FitsAlone.admitted {origin req : Req} (h : FitsAlone setup origin)
    (hFrom : From origin req) : Admitted setup.limits setup.lora_ranks [] [req] := by
  obtain ⟨-, hDir, hPrompt, hMax⟩ := hFrom
  have hInput : req.input_len = origin.input_len := by rw [Req.input_len, hPrompt]; rfl
  have hCells : adapter_cells setup.lora_ranks [req] = adapter_cells setup.lora_ranks [origin] := by
    simp [adapter_cells, hDir]
  obtain ⟨hTotal, hTokens, hSize⟩ := h
  rw [← hInput, ← hMax, ← hCells] at hTotal
  refine ⟨fun steps hSteps => ?_, by simpa using hSize, by simpa [hInput] using hTokens⟩
  show Peak.demand [req.new_len] steps ≤ setup.limits.max_total_tokens -
    adapter_cells setup.lora_ranks [req] - 1
  unfold Peak.demand
  by_cases hGoes : steps ≤ req.new_len.left
  · have hLeft : steps ≤ req.max_output_len - 1 := hGoes
    rw [List.filter_cons_of_pos (by simpa using hGoes)]
    show ((req.input_len : Int) + 1 + steps) + 0 ≤ _
    omega
  · rw [List.filter_cons_of_neg (by simpa using hGoes)]
    show (0 : Int) ≤ _
    omega

instance (setup : Setup σ V) (req : Req) : Decidable (FitsAlone setup req) :=
  decidable_of_iff (req.input_len + req.max_output_len + adapter_cells setup.lora_ranks [req] <
      setup.limits.max_total_tokens ∧ req.input_len ≤ setup.limits.batch_max_tokens ∧
        1 ≤ setup.limits.running_max_req_size)
    ⟨fun ⟨hTotal, hPrompt, hSize⟩ => ⟨hTotal, hPrompt, hSize⟩,
      fun ⟨hTotal, hPrompt, hSize⟩ => ⟨hTotal, hPrompt, hSize⟩⟩

/-- There is room at all times if all the adapters that are served find room. -/
theorem roomy_of_space (h : self.Base setup Inv)
    (hSpace : cells_of setup.rank (setup.adapters.map (·.lora_dir)) ≤ setup.pool_size_lora) :
    self.Roomy setup := by
  refine (cells_of_le_of_subset _ (h.sound.intact.nodup.filter _) fun dir hDir => ?_).trans hSpace
  obtain ⟨adapter, hAdapter, rfl⟩ := h.served dir (List.mem_of_mem_filter hDir)
  exact List.mem_map_of_mem hAdapter

/-- Wherever the router is, it comes to the end of its requests. -/
theorem drains_from (queue : σ) (buffer : Nat → V) (hValid : setup.Valid Inv)
    (hTotal : setup.scheduler.Total Inv) (hEager : setup.scheduler.Eager setup.limits Inv)
    (hSpace : cells_of setup.rank (setup.adapters.map (·.lora_dir)) ≤ setup.pool_size_lora)
    (h : self.Base setup Inv) (hStage : self.Stage setup) (hAlive : self.pc ≠ .dead)
    (hFits : ∀ req ∈ self.received, FitsAlone setup req) :
    ∃ steps self', (machine setup queue buffer).replay self (List.replicate steps .step) =
        some self' ∧
      self'.Base setup Inv ∧ self'.Drained setup ∧ self'.received = self.received ∧
        self'.abort_ids = self.abort_ids := by
  induction hMeasure : self.measure setup using Nat.strong_induction_on generalizing self with
  | _ n ih =>
      obtain ⟨next, hAdvance⟩ :=
        advance_ok hValid hTotal h hStage (roomy_of_space h hSpace) hAlive
      have hWaits : ∀ req ∈ self.waiting setup,
          Admitted setup.limits setup.lora_ranks [] [req] := by
        intro req hReq
        obtain ⟨origin, hOrigin, hFrom⟩ := h.books.origin req (List.mem_append_right _ hReq)
        exact (hFits origin hOrigin).admitted hFrom
      rcases advance_measure hValid hEager h hStage hWaits hAdvance with hLess | hDrained
      · obtain ⟨hBase, hStage'⟩ := advance_spec hValid h hStage hAdvance
        obtain ⟨hAlive', hReceived, hAborts⟩ := advance_onward hAdvance
        obtain ⟨steps, self', hReplay, hBase', hDrained, hReceived', hAborts'⟩ :=
          ih _ (hMeasure ▸ hLess) hBase hStage' hAlive' (hReceived ▸ hFits) rfl
        refine ⟨steps + 1, self', ?_, hBase', hDrained, hReceived'.trans hReceived,
          hAborts'.trans hAborts⟩
        have hStep : (machine setup queue buffer).step self .step = some next := by
          show some _ = some next
          rw [hAdvance, Option.getD_some]
        rw [List.replicate_succ, Machine.System.replay, hStep]
        exact hReplay
      · exact ⟨0, self, rfl, h, hDrained, rfl, rfl⟩

/-- Whatever has come in: if nothing more does, then after some more steps of the task that runs the
batches nothing is run any more, only aborted requests wait, and every request has been reported as
finished or aborted. It takes that each request would fit alone, and that all the adapters that are
served find room in the part of the pool that is set aside for them.

As in `never_dead` the server is `Valid`, the queue is `Total`, and what comes in is `Proper`: a new
id, a served adapter, a prompt, a token to generate. `Eager` says that the queue hands over some
request as long as one that is not aborted would fit, which is so for `ReqQueue`. -/
theorem requests_end {queue : σ} {buffer : Nat → V} (hValid : setup.Valid Inv)
    (hTotal : setup.scheduler.Total Inv) (hEager : setup.scheduler.Eager setup.limits Inv)
    (hSpace : cells_of setup.rank (setup.adapters.map (·.lora_dir)) ≤ setup.pool_size_lora)
    (hQueue : Inv queue) (hEmpty : setup.scheduler.waiting_req_list queue = [])
    (run : (machine setup queue buffer).Reach (Proper setup) self)
    (hFits : ∀ req ∈ self.received, FitsAlone setup req) :
    ∃ steps self', (machine setup queue buffer).replay self (List.replicate steps .step) =
        some self' ∧
      self'.running ++ self'.joining = [] ∧
      (∀ req ∈ self'.waiting setup, req.aborted = true) ∧
      ∀ req ∈ self.received, req.request_id ∈ finished_ids self'.sent ∨
        req.request_id ∈ self.abort_ids := by
  have hSpacious : (machine setup queue buffer).Reach (Spacious setup) self := by
    refine run.transfer fun router event _ prior hProper _ => ?_
    cases event with
    | step =>
        exact roomy_of_space (reach_spec hValid hQueue hEmpty
          (prior.transfer fun _ _ _ _ hGuard _ => hGuard.proper)).1 hSpace
    | add_req adapter_dir prompt_ids sampling_params request_id => exact hProper
    | abort request_id => exact hProper
  obtain ⟨h, hStage⟩ := reach_spec hValid hQueue hEmpty run
  obtain ⟨steps, self', hReplay, hBase, ⟨hRun, hWait⟩, hReceived, hAborts⟩ :=
    drains_from queue buffer hValid hTotal hEager hSpace h hStage
      (never_dead hValid hTotal hQueue hEmpty hSpacious) hFits
  refine ⟨steps, self', hReplay, hRun, hWait, fun req hReq => ?_⟩
  obtain ⟨dropped, hDropped, hPerm⟩ := hBase.books.accounted
  rw [hReceived, present, hRun, List.nil_append] at hPerm
  rw [hAborts] at hDropped
  have hThere := hPerm.mem_iff.mp (List.mem_map_of_mem (f := (·.request_id)) hReq)
  rcases List.mem_append.mp hThere with hThere | hThere
  · rcases List.mem_append.mp hThere with hThere | hThere
    · obtain ⟨other, hOther, hSame⟩ := List.mem_map.mp hThere
      have := hBase.books.flagged other (List.mem_append_right _ hOther) (hWait other hOther)
      rw [hAborts] at this
      exact .inr (hSame ▸ this)
    · exact .inl hThere
  · exact .inr (hDropped hThere)

theorem three_requests_end : ∃ self self' : RouterManager (List Req) Nat, ∃ steps,
    self.running.map (·.request_id) = ["y"] ∧
    (machine two_adapters [] fun _ => 0).replay self (List.replicate steps .step) = some self' ∧
    self'.running ++ self'.joining = [] ∧
    (∀ req ∈ self'.waiting two_adapters, req.aborted = true) ∧
    ∀ req ∈ self.received, req.request_id ∈ finished_ids self'.sent ∨
      req.request_id ∈ self.abort_ids := by
  have hRun : ((machine two_adapters [] fun _ => 0).replayUnder (Proper two_adapters)
      { req_queue := []
        worker :=
          { cache := []
            infer_adapter := {}
            memory := { mem_manager := .new 52, buffer := fun _ => 0 } } } three_requests).map
      (fun self => (self.running.map (·.request_id),
        decide (∀ req ∈ self.received, FitsAlone two_adapters req))) = some (["y"], true) := by
    decide +kernel
  obtain ⟨self, hReplay, hEnd⟩ := Option.map_eq_some_iff.mp hRun
  obtain ⟨hRunning, hFits⟩ := Prod.mk.inj hEnd
  obtain ⟨steps, self', hSteps, hEnds⟩ := requests_end two_adapters_valid (ReqQueue.total _)
    (ReqQueue.eager _) (by decide) trivial rfl
    (Machine.System.reach_of_replayUnder (.start rfl) hReplay) (of_decide_eq_true hFits)
  exact ⟨self, self', steps, hRunning, hSteps, hEnds⟩

end RouterManager

end Slora
