import SwarmLoRA.Slora.RouterAnswers

namespace Slora

open Data

namespace RouterManager

variable {σ V : Type} {setup : Setup σ V} {Inv : σ → Prop} {self self' : RouterManager σ V}
  {queue : σ} {buffer : Nat → V}

/-- Every step of the task that runs the batches keeps the invariant. -/
theorem advance_spec (hValid : setup.Valid Inv) (h : self.Base setup Inv)
    (hStage : self.Stage setup) (hAdvance : self.advance setup = some self') :
    self'.Base setup Inv ∧ self'.Stage setup := by
  unfold Stage at hStage
  unfold advance at hAdvance
  cases hPc : self.pc with
  | top =>
      simp only [hPc] at hStage hAdvance
      exact choose_spec hValid h hStage hPc hAdvance
  | load =>
      simp only [hPc] at hStage hAdvance
      obtain ⟨new, hFresh, hIncoming⟩ := hStage
      rw [hIncoming.incoming, Option.bind_some] at hAdvance
      obtain ⟨worker, hLoad, rfl⟩ := Option.map_eq_some_iff.mp hAdvance
      obtain ⟨hBase, hIncoming'⟩ := load_step hValid h hIncoming hLoad
      exact ⟨hBase, new, hFresh, hIncoming'⟩
  | init =>
      simp only [hPc] at hStage hAdvance
      obtain ⟨new, hFresh, hIncoming⟩ := hStage
      rw [hIncoming.incoming, Option.bind_some] at hAdvance
      obtain ⟨worker, hAdd, rfl⟩ := Option.map_eq_some_iff.mp hAdvance
      obtain ⟨hBase, hIncoming'⟩ := init_step h hFresh hIncoming hAdd
      exact ⟨hBase, new, hFresh, hIncoming'⟩
  | prefill =>
      simp only [hPc] at hStage hAdvance
      obtain ⟨new, hFresh, hIncoming⟩ := hStage
      rw [hIncoming.incoming, Option.bind_some] at hAdvance
      obtain ⟨⟨worker, req_ans⟩, hForward, hTaken⟩ := Option.bind_eq_some_iff.mp hAdvance
      obtain ⟨⟨batch, finished, outs⟩, hTake, rfl⟩ := Option.map_eq_some_iff.mp hTaken
      exact prefill_step h hFresh hIncoming hForward hTake rfl
  | settle =>
      simp only [hPc] at hStage hAdvance
      obtain ⟨new, hLeaving⟩ := hStage
      obtain ⟨all, -, hIncoming⟩ := hLeaving.goes
      rw [hIncoming.incoming, Option.bind_some] at hAdvance
      obtain ⟨worker, hSettle, rfl⟩ := Option.map_eq_some_iff.mp hAdvance
      obtain ⟨hBase, hSettled⟩ := settle_step h hLeaving hSettle .settle
      exact prefilled_spec hBase hSettled hLeaving.unfinished
  | merge =>
      simp only [hPc] at hStage hAdvance
      obtain ⟨mini_batch, hMini, -, hUnfinished, hIncoming⟩ := hStage
      obtain ⟨batch, hBatch, hRest⟩ := Option.bind_eq_some_iff.mp hAdvance
      rw [hMini, Option.bind_some] at hRest
      obtain ⟨worker, hMerge, hSame⟩ := Option.map_eq_some_iff.mp hRest
      exact merge_step h hBatch hMini hUnfinished hIncoming hMerge hSame.symm
  | prefetch adapter_dirs =>
      simp only [hPc] at hStage hAdvance
      obtain ⟨hRest, hSome, hDirs, hServed⟩ := hStage
      obtain ⟨worker, hLoad, rfl⟩ := Option.map_eq_some_iff.mp hAdvance
      obtain ⟨hBase, hRest'⟩ := prefetch_step hValid h hRest hDirs hServed hLoad (.decode true)
      exact ⟨hBase, hRest', hSome⟩
  | decode counted =>
      simp only [hPc] at hStage hAdvance
      obtain ⟨hRest, -⟩ := hStage
      obtain ⟨new, hBatch, hUpdated⟩ := Option.bind_eq_some_iff.mp hAdvance
      obtain ⟨req_queue, hUpdate, hRun⟩ := Option.bind_eq_some_iff.mp hUpdated
      obtain ⟨⟨worker, req_ans⟩, hForward, hTaken⟩ := Option.bind_eq_some_iff.mp hRun
      obtain ⟨⟨batch, finished, outs⟩, hTake, hSame⟩ := Option.map_eq_some_iff.mp hTaken
      exact decode_step hValid h hRest hBatch hUpdate hForward hTake hSame.symm
  | offload counted =>
      simp only [hPc] at hStage hAdvance
      obtain ⟨hMini, new, hLeaving⟩ := hStage
      obtain ⟨batch, hBatch, hRest⟩ := Option.bind_eq_some_iff.mp hAdvance
      obtain ⟨worker, hOffload, rfl⟩ := Option.map_eq_some_iff.mp hRest
      obtain ⟨hBase, hLeaving'⟩ :=
        offload_step hValid h hMini hBatch hLeaving hOffload (.settle_running counted)
      exact ⟨hBase, hMini, new, hLeaving'⟩
  | settle_running counted =>
      simp only [hPc] at hStage hAdvance
      obtain ⟨hMini, new, hLeaving⟩ := hStage
      obtain ⟨batch, hBatch, hRest⟩ := Option.bind_eq_some_iff.mp hAdvance
      obtain ⟨worker, hSettle, rfl⟩ := Option.map_eq_some_iff.mp hRest
      obtain ⟨all, -, hIncoming⟩ := hLeaving.goes
      have hSame := hIncoming.incoming
      rw [incoming, hMini, Option.none_or, hBatch] at hSame
      obtain rfl := Option.some.inj hSame
      obtain ⟨hBase, hSettled⟩ := settle_step h hLeaving hSettle (.settle_running counted)
      exact filter_running_batch_spec hBase hMini hSettled hLeaving.unfinished _
  | offload_all has_wait_tokens =>
      simp only [hPc] at hStage hAdvance
      obtain ⟨hMini, hServes, batch, hBatch, hNone⟩ := hStage
      obtain ⟨worker, hOffload, hSame⟩ := Option.map_eq_some_iff.mp hAdvance
      exact offload_all_step hValid h hMini hServes hBatch hNone hOffload hSame.symm
  | dead => simp [hPc] at hAdvance

/-- Every step keeps the invariant. -/
theorem step_spec (hValid : setup.Valid Inv) {event : Event}
    (hInv : self.Base setup Inv ∧ self.Stage setup)
    (hProper : self.Proper setup event) (hStep : self.step setup event = some self') :
    self'.Base setup Inv ∧ self'.Stage setup := by
  obtain ⟨h, hStage⟩ := hInv
  cases event with
  | step =>
      obtain rfl := Option.some.inj hStep
      cases hAdvance : self.advance setup with
      | some next => exact advance_spec hValid h hStage hAdvance
      | none => exact ⟨h.go .dead self.has_wait_tokens, trivial⟩
  | add_req adapter_dir prompt_ids sampling_params request_id =>
      obtain rfl := Option.some.inj hStep
      have hSame : SameBatches self
        (self.add_req setup adapter_dir prompt_ids sampling_params request_id) := ⟨rfl, rfl, rfl⟩
      exact ⟨h.add_req hValid hProper.1 hProper.2, hSame.stage rfl hStage⟩
  | abort request_id =>
      obtain rfl := Option.some.inj hStep
      exact ⟨h.abort hValid request_id, Stage.abort hStage request_id⟩

/-- What some requests hold after so many more passes, those set aside that end on the way. -/
def tokens_after (reqs : List Req) (passes : Nat) : Nat :=
  ((reqs.filter fun req => decide (req.output_ids.length + passes < req.max_output_len)).map
    fun req => req.input_len + req.output_ids.length + passes).sum

theorem demand_eq_tokens_after (reqs : List Req) (passes : Nat) :
    Peak.demand (reqs.map (·.running_len)) passes = tokens_after reqs passes := by
  induction reqs with
  | nil => rfl
  | cons req reqs ih =>
      have hSplit : Peak.demand ((req :: reqs).map (·.running_len)) passes =
          Peak.demand [req.running_len] passes + Peak.demand (reqs.map (·.running_len)) passes := by
        rw [← Peak.demand_append]
        rfl
      have hGoes : (passes : Int) ≤ req.running_len.left ↔
          req.output_ids.length + passes < req.max_output_len := by
        show (passes : Int) ≤ req.max_output_len - req.output_ids.length - 1 ↔ _
        omega
      rw [hSplit, ih]
      unfold tokens_after
      by_cases h : req.output_ids.length + passes < req.max_output_len
      · have hFirst : Peak.demand [req.running_len] passes =
            (req.input_len + req.output_ids.length + passes : Nat) := by
          rw [Peak.demand, List.filter_cons_of_pos (by simpa using hGoes.mpr h)]
          simp [Req.running_len]
        rw [hFirst, List.filter_cons_of_pos (by simpa using h), List.map_cons, List.sum_cons]
        exact (Nat.cast_add _ _).symm
      · have hFirst : Peak.demand [req.running_len] passes = 0 := by
          rw [Peak.demand, List.filter_cons_of_neg (by simpa using fun h' => h (hGoes.mp h'))]
          rfl
        rw [hFirst, List.filter_cons_of_neg (by simpa using h), zero_add]

theorem start_spec (hQueue : Inv queue) (hEmpty : setup.scheduler.waiting_req_list queue = [])
    (hStart : (machine setup queue buffer).initial self) :
    self.Base setup Inv ∧ self.Stage setup := by
  obtain rfl := hStart
  refine ⟨⟨?_, ?_, hQueue, ⟨⟨.new, by simp⟩, .new setup.tot_size, rfl, List.nodup_nil, ?_⟩,
    (fun _ hBatch => by cases hBatch), (fun _ hBatch => by cases hBatch), ?_⟩, rfl, .refl _, ?_, ?_,
    (fun _ hBatch => by cases hBatch), fun _ hBatch => by cases hBatch⟩
  · show Books setup [] [] [] (setup.scheduler.waiting_req_list queue)
    rw [hEmpty]
    exact .new
  · show ∀ req ∈ setup.scheduler.waiting_req_list queue, req.output_ids = []
    rw [hEmpty]
    exact fun _ hReq => absurd hReq List.not_mem_nil
  · exact fun _ hBatch => absurd hBatch List.not_mem_nil
  · exact fun _ hDir => absurd hDir List.not_mem_nil
  · exact fun _ hText => absurd hText List.not_mem_nil
  · exact fun _ hReq => absurd hReq List.not_mem_nil

theorem reach_spec (hValid : setup.Valid Inv) (hQueue : Inv queue)
    (hEmpty : setup.scheduler.waiting_req_list queue = [])
    (run : (machine setup queue buffer).Reach (Proper setup) self) :
    self.Base setup Inv ∧ self.Stage setup :=
  run.invariant (fun self => self.Base setup Inv ∧ self.Stage setup)
    (fun _ hStart => start_spec hQueue hEmpty hStart)
    fun _ _ _ hInv hProper hStep => step_spec hValid hInv hProper hStep

/-! ### A server with two adapters -/

section Example

instance (setup : Setup σ V) (req : Req) : Decidable (Taken setup req) :=
  decidable_of_iff (req.prompt_ids ≠ [] ∧ 1 ≤ req.max_output_len ∧
    ∃ adapter ∈ setup.adapters, req.adapter_dir = some adapter.lora_dir)
    ⟨fun ⟨hPrompt, hAsks, hServed⟩ => ⟨hPrompt, hAsks, hServed⟩,
      fun ⟨hPrompt, hAsks, hServed⟩ => ⟨hPrompt, hAsks, hServed⟩⟩

instance (setup : Setup σ V) (router : RouterManager σ V) :
    (event : Event) → Decidable (router.Proper setup event)
  | .step => .isTrue trivial
  | .add_req _ _ _ _ => inferInstanceAs (Decidable (_ ∧ _))
  | .abort _ => .isTrue trivial

def two_adapters : Setup (List Req) Nat where
  scheduler := ReqQueue.scheduler ⟨40, 20, 4⟩
  limits := ⟨40, 20, 4⟩
  pool_size_lora := 12
  prefetch := true
  eos_id := 99
  adapters := [⟨"a", 1⟩, ⟨"b", 2⟩]
  model :=
    { kv := fun weights cache token => (weights.sum + 3 * cache.sum + token) % 11
      sample := fun _ weights cache tokens => (weights.sum + cache.sum + tokens.length) % 7 }
  weights dir := List.replicate ((if dir = "a" then 1 else if dir = "b" then 2 else 0) * 4) 5

theorem two_adapters_rank (dir : String) :
    two_adapters.rank dir = if dir = "a" then 1 else if dir = "b" then 2 else 0 := by
  by_cases hFirst : dir = "a"
  · simp [hFirst, Setup.rank, Setup.lora_ranks, two_adapters]
  · by_cases hSecond : dir = "b"
    · simp [hSecond, Setup.rank, Setup.lora_ranks, two_adapters]
    · simp [hFirst, hSecond, Setup.rank, Setup.lora_ranks, two_adapters,
        beq_false_of_ne (Ne.symm hFirst), beq_false_of_ne (Ne.symm hSecond)]

theorem two_adapters_valid : two_adapters.Valid fun _ => True where
  lawful := ReqQueue.lawful _
  offers :=
    { rank_eq := by decide
      weights_length dir := by rw [two_adapters_rank]; exact List.length_replicate
      blocked dir := by
        rw [two_adapters_rank]
        left
        split
        · decide
        · split <;> decide }

/-- One request runs, two others join it, and one of them is aborted. -/
def three_requests : List Event :=
  .add_req (some "a") [1, 2] { max_new_tokens := 3 } "x" :: List.replicate 6 .step ++
    [.add_req (some "b") [4] { max_new_tokens := 9 } "y",
      .add_req (some "a") [4, 4] { max_new_tokens := 9 } "z"] ++
    List.replicate 9 .step ++ .abort "z" :: List.replicate 4 .step

theorem three_requests_run : ∃ self,
    (machine two_adapters [] fun _ => 0).Reach (Proper two_adapters) self ∧ self.pc = .top ∧
      self.received.map (·.request_id) = ["x", "y", "z"] ∧ finished_ids self.sent = ["x", "z"] ∧
      said self.sent "x" = [5, 1, 6] ∧ self.running.map (·.request_id) = ["y"] := by
  have hRun : ((machine two_adapters [] fun _ => 0).replayUnder (Proper two_adapters)
      { req_queue := []
        worker :=
          { cache := []
            infer_adapter := {}
            memory := { mem_manager := .new 52, buffer := fun _ => 0 } } } three_requests).map
      (fun self => (self.pc, self.received.map (·.request_id), finished_ids self.sent,
        said self.sent "x", self.running.map (·.request_id))) =
        some (.top, ["x", "y", "z"], ["x", "z"], [5, 1, 6], ["y"]) := by
    decide +kernel
  obtain ⟨self, hReplay, hEnd⟩ := Option.map_eq_some_iff.mp hRun
  simp only [Prod.mk.injEq] at hEnd
  exact ⟨self, Machine.System.reach_of_replayUnder (.start rfl) hReplay, hEnd⟩

end Example

/-- Whenever the loop comes round the worker has just the running batch, with the requests and the
tokens that the router has and their adapters loaded. The batch can be run to its end, though no
request ends before it has to: it never holds as many cells as there are, its adapters set aside. As
in `said_eq_generate` the server is `Valid` and what comes in is `Proper`. -/
theorem worker_mirrors_router (hValid : setup.Valid Inv) (hQueue : Inv queue)
    (hEmpty : setup.scheduler.waiting_req_list queue = [])
    (run : (machine setup queue buffer).Reach (Proper setup) self)
    (hTop : self.pc = .top) :
    self.new_mini_batch = none ∧
    (self.worker.cache.map (·.view)).Perm ((self.running_batch.map fun batch =>
      ⟨batch.batch_id, true, batch.reqs.map Req.text⟩).toList) ∧
    ∀ batch, self.running_batch = some batch → batch.reqs ≠ [] ∧
      (∀ req ∈ batch.reqs, ∃ dir ∈ self.worker.infer_adapter.adapter_dirs,
        req.adapter_dir = some dir) ∧
      ∀ passes, tokens_after batch.reqs passes + adapter_cells setup.lora_ranks batch.reqs <
        setup.limits.max_total_tokens := by
  obtain ⟨h, hStage⟩ := reach_spec hValid hQueue hEmpty run
  unfold Stage at hStage
  rw [hTop] at hStage
  obtain ⟨hAlone, hServes, hReady, -, hSome, hWithin⟩ := hStage
  refine ⟨hAlone, hServes, fun batch hBatch => ⟨hSome batch hBatch, fun req hReq => ?_,
    fun passes => ?_⟩⟩
  · have hRunning : req ∈ self.running := by
      rw [running, hBatch]
      exact hReq
    have hTaken := h.origin (List.mem_append_left _ (List.mem_append_left _ hRunning))
    obtain ⟨adapter, -, hDir⟩ := hTaken.served
    exact ⟨adapter.lora_dir, hReady req.text (List.mem_map_of_mem hRunning) _ hDir, hDir⟩
  · have := hWithin batch hBatch passes (Int.natCast_nonneg passes)
    rw [demand_eq_tokens_after, Setup.budget] at this
    omega

theorem worker_of_three : ∃ self : RouterManager (List Req) Nat,
    self.running.map (·.request_id) = ["y"] ∧ self.new_mini_batch = none ∧
    (self.worker.cache.map (·.view)).Perm ((self.running_batch.map fun batch =>
      ⟨batch.batch_id, true, batch.reqs.map Req.text⟩).toList) ∧
    ∀ batch, self.running_batch = some batch → batch.reqs ≠ [] ∧
      (∀ req ∈ batch.reqs, ∃ dir ∈ self.worker.infer_adapter.adapter_dirs,
        req.adapter_dir = some dir) ∧
      ∀ passes, tokens_after batch.reqs passes + adapter_cells two_adapters.lora_ranks batch.reqs <
        two_adapters.limits.max_total_tokens := by
  obtain ⟨self, run, hTop, -, -, -, hRunning⟩ := three_requests_run
  exact ⟨self, hRunning, worker_mirrors_router two_adapters_valid trivial rfl run hTop⟩

end RouterManager

end Slora
