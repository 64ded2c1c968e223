import SwarmLoRA.Slora.RouterRuns

namespace Slora

open Data

/-- No call of the queue raises as long as the adapters of the requests are known. -/
structure Scheduler.Total {σ : Type} (S : Scheduler σ) (Inv : σ → Prop) : Prop where
  generate : ∀ (lora_ranks : Ranks) q batch, Inv q →
    (∀ req ∈ running_reqs batch ++ S.waiting_req_list q, (lora_ranks req.adapter_dir).isSome) →
    ∃ result, S.generate_new_batch lora_ranks q batch = some result
  next : ∀ q, Inv q → ∃ result, S.next_batch q = some result
  update : ∀ q batch, Inv q → ∃ result, S.update_counter q batch = some result

namespace ReqQueue

variable {limits : Limits} {lora_ranks : Ranks} {waiting reqs : List Req}

/-- The entry of an adapter whose rank is known. -/
theorem add_adapter_ok (admission : Admission) {dir : Option String}
    (hKnown : (lora_ranks dir).isSome) :
    ∃ result, admission.add_adapter lora_ranks dir = some result := by
  obtain ⟨r, hRank⟩ := Option.isSome_iff_exists.mp hKnown
  unfold Admission.add_adapter
  split
  · exact ⟨_, rfl⟩
  · exact ⟨_, by rw [hRank]; rfl⟩

/-- The entries of the running batch, if the ranks of its adapters are known. -/
theorem init_cache_list_ok (admission : Admission)
    (hKnown : ∀ req ∈ reqs, (lora_ranks req.adapter_dir).isSome) :
    ∃ result, Admission.init_cache_list lora_ranks admission reqs = some result := by
  induction reqs generalizing admission with
  | nil => exact ⟨admission, rfl⟩
  | cons req reqs ih =>
      obtain ⟨next, hNext⟩ := add_adapter_ok
        { admission with cache_len_list := admission.cache_len_list ++ [req.running_len] }
        (hKnown req List.mem_cons_self)
      rw [Admission.init_cache_list, hNext, Option.bind_some]
      exact ih _ fun other hOther => hKnown other (List.mem_cons_of_mem _ hOther)

/-- The scan of the queue, if the ranks of its adapters are known. -/
theorem run_ok (limits : Limits) (scan : Scan)
    (hKnown : ∀ req ∈ reqs, (lora_ranks req.adapter_dir).isSome) :
    ∃ result, scan.run limits lora_ranks reqs = some result := by
  induction reqs generalizing scan with
  | nil => exact ⟨scan, rfl⟩
  | cons req reqs ih =>
      have hRest : ∀ other ∈ reqs, (lora_ranks other.adapter_dir).isSome :=
        fun other hOther => hKnown other (List.mem_cons_of_mem _ hOther)
      rw [Scan.run]
      split
      · exact ih _ hRest
      · obtain ⟨next, hNext⟩ := add_adapter_ok (scan.admission.with_req req)
          (hKnown req List.mem_cons_self)
        rw [Admission.can_add_new_req, hNext, Option.map_some, Option.bind_some]
        simp only
        split
        · exact ih _ hRest
        · exact ⟨_, rfl⟩

/-- The queue of the plain scheduler raises nothing. -/
theorem total (limits : Limits) : (scheduler limits).Total fun _ => True where
  generate := by
    intro lora_ranks waiting batch _ hKnown
    show ∃ result, generate_new_batch limits lora_ranks waiting batch = some result
    unfold generate_new_batch
    split
    · exact ⟨_, rfl⟩
    · obtain ⟨admission, hInit⟩ := init_cache_list_ok {}
        fun req hReq => hKnown req (List.mem_append_left _ hReq)
      have hWaits : ∀ req ∈ waiting, (lora_ranks req.adapter_dir).isSome :=
        fun req hReq => hKnown req (List.mem_append_right _ hReq)
      obtain ⟨scan, hRun⟩ := run_ok limits { admission } hWaits
      rw [hInit, Option.bind_some, hRun, Option.map_some]
      exact ⟨_, rfl⟩
  next _ _ := ⟨_, rfl⟩
  update _ _ _ := ⟨_, rfl⟩

end ReqQueue

namespace RouterManager

variable {σ V : Type} {setup : Setup σ V} {Inv : σ → Prop} {self self' : RouterManager σ V}
  {reqs others : List Req} {batch new : Batch} {names : List String} {jobs : List Peak.Job}
  {own : List View} {loaded : Bool}

open ModelRpcServer (cells_of)

/-- The adapters that are loaded and that no request uses. -/
def idle_dirs (router : RouterManager σ V) : List String :=
  router.worker.infer_adapter.adapter_dirs.filter fun dir =>
    !((router.running ++ router.joining).map (·.adapter_dir)).contains (some dir)

/-- They find room in the part of the pool that is set aside for adapters. -/
def Roomy (setup : Setup σ V) (router : RouterManager σ V) : Prop :=
  cells_of setup.rank router.idle_dirs ≤ setup.pool_size_lora

/-- What may come in, and that there is room before every call. -/
def Spacious (setup : Setup σ V) (router : RouterManager σ V) : Event → Prop
  | .step => router.Roomy setup
  | event => router.Proper setup event

/-- What is spacious is proper. -/
theorem Spacious.proper {event : Event} (h : self.Spacious setup event) :
    self.Proper setup event := by
  cases event with
  | step => trivial
  | add_req adapter_dir prompt_ids sampling_params request_id => exact h
  | abort request_id => trivial

instance (setup : Setup σ V) (router : RouterManager σ V) :
    (event : Event) → Decidable (router.Spacious setup event)
  | .step => inferInstanceAs (Decidable (_ ≤ _))
  | .add_req adapter_dir prompt_ids sampling_params request_id => inferInstanceAs (Decidable
      (router.Proper setup (.add_req adapter_dir prompt_ids sampling_params request_id)))
  | .abort _ => .isTrue trivial

/-! ### How much room is taken -/

/-- More adapters take more cells. -/
theorem cells_of_le_of_subset (rank : String → Nat) {names' : List String} (hNodup : names.Nodup)
    (hSub : names ⊆ names') : cells_of rank names ≤ cells_of rank names' := by
  obtain ⟨l, hPerm, hl⟩ := hNodup.subperm hSub
  exact (hPerm.map _).symm.sum_eq.trans_le ((hl.map _).sum_le_sum fun _ _ => Nat.zero_le _)

/-- The adapters that the requests use have been counted. -/
theorem cells_of_used_le (setup : Setup σ V) (hNodup : names.Nodup)
    (hUsed : ∀ dir ∈ names, some dir ∈ reqs.map (·.adapter_dir)) :
    cells_of setup.rank names ≤ adapter_cells setup.lora_ranks reqs := by
  have hSome : (names.map some).Nodup := hNodup.map (Option.some_injective _)
  have hSub : names.map some ⊆ (reqs.map (·.adapter_dir)).dedup := by
    intro dir hDir
    obtain ⟨name, hName, rfl⟩ := List.mem_map.mp hDir
    exact List.mem_dedup.mpr (hUsed name hName)
  obtain ⟨l, hPerm, hl⟩ := hSome.subperm hSub
  have hCells : cells_of setup.rank names =
      ((names.map some).map fun dir => (setup.lora_ranks dir).getD 0 * 4).sum := by
    rw [cells_of, List.map_map]
    rfl
  rw [hCells, adapter_cells]
  exact (hPerm.map _).symm.sum_eq.trans_le ((hl.map _).sum_le_sum fun _ _ => Nat.zero_le _)

/-- Adapters that are loaded or used take up what has been counted for the requests and what is set
aside. -/
theorem cells_of_le (hRoomy : self.Roomy setup) (hNodup : names.Nodup)
    (hRun : self.running ++ self.joining = reqs)
    (hNames : ∀ dir ∈ names, dir ∈ self.worker.infer_adapter.adapter_dirs ∨
      some dir ∈ reqs.map (·.adapter_dir)) :
    cells_of setup.rank names ≤ adapter_cells setup.lora_ranks reqs + setup.pool_size_lora := by
  subst hRun
  have hSplit : cells_of setup.rank names =
      cells_of setup.rank (names.filter fun dir =>
        decide (some dir ∈ (self.running ++ self.joining).map (·.adapter_dir))) +
      cells_of setup.rank (names.filter fun dir =>
        !decide (some dir ∈ (self.running ++ self.joining).map (·.adapter_dir))) := by
    have := (List.filter_append_perm (fun dir =>
      decide (some dir ∈ (self.running ++ self.joining).map (·.adapter_dir))) names).map
        fun dir => setup.rank dir * 4
    rw [cells_of, cells_of, cells_of, ← List.sum_append, ← List.map_append]
    exact this.sum_eq.symm
  have hIn : ∀ dir ∈ names.filter fun dir =>
      decide (some dir ∈ (self.running ++ self.joining).map (·.adapter_dir)),
      some dir ∈ (self.running ++ self.joining).map (·.adapter_dir) :=
    fun dir hDir => by simpa using List.of_mem_filter hDir
  have hUsed := cells_of_used_le setup (hNodup.filter _) hIn
  have hOut : (names.filter fun dir =>
      !decide (some dir ∈ (self.running ++ self.joining).map (·.adapter_dir))) ⊆
      self.idle_dirs := by
    intro dir hDir
    obtain ⟨hName, hNot⟩ := List.mem_filter.mp hDir
    have hUnused : some dir ∉ (self.running ++ self.joining).map (·.adapter_dir) := by
      simpa using hNot
    exact List.mem_filter.mpr ⟨(hNames dir hName).resolve_right hUnused, by simpa using hUnused⟩
  have hIdle := cells_of_le_of_subset setup.rank (hNodup.filter _) hOut
  have hRoom : cells_of setup.rank self.idle_dirs ≤ setup.pool_size_lora := hRoomy
  omega

/-- The tokens of some requests. -/
def tokens_of (reqs : List Req) : Nat :=
  (reqs.map fun req => req.input_len + req.output_ids.length).sum

theorem sum_running_len (reqs : List Req) :
    ((reqs.map (·.running_len)).map (·.held)).sum = (tokens_of reqs : Int) := by
  unfold tokens_of
  induction reqs with
  | nil => rfl
  | cons req reqs ih =>
      simp only [List.map_cons, List.sum_cons, ih]
      exact (Nat.cast_add _ _).symm

theorem running_left_nonneg (hUnfinished : Unfinished reqs) :
    ∀ j ∈ reqs.map (·.running_len), 0 ≤ j.left := by
  intro j hj
  obtain ⟨req, hReq, rfl⟩ := List.mem_map.mp hj
  have := hUnfinished req hReq
  show (0 : Int) ≤ req.max_output_len - req.output_ids.length - 1
  omega

theorem held_view_le (batch : Batch) : (view batch).held ≤ tokens_of batch.reqs := by
  rw [View.held, view, if_pos rfl, List.map_map, tokens_of]
  refine List.sum_le_sum fun req _ => ?_
  show (req.prompt_ids ++ req.output_ids).length - 1 ≤ req.input_len + req.output_ids.length
  rw [List.length_append]
  exact Nat.sub_le _ _

theorem held_views_le (current : Option Batch) :
    ((views current).map (·.held)).sum ≤ tokens_of (running_reqs current) := by
  cases current with
  | none => exact Nat.zero_le _
  | some batch => simpa [views, running_reqs] using held_view_le batch

/-- How many cells the requests take up, those of the new batch with a token each. -/
theorem Incoming.room (h : self.Incoming setup new own loaded (new.reqs.map (·.new_len)))
    (hAsks : ∀ req ∈ new.reqs, 1 ≤ req.max_output_len) :
    tokens_of (running_reqs self.beside) + ((new.reqs.map (·.input_len)).sum + new.reqs.length) +
      adapter_cells setup.lora_ranks (running_reqs self.beside ++ new.reqs) <
        setup.limits.max_total_tokens := by
  have hNew : ((new.reqs.map (·.new_len)).map (·.held)).sum =
      (((new.reqs.map (·.input_len)).sum + new.reqs.length : Nat) : Int) := by
    generalize new.reqs = reqs
    induction reqs with
    | nil => rfl
    | cons req reqs ih =>
        simp only [List.map_cons, List.sum_cons, List.length_cons, ih]
        show ((req.input_len : Int) + 1) + _ = _
        push_cast
        omega
  have hHeld := h.within.held_le fun j hj => by
    rcases List.mem_append.mp hj with hj | hj
    · exact running_left_nonneg h.unfinished_old j hj
    · obtain ⟨req, hReq, rfl⟩ := List.mem_map.mp hj
      exact (Admission.new_len_nonneg (hAsks req hReq)).2
  rw [List.map_append, List.sum_append, sum_running_len, hNew, Setup.budget] at hHeld
  omega

theorem Rest.room (h : self.Rest setup) (hBatch : self.running_batch = some batch) :
    tokens_of batch.reqs + adapter_cells setup.lora_ranks batch.reqs <
      setup.limits.max_total_tokens := by
  have hUnfinished := h.unfinished
  rw [running, hBatch] at hUnfinished
  have hHeld := (h.within batch hBatch).held_le (running_left_nonneg hUnfinished)
  rw [sum_running_len, Setup.budget] at hHeld
  omega

/-- The loaded adapters take up what has been counted and what is set aside. -/
theorem length_a_loc_le (h : self.Base setup Inv) (hRoomy : self.Roomy setup)
    (hRun : self.running ++ self.joining = reqs) :
    self.worker.infer_adapter.a_loc.length ≤
      adapter_cells setup.lora_ranks reqs + setup.pool_size_lora := by
  have hIntact := h.sound.intact
  refine hIntact.toLayout.length_a_loc.trans_le ?_
  exact cells_of_le hRoomy hIntact.nodup hRun fun dir hDir => .inl hDir

/-! ### Every call succeeds -/

theorem load_adapters_ok (hValid : setup.Valid Inv) (h : self.Base setup Inv)
    (hRoomy : self.Roomy setup)
    (hIncoming : self.Incoming setup new [] false (new.reqs.map Req.new_len)) :
    ∃ worker, self.worker.load_adapters setup.adapters setup.weights new.adapter_dirs false =
      some worker := by
  have hServed : ∀ req ∈ new.reqs, Taken setup req := fun req hReq =>
    h.origin_incoming hIncoming.incoming hReq
  refine ModelRpcServer.load_adapters_ok h.sound hIncoming.serves hValid.offers
    (List.nodup_dedup _) (fun dir hDir => ?_) fun _ names hNodup hNames => ?_
  · obtain ⟨req, hReq, hName⟩ := List.mem_map.mp (List.mem_dedup.mp hDir)
    obtain ⟨adapter, hAdapter, hSame⟩ := (hServed req hReq).served
    exact ⟨adapter, hAdapter, Option.some.inj (hSame.symm.trans hName)⟩
  · have hRoom := hIncoming.room fun req hReq => (hServed req hReq).asks
    have hHeld := held_views_le self.beside
    have hCells := cells_of_le hRoomy hNodup (incoming_eq hIncoming.incoming) fun dir hDir => by
      rcases List.mem_append.mp (hNames hDir) with hDir | hDir
      · exact .inl hDir
      · obtain ⟨_, hMem, rfl⟩ := List.mem_filterMap.mp hDir
        rw [List.map_append]
        exact .inr (List.mem_append_right _ (List.mem_dedup.mp hMem))
    rw [List.nil_append, Setup.tot_size]
    omega

theorem prefill_ok (h : self.Base setup Inv) (hRoomy : self.Roomy setup) (hFresh : Fresh new)
    (hIncoming : self.Incoming setup new [⟨new.batch_id, false, new.reqs.map Req.text⟩] true
      (new.reqs.map Req.new_len)) :
    ∃ result, self.worker.forward setup.model new.batch_id true = some result := by
  have hServes : self.worker.Serves
    (⟨new.batch_id, !true, new.reqs.map Req.text⟩ :: views self.beside) := hIncoming.serves
  refine ModelRpcServer.forward_ok h.sound hServes (hIncoming.ready_new rfl) ?_
  have hRoom := hIncoming.room fun req hReq => (h.origin_incoming hIncoming.incoming hReq).asks
  have hHeld := held_views_le self.beside
  have hTable := length_a_loc_le h hRoomy (incoming_eq hIncoming.incoming)
  have hTokens : ((new.reqs.map Req.text).map (·.tokens.length)).sum =
      (new.reqs.map (·.input_len)).sum := by
    rw [List.map_map]
    refine congrArg List.sum (List.map_congr_left fun req hReq => ?_)
    show (req.prompt_ids ++ req.output_ids).length = req.prompt_ids.length
    rw [hFresh.no_output req hReq, List.append_nil]
  have hNone : View.held ⟨new.batch_id, !true, new.reqs.map Req.text⟩ = 0 := rfl
  rw [if_pos rfl, hTokens, hNone, Setup.tot_size]
  omega

theorem decode_ok (h : self.Base setup Inv) (hRoomy : self.Roomy setup) (hRest : self.Rest setup)
    (hBatch : self.running_batch = some batch) :
    ∃ result, self.worker.forward setup.model batch.batch_id false = some result := by
  have hIncoming := hRest.incoming hBatch
  have hBeside : self.beside = none := by rw [beside, hRest.alone]
  have hServes : self.worker.Serves
    (⟨batch.batch_id, !false, batch.reqs.map Req.text⟩ :: views self.beside) := hIncoming.serves
  refine ModelRpcServer.forward_ok h.sound hServes (hIncoming.ready_new rfl) ?_
  have hRoom := hRest.room hBatch
  have hRun := incoming_eq hIncoming.incoming
  rw [hBeside] at hRun ⊢
  have hTable := length_a_loc_le h hRoomy hRun
  have hHeld : (batch.reqs.map Req.text).length +
      View.held ⟨batch.batch_id, !false, batch.reqs.map Req.text⟩ = tokens_of batch.reqs := by
    have hPrompts : ∀ req ∈ batch.reqs, req.prompt_ids ≠ [] := fun req hReq =>
      (h.origin_incoming hIncoming.incoming hReq).prompt
    rw [View.held, tokens_of]
    generalize batch.reqs = reqs at hPrompts ⊢
    induction reqs with
    | nil => rfl
    | cons req reqs ih =>
        have hFirst := List.length_pos_iff.mpr (hPrompts req List.mem_cons_self)
        have hRest := ih fun other hOther => hPrompts other (List.mem_cons_of_mem _ hOther)
        have hText : req.text.tokens.length = req.input_len + req.output_ids.length :=
          List.length_append
        simp only [Bool.not_false, if_true, List.map_cons, List.length_cons, List.sum_cons,
          hText] at hRest ⊢
        unfold Req.input_len at hRest ⊢
        omega
  rw [show running_reqs none ++ batch.reqs = batch.reqs from rfl] at hTable
  rw [if_neg Bool.false_ne_true, show views none = [] from rfl, List.map_nil, List.sum_nil,
    Setup.tot_size]
  omega

theorem settle_ok (h : self.Base setup Inv) (hLeaving : self.Leaving setup new) :
    ∃ worker, self.settle_batch new = some worker := by
  obtain ⟨⟨all, hSub, hIncoming⟩, -⟩ := hLeaving
  unfold settle_batch
  split
  · exact ModelRpcServer.remove_batch_ok h.sound hIncoming.serves
  · rename_i hSome
    refine ModelRpcServer.filter_batch_ok h.sound hIncoming.serves ?_ ?_
    · simpa [Batch.is_clear] using hSome
    · have hIds : new.reqs.map (·.request_id) =
          (new.reqs.map Req.text).map (·.request_id) := by
        rw [List.map_map]
        rfl
      exact hIds ▸ hSub.map _

theorem Base.known (h : self.Base setup Inv) {req : Req} (hReq : req ∈ self.present setup) :
    (setup.lora_ranks req.adapter_dir).isSome := by
  obtain ⟨adapter, hAdapter, hDir⟩ := (h.origin hReq).served
  rw [hDir, Setup.lora_ranks, Option.isSome_map]
  exact List.find?_isSome.mpr ⟨adapter, hAdapter, beq_self_eq_true adapter.lora_dir⟩

theorem choose_ok (hTotal : setup.scheduler.Total Inv) (h : self.Base setup Inv) :
    ∃ next, self.choose setup = some next := by
  have hKnown : ∀ current, self.running_batch = current →
      ∀ req ∈ running_reqs current ++ setup.scheduler.waiting_req_list self.req_queue,
        (setup.lora_ranks req.adapter_dir).isSome := by
    rintro current rfl req hReq
    rcases List.mem_append.mp hReq with hReq | hReq
    · exact h.known (List.mem_append_left _ (List.mem_append_left _ hReq))
    · exact h.known (List.mem_append_right _ hReq)
  unfold choose
  split
  · rename_i hNone
    obtain ⟨result, hGenerate⟩ := hTotal.generate setup.lora_ranks _ none h.queue (hKnown _ hNone)
    rw [hGenerate]
    exact ⟨_, rfl⟩
  · rename_i batch hBatch
    split
    · split
      · obtain ⟨result, hNext⟩ := hTotal.next _ h.queue
        rw [hNext]
        exact ⟨_, rfl⟩
      · exact ⟨_, rfl⟩
    · obtain ⟨result, hGenerate⟩ :=
        hTotal.generate setup.lora_ranks _ (some batch) h.queue (hKnown _ hBatch)
      rw [hGenerate]
      exact ⟨_, rfl⟩

/-- What the worker answers is always taken. -/
theorem take_answer_ok (is_prefill : Bool) {result : ModelRpcServer V × List (String × Token)}
    (h : self.Base setup Inv)
    (hIncoming : self.Incoming setup new
      [⟨new.batch_id, !is_prefill, new.reqs.map Req.text⟩] true jobs)
    (hForward : self.worker.forward setup.model new.batch_id is_prefill = some result) :
    ∃ taken, take_answer setup new result.2 = some taken := by
  obtain ⟨worker, req_ans⟩ := result
  obtain ⟨-, -, rfl, -⟩ := h.sound.forward hIncoming.serves (hIncoming.ready_new rfl) hForward
  have hIds := h.nodup_incoming hIncoming.incoming
  rw [List.map_append] at hIds
  have hOpen : Open new.reqs := by
    intro req hReq
    refine h.books.is_open req (List.mem_append_left _ ?_)
    rw [incoming_eq hIncoming.incoming]
    exact List.mem_append_right _ hReq
  obtain ⟨finished, hTake, -⟩ := take_answer_eq (List.nodup_append'.mp hIds).2.1 hOpen
  exact ⟨_, hTake⟩

/-! ### Each call -/

/-- The adapters of the new requests are loaded. -/
theorem load_ok (hPc : self.pc = .load) (hValid : setup.Valid Inv) (h : self.Base setup Inv)
    (hStage : self.Stage setup) (hRoomy : self.Roomy setup) :
    ∃ next, self.advance setup = some next := by
  simp only [Stage, advance, hPc] at hStage ⊢
  obtain ⟨new, -, hIncoming⟩ := hStage
  obtain ⟨worker, hLoad⟩ := load_adapters_ok hValid h hRoomy hIncoming
  rw [hIncoming.incoming, Option.bind_some, hLoad]
  exact ⟨_, rfl⟩

theorem init_ok (hPc : self.pc = .init) (hStage : self.Stage setup) :
    ∃ next, self.advance setup = some next := by
  simp only [Stage, advance, hPc] at hStage ⊢
  obtain ⟨new, hFresh, hIncoming⟩ := hStage
  obtain ⟨worker, hAdd⟩ :
      ∃ worker, self.worker.add_batch new.batch_id new.reqs = some worker :=
    ModelRpcServer.add_batch_ok hFresh.some_req
  rw [hIncoming.incoming, Option.bind_some, hAdd]
  exact ⟨_, rfl⟩

/-- The new requests are prefilled and what the worker answers is taken. -/
theorem prefill_call_ok (hPc : self.pc = .prefill) (h : self.Base setup Inv)
    (hStage : self.Stage setup) (hRoomy : self.Roomy setup) :
    ∃ next, self.advance setup = some next := by
  simp only [Stage, advance, hPc] at hStage ⊢
  obtain ⟨new, hFresh, hIncoming⟩ := hStage
  obtain ⟨result, hForward⟩ := prefill_ok h hRoomy hFresh hIncoming
  obtain ⟨taken, hTake⟩ := take_answer_ok true h hIncoming hForward
  rw [hIncoming.incoming, Option.bind_some, hForward, Option.bind_some, hTake]
  exact ⟨_, rfl⟩

/-- The requests that have ended are taken out of the new batch. -/
theorem settle_call_ok (hPc : self.pc = .settle) (h : self.Base setup Inv)
    (hStage : self.Stage setup) : ∃ next, self.advance setup = some next := by
  simp only [Stage, advance, hPc] at hStage ⊢
  obtain ⟨new, hLeaving⟩ := hStage
  obtain ⟨all, -, hIncoming⟩ := hLeaving.goes
  obtain ⟨worker, hSettle⟩ := settle_ok h hLeaving
  rw [hIncoming.incoming, Option.bind_some, hSettle]
  exact ⟨_, rfl⟩

/-- The worker has both the running batch and the one that joins it. -/
theorem merge_ok (hPc : self.pc = .merge) (h : self.Base setup Inv) (hStage : self.Stage setup) :
    ∃ next, self.advance setup = some next := by
  simp only [Stage, advance, hPc] at hStage ⊢
  obtain ⟨mini_batch, hMini, -, -, hIncoming⟩ := hStage
  obtain ⟨-, batch, hBatch, -⟩ := h.joining_id mini_batch hMini
  have hServes := hIncoming.serves
  rw [beside, hMini, hBatch] at hServes
  obtain ⟨worker, hMerge⟩ :
      ∃ worker, self.worker.merge_batch batch.batch_id mini_batch.batch_id = some worker :=
    ModelRpcServer.merge_batch_ok h.sound (hServes.trans (List.Perm.swap _ _ _))
  rw [hBatch, hMini, Option.bind_some, Option.bind_some, hMerge]
  exact ⟨_, rfl⟩

/-- What is loaded ahead may find no room, and is then left out. -/
theorem prefetch_ok {adapter_dirs : List (Option String)}
    (hPc : self.pc = .prefetch adapter_dirs) (hValid : setup.Valid Inv)
    (h : self.Base setup Inv) (hStage : self.Stage setup) :
    ∃ next, self.advance setup = some next := by
  simp only [Stage, advance, hPc] at hStage ⊢
  obtain ⟨hRest, -, hDirs, hServed⟩ := hStage
  obtain ⟨worker, hLoad⟩ : ∃ worker, self.worker.load_adapters setup.adapters setup.weights
      adapter_dirs true = some worker :=
    ModelRpcServer.load_adapters_ok h.sound hRest.serves hValid.offers hDirs hServed
      fun hFalse => by cases hFalse
  rw [hLoad]
  exact ⟨_, rfl⟩

/-- The running batch gets one more token, unless the queue's count of it raises. -/
theorem decode_call_ok {counted : Bool} (hPc : self.pc = .decode counted)
    (hTotal : setup.scheduler.Total Inv) (h : self.Base setup Inv)
    (hStage : self.Stage setup) (hRoomy : self.Roomy setup) :
    ∃ next, self.advance setup = some next := by
  simp only [Stage, advance, hPc] at hStage ⊢
  obtain ⟨hRest, hSome⟩ := hStage
  obtain ⟨batch, hBatch⟩ := Option.isSome_iff_exists.mp hSome
  obtain ⟨req_queue, hUpdate⟩ := hTotal.update _ batch h.queue
  obtain ⟨result, hForward⟩ := decode_ok h hRoomy hRest hBatch
  obtain ⟨taken, hTake⟩ :=
    take_answer_ok false h (hRest.incoming hBatch) hForward
  rw [hBatch, Option.bind_some, hUpdate, Option.bind_some, hForward, Option.bind_some, hTake]
  exact ⟨_, rfl⟩

/-- One of the adapters that stay is loaded, if any is to stay: the worker fails where it finds
none of them. -/
theorem offload_ok {counted : Bool} (hPc : self.pc = .offload counted)
    (h : self.Base setup Inv) (hStage : self.Stage setup) :
    ∃ next, self.advance setup = some next := by
  simp only [Stage, advance, hPc] at hStage ⊢
  obtain ⟨hMini, new, ⟨all, -, hIncoming⟩, -⟩ := hStage
  have hBatch := hIncoming.incoming
  rw [incoming, hMini, Option.none_or] at hBatch
  have hReserve : new.adapter_dirs = [] ∨
      ∃ dir ∈ self.worker.infer_adapter.adapter_dirs, some dir ∈ new.adapter_dirs := by
    rcases List.eq_nil_or_concat new.reqs with hNone | ⟨reqs, req, hSome⟩
    · rw [Batch.adapter_dirs, hNone]
      exact .inl rfl
    · have hReq : req ∈ new.reqs := by simp [hSome]
      obtain ⟨adapter, -, hDir⟩ := (h.origin_incoming hIncoming.incoming hReq).served
      refine .inr ⟨adapter.lora_dir, hIncoming.ready_new rfl req.text
        (List.mem_map_of_mem hReq) _ hDir, ?_⟩
      exact List.mem_dedup.mpr (List.mem_map.mpr ⟨req, hReq, hDir⟩)
  obtain ⟨worker, hOffload⟩ := ModelRpcServer.offload_adapters_ok hReserve
  rw [hBatch, Option.bind_some, hOffload]
  exact ⟨_, rfl⟩

/-- The requests that have ended are taken out of the running batch. -/
theorem settle_running_ok {counted : Bool} (hPc : self.pc = .settle_running counted)
    (h : self.Base setup Inv) (hStage : self.Stage setup) :
    ∃ next, self.advance setup = some next := by
  simp only [Stage, advance, hPc] at hStage ⊢
  obtain ⟨hMini, new, hLeaving⟩ := hStage
  obtain ⟨all, -, hIncoming⟩ := hLeaving.goes
  have hBatch := hIncoming.incoming
  rw [incoming, hMini, Option.none_or] at hBatch
  obtain ⟨worker, hSettle⟩ := settle_ok h hLeaving
  rw [hBatch, Option.bind_some, hSettle]
  exact ⟨_, rfl⟩

/-- Everything can be offloaded where nothing is to stay. -/
theorem offload_all_ok {has_wait_tokens : Nat} (hPc : self.pc = .offload_all has_wait_tokens) :
    ∃ next, self.advance setup = some next := by
  obtain ⟨worker, hOffload⟩ : ∃ worker, self.worker.offload_adapters [] = some worker :=
    ModelRpcServer.offload_adapters_ok (.inl rfl)
  simp only [advance, hPc, hOffload]
  exact ⟨_, rfl⟩

/-- The next call succeeds. -/
theorem advance_ok (hValid : setup.Valid Inv) (hTotal : setup.scheduler.Total Inv)
    (h : self.Base setup Inv) (hStage : self.Stage setup) (hRoomy : self.Roomy setup)
    (hAlive : self.pc ≠ .dead) : ∃ next, self.advance setup = some next := by
  cases hPc : self.pc with
  | top =>
      simp only [advance, hPc]
      exact choose_ok hTotal h
  | load => exact load_ok hPc hValid h hStage hRoomy
  | init => exact init_ok hPc hStage
  | prefill => exact prefill_call_ok hPc h hStage hRoomy
  | settle => exact settle_call_ok hPc h hStage
  | merge => exact merge_ok hPc h hStage
  | prefetch adapter_dirs => exact prefetch_ok hPc hValid h hStage
  | decode counted => exact decode_call_ok hPc hTotal h hStage hRoomy
  | offload counted => exact offload_ok hPc h hStage
  | settle_running counted => exact settle_running_ok hPc h hStage
  | offload_all has_wait_tokens => exact offload_all_ok hPc
  | dead => exact absurd hPc hAlive

/-! ### The task goes on -/

/-- There is a next call, and what has come in is left alone. -/
structure Onward (router router' : RouterManager σ V) : Prop where
  alive : router'.pc ≠ .dead
  received : router'.received = router.received
  abort_ids : router'.abort_ids = router.abort_ids

theorem filter_running_batch_onward (self : RouterManager σ V) (has_wait_tokens : Nat) :
    Onward self (self.filter_running_batch has_wait_tokens) := by
  unfold filter_running_batch
  split
  · exact ⟨fun hDead => Phase.noConfusion hDead, rfl, rfl⟩
  · split <;> exact ⟨fun hDead => Phase.noConfusion hDead, rfl, rfl⟩

theorem prefilled_onward (self : RouterManager σ V) : Onward self self.prefilled := by
  unfold prefilled
  split
  · split <;> exact ⟨fun hDead => Phase.noConfusion hDead, rfl, rfl⟩
  · exact filter_running_batch_onward self 0

theorem choose_onward (hAlive : self.pc ≠ .dead) (hChoose : self.choose setup = some self') :
    Onward self self' := by
  rcases choose_cases hChoose with ⟨-, req_queue, new_batch, -, ⟨-, rfl⟩ | ⟨reqs, -, rfl⟩⟩ |
    ⟨batch, -, rfl | ⟨reqs, -, rfl⟩ | ⟨req_queue, new_mini_batch, -, ⟨-, rfl⟩ | ⟨reqs, -, rfl⟩⟩⟩
  · exact ⟨hAlive, rfl, rfl⟩
  all_goals exact ⟨fun hDead => Phase.noConfusion hDead, rfl, rfl⟩

/-- Setting a batch takes nothing in. -/
theorem set_incoming_onward (self : RouterManager σ V) (batch : Batch) :
    (self.set_incoming batch).received = self.received ∧
    (self.set_incoming batch).abort_ids = self.abort_ids := by
  unfold set_incoming
  split <;> exact ⟨rfl, rfl⟩

/-- A call that succeeds leads to another one. -/
theorem advance_onward (hAdvance : self.advance setup = some self') : Onward self self' := by
  unfold advance at hAdvance
  cases hPc : self.pc with
  | top =>
      simp only [hPc] at hAdvance
      exact choose_onward (by rw [hPc]; exact fun hDead => Phase.noConfusion hDead) hAdvance
  | load | init | offload counted =>
      simp only [hPc] at hAdvance
      obtain ⟨batch, -, hRest⟩ := Option.bind_eq_some_iff.mp hAdvance
      obtain ⟨worker, -, rfl⟩ := Option.map_eq_some_iff.mp hRest
      exact ⟨fun hDead => Phase.noConfusion hDead, rfl, rfl⟩
  | prefill =>
      simp only [hPc] at hAdvance
      obtain ⟨batch, -, hRun⟩ := Option.bind_eq_some_iff.mp hAdvance
      obtain ⟨⟨worker, req_ans⟩, -, hTaken⟩ := Option.bind_eq_some_iff.mp hRun
      obtain ⟨⟨batch', finished, outs⟩, -, rfl⟩ := Option.map_eq_some_iff.mp hTaken
      obtain ⟨hReceived, hAborts⟩ := set_incoming_onward self batch'
      dsimp only
      split
      · exact ⟨fun hDead => Phase.noConfusion hDead, hReceived, hAborts⟩
      · obtain ⟨hAlive, hSame, hSameAborts⟩ := prefilled_onward
          { self.set_incoming batch' with worker, sent := self.sent ++ outs }
        exact ⟨hAlive, hSame.trans hReceived, hSameAborts.trans hAborts⟩
  | settle =>
      simp only [hPc] at hAdvance
      obtain ⟨batch, -, hRest⟩ := Option.bind_eq_some_iff.mp hAdvance
      obtain ⟨worker, -, rfl⟩ := Option.map_eq_some_iff.mp hRest
      obtain ⟨hAlive, hReceived, hAborts⟩ :=
        prefilled_onward { self with worker, pc := .settle }
      exact ⟨hAlive, hReceived, hAborts⟩
  | merge =>
      simp only [hPc] at hAdvance
      obtain ⟨batch, -, hRest⟩ := Option.bind_eq_some_iff.mp hAdvance
      obtain ⟨mini_batch, -, hMerge⟩ := Option.bind_eq_some_iff.mp hRest
      obtain ⟨worker, -, rfl⟩ := Option.map_eq_some_iff.mp hMerge
      exact ⟨fun hDead => Phase.noConfusion hDead, rfl, rfl⟩
  | prefetch adapter_dirs =>
      simp only [hPc] at hAdvance
      obtain ⟨worker, -, rfl⟩ := Option.map_eq_some_iff.mp hAdvance
      exact ⟨fun hDead => Phase.noConfusion hDead, rfl, rfl⟩
  | decode counted =>
      simp only [hPc] at hAdvance
      obtain ⟨batch, -, hUpdated⟩ := Option.bind_eq_some_iff.mp hAdvance
      obtain ⟨req_queue, -, hRun⟩ := Option.bind_eq_some_iff.mp hUpdated
      obtain ⟨⟨worker, req_ans⟩, -, hTaken⟩ := Option.bind_eq_some_iff.mp hRun
      obtain ⟨⟨batch', finished, outs⟩, -, rfl⟩ := Option.map_eq_some_iff.mp hTaken
      dsimp only
      split
      · exact ⟨fun hDead => Phase.noConfusion hDead, rfl, rfl⟩
      · obtain ⟨hAlive, hReceived, hAborts⟩ := filter_running_batch_onward
          { self with
            req_queue, worker, running_batch := some batch', sent := self.sent ++ outs,
            pc := .decode counted }
          (if counted then self.has_wait_tokens + 1 else self.has_wait_tokens)
        exact ⟨hAlive, hReceived, hAborts⟩
  | settle_running counted =>
      simp only [hPc] at hAdvance
      obtain ⟨batch, -, hRest⟩ := Option.bind_eq_some_iff.mp hAdvance
      obtain ⟨worker, -, rfl⟩ := Option.map_eq_some_iff.mp hRest
      obtain ⟨hAlive, hReceived, hAborts⟩ := filter_running_batch_onward
        { self with worker, pc := .settle_running counted }
        (if counted then self.has_wait_tokens + 1 else self.has_wait_tokens)
      exact ⟨hAlive, hReceived, hAborts⟩
  | offload_all has_wait_tokens =>
      simp only [hPc] at hAdvance
      obtain ⟨worker, -, rfl⟩ := Option.map_eq_some_iff.mp hAdvance
      exact ⟨fun hDead => Phase.noConfusion hDead, rfl, rfl⟩
  | dead => simp [hPc] at hAdvance

/-- No exception ends the task that runs the batches, in no run in which the loaded adapters that no
request uses find room in the part of the pool that is set aside for adapters.

The server is `Valid`: a lawful queue, and ranks that suit the copy kernel. `Spacious` holds at every
step of the run: besides the room before each call it asks what `Proper` asks of a request that comes
in, an id of its own, an adapter that is served, a prompt and a token to generate. An adapter that is
not served would raise a `KeyError` in the queue, and a request without an adapter that is left alone
would make `offload_adapters` fail. `Total` says that the queue raises nothing as long as the ranks of
the adapters are known, which is so for `ReqQueue`. -/
theorem never_dead {queue : σ} {buffer : Nat → V} (hValid : setup.Valid Inv)
    (hTotal : setup.scheduler.Total Inv) (hQueue : Inv queue)
    (hEmpty : setup.scheduler.waiting_req_list queue = [])
    (run : (machine setup queue buffer).Reach (Spacious setup) self) : self.pc ≠ .dead := by
  suffices h : (self.Base setup Inv ∧ self.Stage setup) ∧ self.pc ≠ .dead from h.2
  refine run.invariant
    (fun self => (self.Base setup Inv ∧ self.Stage setup) ∧ self.pc ≠ .dead) ?_ ?_
  · rintro router hStart
    refine ⟨start_spec hQueue hEmpty hStart, ?_⟩
    obtain rfl := hStart
    exact fun hDead => Phase.noConfusion hDead
  · rintro router event router' ⟨hInv, hAlive⟩ hSpacious hStep
    refine ⟨step_spec hValid hInv hSpacious.proper hStep, ?_⟩
    cases event with
    | step =>
        obtain ⟨next, hAdvance⟩ := advance_ok hValid hTotal hInv.1 hInv.2 hSpacious hAlive
        obtain rfl := Option.some.inj hStep
        rw [hAdvance, Option.getD_some]
        exact (advance_onward hAdvance).alive
    | add_req adapter_dir prompt_ids sampling_params request_id =>
        obtain rfl := Option.some.inj hStep
        exact hAlive
    | abort request_id =>
        obtain rfl := Option.some.inj hStep
        exact hAlive

/-- Three requests, one of which is aborted, come to their ends. -/
theorem three_requests_spacious : ∃ self : RouterManager (List Req) Nat,
    finished_ids self.sent = ["x", "z"] ∧ self.pc ≠ .dead := by
  have hRun : ((machine two_adapters [] fun _ => 0).replayUnder (Spacious two_adapters)
      { req_queue := []
        worker :=
          { cache := []
            infer_adapter := {}
            memory := { mem_manager := .new 52, buffer := fun _ => 0 } } } three_requests).map
      (fun self => finished_ids self.sent) = some ["x", "z"] := by
    decide +kernel
  obtain ⟨self, hReplay, hEnd⟩ := Option.map_eq_some_iff.mp hRun
  exact ⟨self, hEnd, never_dead two_adapters_valid (ReqQueue.total _) trivial rfl
    (Machine.System.reach_of_replayUnder (.start rfl) hReplay)⟩

end RouterManager

end Slora
