import SwarmLoRA.Slora.RouterSteps

namespace Slora

open Data

/-- The requests of the batch that go on after a pass. -/
def Batch.goes_on {σ V : Type} (setup : Setup σ V) (batch : Batch) : Batch :=
  ⟨batch.batch_id, (batch.reqs.map setup.go_on).filter (!·.has_generate_finished)⟩

namespace RouterManager

variable {σ V : Type} {setup : Setup σ V} {Inv : σ → Prop} {self self' : RouterManager σ V}
  {reqs reqs' others : List Req} {batch new : Batch} {current : Option Batch}
  {worker : ModelRpcServer V} {own : List View} {jobs : List Peak.Job}

/-! ### The requests that go on -/

theorem goes_on_unfinished : Unfinished (batch.goes_on setup).reqs := by
  intro req hReq
  obtain ⟨hReq, hGoes⟩ := List.mem_filter.mp hReq
  obtain ⟨old, hOld, rfl⟩ := List.mem_map.mp hReq
  exact unfinished_of_go_on (by simpa using hGoes)

theorem goes_on_text : ((batch.goes_on setup).reqs.map Req.text).Sublist
    ((batch.reqs.map Req.text).map (·.grow setup.model setup.weights)) := by
  have hSub : (batch.goes_on setup).reqs.Sublist (batch.reqs.map setup.go_on) :=
    List.filter_sublist
  have hTexts : (batch.reqs.map setup.go_on).map Req.text =
      (batch.reqs.map Req.text).map (·.grow setup.model setup.weights) := by
    rw [List.map_map, List.map_map]
    exact List.map_congr_left fun req _ => text_go_on req
  exact hTexts ▸ hSub.map Req.text

/-- The adapters of fewer requests leave more room. -/
theorem budget_mono (hSub : reqs'.map (·.adapter_dir) ⊆ reqs.map (·.adapter_dir)) :
    setup.budget reqs ≤ setup.budget reqs' := by
  have hDirs : reqs'.map (·.adapter_dir) ⊆ (reqs.map (·.adapter_dir)).dedup :=
    fun dir hDir => List.mem_dedup.mpr (hSub hDir)
  have hCells := Admission.adapter_cells_le setup.lora_ranks hDirs
  rw [Setup.budget, Setup.budget, adapter_cells, adapter_cells]
  omega

theorem goes_on_budget (others : List Req) (batch : Batch) : setup.budget (others ++ batch.reqs) ≤
    setup.budget (others ++ (batch.goes_on setup).reqs) := by
  refine budget_mono ?_
  rw [List.map_append, List.map_append]
  refine List.append_subset.mpr ⟨List.subset_append_left _ _, fun dir hDir => ?_⟩
  obtain ⟨req, hReq, rfl⟩ := List.mem_map.mp hDir
  obtain ⟨old, hOld, rfl⟩ := List.mem_map.mp (List.mem_of_mem_filter hReq)
  exact List.mem_append_right _ (List.mem_map.mpr ⟨old, hOld, rfl⟩)

theorem held_nonneg (jobs : List Peak.Job) (f : Req → Peak.Job) (hf : ∀ req, 0 ≤ (f req).held)
    (hJobs : ∀ j ∈ jobs, 0 ≤ j.held) : ∀ j ∈ jobs ++ reqs.map f, 0 ≤ j.held := by
  intro j hj
  rcases List.mem_append.mp hj with hj | hj
  · exact hJobs j hj
  · obtain ⟨req, -, rfl⟩ := List.mem_map.mp hj
    exact hf req

theorem running_len_nonneg (req : Req) : 0 ≤ req.running_len.held :=
  Int.natCast_nonneg (req.input_len + req.output_ids.length)

/-- A pass over the prompts leaves the requests within what was set aside for them. -/
theorem within_prefill (hOutput : ∀ req ∈ batch.reqs, req.output_ids = [])
    (h : Peak.Within (others.map (·.running_len) ++ batch.reqs.map (·.new_len))
      (setup.budget (others ++ batch.reqs))) :
    Peak.Within (others.map (·.running_len) ++ (batch.goes_on setup).reqs.map (·.running_len))
      (setup.budget (others ++ (batch.goes_on setup).reqs)) := by
  have hSub : ((batch.goes_on setup).reqs.map (·.running_len)).Sublist
      (batch.reqs.map fun req => (setup.go_on req).running_len) := by
    have hAll : (batch.reqs.map setup.go_on).map (·.running_len) =
        batch.reqs.map fun req => (setup.go_on req).running_len := List.map_map
    exact hAll ▸ List.Sublist.map _ List.filter_sublist
  have hLower : Peak.Within (others.map (·.running_len) ++
      batch.reqs.map fun req => (setup.go_on req).running_len)
        (setup.budget (others ++ batch.reqs)) := by
    refine h.lower (fun req _ => ?_) (fun req hReq => ?_) fun req hReq => ?_
    · show (0 : Int) ≤ req.input_len + 1
      omega
    · show (((setup.go_on req).input_len : Int) + (setup.go_on req).output_ids.length) ≤
        req.input_len + 1
      have hGrown : (setup.go_on req).output_ids = req.output_ids ++ [setup.next_token req] := rfl
      rw [hGrown, hOutput req hReq]
      exact le_rfl
    · show ((setup.go_on req).max_output_len : Int) - (setup.go_on req).output_ids.length - 1 ≤
        req.max_output_len - 1
      have hSame : (setup.go_on req).max_output_len = req.max_output_len := rfl
      omega
  refine (hLower.sublist (hSub.append_left _) ?_).mono (goes_on_budget others batch)
  exact held_nonneg (others.map (·.running_len)) (fun req => (setup.go_on req).running_len)
    (fun req => running_len_nonneg _) fun j hj => by
      obtain ⟨req, -, rfl⟩ := List.mem_map.mp hj
      exact running_len_nonneg req

/-- Every request takes one cell more, as was foreseen. -/
theorem within_decode (h : Peak.Within (batch.reqs.map (·.running_len))
      (setup.budget batch.reqs)) :
    Peak.Within ((batch.goes_on setup).reqs.map (·.running_len))
      (setup.budget (batch.goes_on setup).reqs) := by
  have hAdvance : (batch.reqs.map (·.running_len)).map Peak.Job.advance =
      (batch.reqs.map setup.go_on).map (·.running_len) := by
    rw [List.map_map, List.map_map]
    refine List.map_congr_left fun req _ => ?_
    have hGrown : (setup.go_on req).output_ids = req.output_ids ++ [setup.next_token req] := rfl
    have hMax : (setup.go_on req).max_output_len = req.max_output_len := rfl
    have hInput : (setup.go_on req).input_len = req.input_len := rfl
    simp only [Function.comp_apply, Peak.Job.advance, Req.running_len, hGrown, hMax, hInput,
      List.length_append, List.length_singleton, Peak.Job.mk.injEq]
    omega
  have hBudget : setup.budget batch.reqs ≤ setup.budget (batch.goes_on setup).reqs :=
    goes_on_budget [] batch
  have hAll := h.advance
  rw [hAdvance] at hAll
  refine (hAll.sublist (List.Sublist.map _ List.filter_sublist) ?_).mono hBudget
  exact held_nonneg [] (·.running_len) running_len_nonneg fun _ hj => absurd hj List.not_mem_nil

/-! ### The answers -/

theorem incoming_set (self : RouterManager σ V) (batch : Batch) :
    (self.set_incoming batch).incoming = some batch := by
  cases hMini : self.new_mini_batch <;> simp [incoming, set_incoming, hMini]

theorem beside_set (self : RouterManager σ V) (batch : Batch) :
    (self.set_incoming batch).beside = self.beside := by
  cases hMini : self.new_mini_batch <;> simp [beside, set_incoming, hMini]

/-- The requests of the batch that is being run change, and it stays what it is. -/
theorem Base.set_incoming {sent : List TokenOut} (h : self.Base setup Inv)
    (hIncoming : self.incoming = some new) (hId : batch.batch_id = new.batch_id)
    (hBooks : Books setup self.received self.abort_ids sent
      (running_reqs self.beside ++ batch.reqs ++ self.waiting setup))
    (hSound : worker.Sound setup.model setup.rank setup.weights setup.tot_size)
    (hServed : ∀ dir ∈ worker.infer_adapter.adapter_dirs, Served setup dir) (pc : Phase) :
    { self.set_incoming batch with worker, sent, pc }.Base setup Inv := by
  have hRun := incoming_eq (incoming_set self batch)
  rw [beside_set] at hRun
  rw [← hRun] at hBooks
  unfold incoming at hIncoming
  cases hMini : self.new_mini_batch with
  | some mini_batch =>
      rw [hMini, Option.some_or] at hIncoming
      obtain rfl := Option.some.inj hIncoming
      have hSame : self.set_incoming batch = { self with new_mini_batch := some batch } := by
        simp [RouterManager.set_incoming, hMini]
      rw [hSame] at hBooks ⊢
      refine ⟨hBooks, h.fresh, h.queue, hSound, h.running_id, ?_, hServed⟩
      rintro other hOther
      obtain rfl := Option.some.inj hOther
      rw [hId]
      exact h.joining_id _ hMini
  | none =>
      rw [hMini, Option.none_or] at hIncoming
      have hSame : self.set_incoming batch = { self with running_batch := some batch } := by
        simp [RouterManager.set_incoming, hMini]
      rw [hSame] at hBooks ⊢
      refine ⟨hBooks, h.fresh, h.queue, hSound, ?_, ?_, hServed⟩
      · rintro other hOther
        obtain rfl := Option.some.inj hOther
        exact hId ▸ h.running_id _ hIncoming
      · intro other hOther
        rw [hMini] at hOther
        cases hOther

/-- The batch with the tokens of the answer, as far as its requests go on. -/
theorem taken_eq {is_prefill finished : Bool} {req_ans : List (String × Token)}
    {outs : List TokenOut} (h : self.Base setup Inv)
    (hIncoming : self.Incoming setup new
      [⟨new.batch_id, !is_prefill, new.reqs.map Req.text⟩] true jobs)
    (hForward : self.worker.forward setup.model new.batch_id is_prefill = some (worker, req_ans))
    (hTake : take_answer setup new req_ans = some (batch, finished, outs)) :
    batch = new.goes_on setup ∧ outs = new.reqs.map setup.token_out ∧
      (finished = false → (new.goes_on setup).reqs = new.reqs.map setup.go_on) := by
  obtain ⟨-, -, rfl, -⟩ := h.sound.forward hIncoming.serves (hIncoming.ready_new rfl) hForward
  have hIds := h.nodup_incoming hIncoming.incoming
  rw [List.map_append] at hIds
  have hOpen : Open new.reqs := by
    intro req hReq
    refine h.books.is_open req (List.mem_append_left _ ?_)
    rw [incoming_eq hIncoming.incoming]
    exact List.mem_append_right _ hReq
  obtain ⟨flag, hAnswer, hAll⟩ := take_answer_eq (List.nodup_append'.mp hIds).2.1 hOpen
  obtain ⟨rfl, hRest⟩ := Prod.mk.inj (Option.some.inj (hTake.symm.trans hAnswer))
  obtain ⟨rfl, rfl⟩ := Prod.mk.inj hRest
  exact ⟨rfl, rfl, hAll⟩

/-- The answer of a pass: every request gets its token, and those that end leave the batch, but not
yet the worker. -/
theorem answer_step (is_prefill : Bool) {finished : Bool} {req_ans : List (String × Token)}
    {outs : List TokenOut} (h : self.Base setup Inv)
    (hIncoming : self.Incoming setup new
      [⟨new.batch_id, !is_prefill, new.reqs.map Req.text⟩] true jobs)
    (hUnfinished : Unfinished new.reqs)
    (hWithin : Peak.Within ((running_reqs self.beside).map (·.running_len) ++
      (new.goes_on setup).reqs.map (·.running_len))
        (setup.budget (running_reqs self.beside ++ (new.goes_on setup).reqs)))
    (hForward : self.worker.forward setup.model new.batch_id is_prefill = some (worker, req_ans))
    (hTake : take_answer setup new req_ans = some (batch, finished, outs)) (pc : Phase) :
    { self.set_incoming batch with worker, sent := self.sent ++ outs, pc }.Base setup Inv ∧
      { self.set_incoming batch with worker, sent := self.sent ++ outs, pc }.Leaving setup batch ∧
      (finished = false → batch.reqs = new.reqs.map setup.go_on ∧
        { self.set_incoming batch with worker, sent := self.sent ++ outs, pc }.Incoming setup batch
          [view batch] true (batch.reqs.map Req.running_len)) := by
  obtain ⟨hSound, hServes, -, hSame⟩ :=
    h.sound.forward hIncoming.serves (hIncoming.ready_new rfl) hForward
  obtain ⟨rfl, rfl, hAll⟩ := taken_eq h hIncoming hForward hTake
  have hPresent : (self.present setup).Perm
      (new.reqs ++ (running_reqs self.beside ++ self.waiting setup)) := by
    rw [present, incoming_eq hIncoming.incoming, List.append_assoc]
    exact List.perm_append_comm_assoc ..
  have hBooks := (h.books.perm hPresent.symm).pass hUnfinished
  have hTurn : (running_reqs self.beside ++ (new.goes_on setup).reqs ++ self.waiting setup).Perm
      ((new.goes_on setup).reqs ++ (running_reqs self.beside ++ self.waiting setup)) := by
    rw [List.append_assoc]
    exact List.perm_append_comm_assoc ..
  have hId : (new.goes_on setup).batch_id = new.batch_id := rfl
  have hBase := h.set_incoming hIncoming.incoming hId (hBooks.perm hTurn) hSound
    (hSame ▸ h.served) pc
  have hReady : worker.Ready ((new.goes_on setup).reqs.map Req.text) := by
    intro text hText dir hDir
    obtain ⟨old, hOld, rfl⟩ := List.mem_map.mp (goes_on_text.subset hText)
    rw [hSame]
    exact hIncoming.ready_new rfl old hOld dir hDir
  -- the worker still has all of them
  have hGone : ({ self.set_incoming (new.goes_on setup) with
      worker, sent := self.sent ++ new.reqs.map setup.token_out, pc } :
        RouterManager σ V).Incoming setup (new.goes_on setup)
          [⟨new.batch_id, true,
            (new.reqs.map Req.text).map (·.grow setup.model setup.weights)⟩] true
              ((new.goes_on setup).reqs.map (·.running_len)) := by
    have hBeside := beside_set self (new.goes_on setup)
    refine ⟨incoming_set _ _, ?_, ?_, fun _ => hReady, ?_, ?_, ?_⟩
    · show worker.Serves (_ ++ views (self.set_incoming (new.goes_on setup)).beside)
      rw [hBeside]
      exact hServes
    · show worker.Ready ((running_reqs (self.set_incoming (new.goes_on setup)).beside).map _)
      rw [hBeside]
      exact Ready.mono hIncoming.ready_old (hSame ▸ List.Subset.refl _)
    · show Unfinished (running_reqs (self.set_incoming (new.goes_on setup)).beside)
      rw [hBeside]
      exact hIncoming.unfinished_old
    · show ∀ other, (self.set_incoming (new.goes_on setup)).beside = some other → _
      rw [hBeside]
      exact hIncoming.some_old
    · show Peak.Within ((running_reqs (self.set_incoming (new.goes_on setup)).beside).map _ ++ _)
        (setup.budget (running_reqs (self.set_incoming (new.goes_on setup)).beside ++ _))
      rw [hBeside]
      exact hWithin
  refine ⟨hBase, ⟨⟨_, goes_on_text, hGone⟩, goes_on_unfinished⟩, fun hNone => ⟨hAll hNone, ?_⟩⟩
  have hTexts : (new.goes_on setup).reqs.map Req.text =
      (new.reqs.map Req.text).map (·.grow setup.model setup.weights) := by
    rw [hAll hNone, List.map_map, List.map_map]
    exact List.map_congr_left fun req _ => text_go_on req
  rw [← hTexts] at hGone
  exact hGone

/-! ### Requests leave the worker -/

/-- What the worker has of a batch that requests have left. -/
def views_left (batch : Batch) : List View := if batch.is_clear then [] else [view batch]

theorem views_left_of_some (hSome : batch.reqs ≠ []) : views_left batch = [view batch] := by
  rw [views_left, if_neg]
  simpa [Batch.is_clear] using hSome

theorem views_left_of_clear (hClear : batch.is_clear = true) : views_left batch = [] :=
  if_pos hClear

theorem filter_texts {texts all : List Text} (hSub : texts.Sublist all)
    (hIds : (all.map (·.request_id)).Nodup) :
    (all.filter fun text => decide (text.request_id ∈ texts.map (·.request_id))) = texts := by
  induction hSub with
  | slnil => rfl
  | cons text hSub ih =>
      obtain ⟨hNot, hRest⟩ := List.nodup_cons.mp hIds
      rw [List.filter_cons_of_neg, ih hRest]
      simp only [decide_eq_true_eq]
      exact fun hThere => hNot ((hSub.map _).subset hThere)
  | @cons_cons texts all text hSub ih =>
      obtain ⟨hNot, hRest⟩ := List.nodup_cons.mp hIds
      rw [List.filter_cons_of_pos (by simp)]
      refine congrArg (text :: ·) ((List.filter_congr fun other hOther => ?_).trans (ih hRest))
      have hApart : other.request_id ≠ text.request_id :=
        fun hSame => hNot (List.mem_map.mpr ⟨other, hOther, hSame⟩)
      simp [hApart]

/-- The requests that the worker has of one batch are distinct. -/
theorem Serves.nodup_ids {batch_id : Nat} {prefilled : Bool} {texts : List Text} {rest : List View}
    (hSound : worker.Sound setup.model setup.rank setup.weights setup.tot_size)
    (hServes : worker.Serves (⟨batch_id, prefilled, texts⟩ :: rest)) :
    (texts.map (·.request_id)).Nodup := by
  obtain ⟨batch, hBatch, hView⟩ := List.mem_map.mp (hServes.mem_iff.mpr List.mem_cons_self)
  obtain ⟨-, -, rfl⟩ := View.mk.inj hView
  rw [List.map_map]
  have := (hSound.cached batch hBatch).ids
  rw [InferBatch.sequences, List.map_map]
  exact this

theorem settle_step (h : self.Base setup Inv) (hLeaving : self.Leaving setup new)
    (hSettle : self.settle_batch new = some worker) (pc : Phase) :
    { self with worker, pc }.Base setup Inv ∧
      { self with worker, pc }.Incoming setup new (views_left new) true
        (new.reqs.map Req.running_len) := by
  obtain ⟨⟨all, hSub, hIncoming⟩, -⟩ := hLeaving
  suffices hWorker : worker.Sound setup.model setup.rank setup.weights setup.tot_size ∧
      worker.Serves (views_left new ++ views self.beside) ∧
        worker.infer_adapter = self.worker.infer_adapter by
    obtain ⟨hSound, hServes, hSame⟩ := hWorker
    exact ⟨h.work hSound (hSame ▸ h.served) pc self.has_wait_tokens, hIncoming.incoming,
      hServes, Ready.mono hIncoming.ready_old (hSame ▸ List.Subset.refl _),
      fun hLoaded => Ready.mono (hIncoming.ready_new hLoaded) (hSame ▸ List.Subset.refl _),
      hIncoming.unfinished_old, hIncoming.some_old, hIncoming.within⟩
  unfold settle_batch at hSettle
  split at hSettle
  · rename_i hClear
    rw [views_left_of_clear hClear]
    exact h.sound.remove_batch hIncoming.serves hSettle
  · rename_i hClear
    have hIds : new.reqs.map (·.request_id) = (new.reqs.map Req.text).map (·.request_id) := by
      rw [List.map_map]
      rfl
    rw [hIds] at hSettle
    obtain ⟨hSound, hServes, hSame⟩ :=
      h.sound.filter_batch hIncoming.serves (hSub.map _) hSettle
    rw [filter_texts hSub (Serves.nodup_ids h.sound hIncoming.serves)] at hServes
    rw [views_left, if_neg hClear]
    exact ⟨hSound, hServes, hSame⟩

/-- No batch is left to be run on its own, or the loop comes round. -/
theorem filter_running_batch_spec (h : self.Base setup Inv) (hMini : self.new_mini_batch = none)
    (hIncoming : self.Incoming setup new (views_left new) true (new.reqs.map (·.running_len)))
    (hUnfinished : Unfinished new.reqs) (has_wait_tokens : Nat) :
    (self.filter_running_batch has_wait_tokens).Base setup Inv ∧
      (self.filter_running_batch has_wait_tokens).Stage setup := by
  have hBatch := hIncoming.incoming
  rw [incoming, hMini, Option.none_or] at hBatch
  have hBeside : self.beside = none := by rw [beside, hMini]
  have hRunning : self.running = new.reqs := by rw [running, hBatch]; rfl
  have hServes := hIncoming.serves
  have hWithin := hIncoming.within
  rw [hBeside] at hServes hWithin
  rw [show views none = [] from rfl, List.append_nil] at hServes
  have hCases : self.filter_running_batch has_wait_tokens = if new.is_clear then
      { self with pc := .offload_all has_wait_tokens }
      else { self with has_wait_tokens, pc := .top } := by
    unfold filter_running_batch
    split
    · rename_i hNone
      rw [hBatch] at hNone
      cases hNone
    · rename_i batch hSame
      obtain rfl := Option.some.inj (hBatch.symm.trans hSame)
      rfl
  rw [hCases]
  split
  · rename_i hClear
    rw [views_left_of_clear hClear] at hServes
    exact ⟨h.go (.offload_all has_wait_tokens) self.has_wait_tokens, hMini, hServes, new, hBatch,
      by simpa [Batch.is_clear] using hClear⟩
  · rename_i hClear
    rw [views_left, if_neg hClear] at hServes
    have hRest : self.Rest setup := by
      refine ⟨hMini, ?_, ?_, ?_, ?_, ?_⟩
      · rw [hBatch]
        exact hServes
      · rw [hRunning]
        exact hIncoming.ready_new rfl
      · rw [hRunning]
        exact hUnfinished
      · intro batch hSame
        obtain rfl := Option.some.inj (hBatch.symm.trans hSame)
        simpa [Batch.is_clear] using hClear
      · intro batch hSame
        obtain rfl := Option.some.inj (hBatch.symm.trans hSame)
        exact hWithin
    have hSame : SameBatches self { self with has_wait_tokens, pc := .top } := ⟨rfl, rfl, rfl⟩
    exact ⟨h.go .top has_wait_tokens, hSame.rest hRest⟩

/-- The requests of a batch that has been prefilled join those that are running. -/
theorem prefilled_spec (h : self.Base setup Inv)
    (hIncoming : self.Incoming setup new (views_left new) true (new.reqs.map (·.running_len)))
    (hUnfinished : Unfinished new.reqs) :
    self.prefilled.Base setup Inv ∧ self.prefilled.Stage setup := by
  unfold prefilled
  split
  · rename_i mini_batch hMini
    have hSame := hIncoming.incoming
    rw [incoming, hMini, Option.some_or] at hSame
    obtain rfl := Option.some.inj hSame
    have hBeside : self.beside = self.running_batch := by rw [beside, hMini]
    split
    · rename_i hClear
      have hNone : mini_batch.reqs = [] := by simpa [Batch.is_clear] using hClear
      have hJoining : self.joining = [] := by rw [joining, hMini]; exact hNone
      have hServes := hIncoming.serves
      have hWithin := hIncoming.within
      rw [views_left_of_clear hClear, List.nil_append] at hServes
      rw [hNone, List.map_nil, List.append_nil, List.append_nil] at hWithin
      have hBooks := h.books
      rw [present, hJoining] at hBooks
      refine ⟨⟨hBooks, h.fresh, h.queue, h.sound, h.running_id,
        (fun _ hOther => by cases hOther), h.served⟩, rfl, hBeside ▸ hServes,
        hBeside ▸ hIncoming.ready_old,
        hBeside ▸ hIncoming.unfinished_old, hBeside ▸ hIncoming.some_old, fun batch hBatch => ?_⟩
      rw [hBeside] at hWithin
      rw [show running_reqs self.running_batch = batch.reqs by rw [hBatch]; rfl] at hWithin
      exact hWithin
    · rename_i hClear
      have hSome : mini_batch.reqs ≠ [] := by simpa [Batch.is_clear] using hClear
      rw [views_left_of_some hSome] at hIncoming
      have hSame : SameBatches self { self with pc := .merge } := ⟨rfl, rfl, rfl⟩
      exact ⟨h.go .merge self.has_wait_tokens, mini_batch, hMini, hSome, hUnfinished,
        hSame.incoming_batch hIncoming⟩
  · rename_i hMini
    exact filter_running_batch_spec h hMini hIncoming hUnfinished 0

theorem merge_step {mini_batch : Batch} (h : self.Base setup Inv)
    (hBatch : self.running_batch = some batch) (hMini : self.new_mini_batch = some mini_batch)
    (hUnfinished : Unfinished mini_batch.reqs)
    (hIncoming : self.Incoming setup mini_batch [view mini_batch] true
      (mini_batch.reqs.map Req.running_len))
    (hMerge : self.worker.merge_batch batch.batch_id mini_batch.batch_id = some worker)
    (hSame : self' = { self with
      worker
      running_batch := some (batch.merge mini_batch)
      new_mini_batch := none
      has_wait_tokens := 0
      pc := .top }) :
    self'.Base setup Inv ∧ self'.Stage setup := by
  have hBeside : self.beside = some batch := by rw [beside, hMini, hBatch]
  obtain ⟨-, hServes, hOld, hNew, hOpen, hSome, hWithin⟩ := hIncoming
  rw [hBeside] at hServes hOld hOpen hSome hWithin
  have hIds := h.books.nodup
  rw [present, running, joining, hBatch, hMini, List.map_append] at hIds
  have hTexts : ((batch.reqs.map Req.text ++ mini_batch.reqs.map Req.text).map
      (·.request_id)).Nodup := by
    rw [← List.map_append, List.map_map]
    exact (List.nodup_append'.mp hIds).1
  obtain ⟨hSound, hServes, hAdapters⟩ := h.sound.merge_batch
    (hServes.trans (List.Perm.swap _ _ _)) hTexts hMerge
  subst hSame
  have hBooks := h.books
  rw [present, running, joining, hBatch, hMini, ← List.append_nil (running_reqs _ ++ _)] at hBooks
  refine ⟨⟨hBooks, h.fresh, h.queue, hSound, ?_, (fun _ hOther => by cases hOther),
    hAdapters ▸ h.served⟩, rfl, ?_, ?_, ?_, ?_, ?_⟩
  · rintro other hOther
    obtain rfl := Option.some.inj hOther
    exact h.running_id batch hBatch
  · rw [← List.map_append] at hServes
    exact hServes
  · intro text hText dir hDir
    rw [hAdapters]
    obtain ⟨req, hReq, rfl⟩ := List.mem_map.mp hText
    rcases List.mem_append.mp hReq with hReq | hReq
    · exact hOld _ (List.mem_map_of_mem hReq) dir hDir
    · exact hNew rfl _ (List.mem_map_of_mem hReq) dir hDir
  · intro req hReq
    rcases List.mem_append.mp hReq with hReq | hReq
    · exact hOpen req hReq
    · exact hUnfinished req hReq
  · rintro other hOther
    obtain rfl := Option.some.inj hOther
    exact fun hNone => hSome batch rfl (List.append_eq_nil_iff.mp hNone).1
  · rintro other hOther
    obtain rfl := Option.some.inj hOther
    rw [← List.map_append] at hWithin
    exact hWithin

/-- The running batch, seen as one that is being run. -/
theorem Rest.incoming (h : self.Rest setup) (hBatch : self.running_batch = some batch) :
    self.Incoming setup batch [⟨batch.batch_id, true, batch.reqs.map Req.text⟩] true
      (batch.reqs.map Req.running_len) := by
  obtain ⟨hAlone, hServes, hReady, -, -, hWithin⟩ := h
  have hBeside : self.beside = none := by rw [beside, hAlone]
  have hRunning : self.running = batch.reqs := by rw [running, hBatch]; rfl
  rw [hRunning] at hReady
  rw [hBatch] at hServes
  refine ⟨by rw [RouterManager.incoming, hAlone, hBatch]; rfl, ?_, ?_, fun _ => hReady, ?_, ?_, ?_⟩
  · rw [hBeside]
    exact hServes
  · rw [hBeside]
    exact fun _ hText => absurd hText List.not_mem_nil
  · rw [hBeside]
    exact fun _ hReq => absurd hReq List.not_mem_nil
  · rw [hBeside]
    exact fun _ hOther => by cases hOther
  · rw [hBeside]
    exact hWithin batch hBatch

theorem prefill_step {finished : Bool} {req_ans : List (String × Token)} {outs : List TokenOut}
    (h : self.Base setup Inv) (hFresh : Fresh new)
    (hIncoming : self.Incoming setup new [⟨new.batch_id, false, new.reqs.map Req.text⟩] true
      (new.reqs.map Req.new_len))
    (hForward : self.worker.forward setup.model new.batch_id true = some (worker, req_ans))
    (hTake : take_answer setup new req_ans = some (batch, finished, outs))
    (hSame : self' = if finished then
        { self.set_incoming batch with worker, sent := self.sent ++ outs, pc := .settle }
      else prefilled { self.set_incoming batch with worker, sent := self.sent ++ outs }) :
    self'.Base setup Inv ∧ self'.Stage setup := by
  have hUnfinished : Unfinished new.reqs := by
    intro req hReq
    rw [hFresh.no_output req hReq]
    exact (h.origin_incoming hIncoming.incoming hReq).asks
  have hAnswer := answer_step true h hIncoming hUnfinished
    (within_prefill hFresh.no_output hIncoming.within) hForward hTake
  subst hSame
  cases finished with
  | true =>
      obtain ⟨hBase, hLeaving, -⟩ := hAnswer .settle
      exact ⟨hBase, batch, hLeaving⟩
  | false =>
      obtain ⟨hBase, hLeaving, hStay⟩ := hAnswer (self.set_incoming batch).pc
      obtain ⟨hAll, hIncoming'⟩ := hStay rfl
      have hSome : batch.reqs ≠ [] := by simpa [hAll] using hFresh.some_req
      rw [← views_left_of_some hSome] at hIncoming'
      exact prefilled_spec hBase hIncoming' hLeaving.unfinished

theorem decode_step {counted finished : Bool} {req_queue : σ} {req_ans : List (String × Token)}
    {outs : List TokenOut} (hValid : setup.Valid Inv) (h : self.Base setup Inv)
    (hRest : self.Rest setup) (hBatch : self.running_batch = some new)
    (hUpdate : setup.scheduler.update_counter self.req_queue new = some req_queue)
    (hForward : self.worker.forward setup.model new.batch_id false = some (worker, req_ans))
    (hTake : take_answer setup new req_ans = some (batch, finished, outs))
    (hSame : self' = if finished then
        { self with
          req_queue, worker, running_batch := some batch, sent := self.sent ++ outs,
          pc := .offload counted }
      else decoded { self with
        req_queue, worker, running_batch := some batch, sent := self.sent ++ outs } counted) :
    self'.Base setup Inv ∧ self'.Stage setup := by
  have hMini := hRest.alone
  have hWaiting := hValid.lawful.waiting_update _ _ _ hUpdate
  have hBase : { self with req_queue }.Base setup Inv := by
    refine h.requeue (hValid.lawful.inv_update _ _ _ h.queue hUpdate) ?_ ?_ self.pc
    · rw [hWaiting]
      exact h.books
    · rw [hWaiting]
      exact h.fresh
  have hQueue : SameBatches self { self with req_queue } := ⟨rfl, rfl, rfl⟩
  have hIncoming := hQueue.incoming_batch (hRest.incoming hBatch)
  have hUnfinished := hRest.unfinished
  rw [running, hBatch] at hUnfinished
  have hBeside : ({ self with req_queue } : RouterManager σ V).beside = none := by
    simp [beside, hMini]
  have hWithin := hIncoming.within
  rw [hBeside] at hWithin
  have hAnswer := answer_step false hBase hIncoming hUnfinished
    (by rw [hBeside]; exact within_decode hWithin) hForward hTake
  have hSet : ({ self with req_queue } : RouterManager σ V).set_incoming batch =
      { self with req_queue, running_batch := some batch } := by
    simp [set_incoming, hMini]
  simp only [hSet] at hAnswer
  subst hSame
  cases finished with
  | true =>
      obtain ⟨hBase, hLeaving, -⟩ := hAnswer (.offload counted)
      exact ⟨hBase, hMini, batch, hLeaving⟩
  | false =>
      obtain ⟨hBase, hLeaving, hStay⟩ := hAnswer self.pc
      obtain ⟨hAll, hIncoming'⟩ := hStay rfl
      have hSome : batch.reqs ≠ [] := by simpa [hAll] using hRest.some_req new hBatch
      rw [← views_left_of_some hSome] at hIncoming'
      exact filter_running_batch_spec hBase hMini hIncoming' hLeaving.unfinished _

theorem prefetch_step {adapter_dirs : List (Option String)} (hValid : setup.Valid Inv)
    (h : self.Base setup Inv) (hRest : self.Rest setup) (hDirs : adapter_dirs.Nodup)
    (hServed : ∀ dir, some dir ∈ adapter_dirs → Served setup dir)
    (hLoad : self.worker.load_adapters setup.adapters setup.weights adapter_dirs true =
      some worker) (pc : Phase) :
    { self with worker, pc }.Base setup Inv ∧ { self with worker, pc }.Rest setup := by
  obtain ⟨hSound, hCache, hMore, hNoMore, -⟩ := h.sound.load_adapters hValid.offers hDirs hLoad
  refine ⟨h.work hSound (fun dir hDir => ?_) pc self.has_wait_tokens, hRest.alone,
    Serves.same_cache hRest.serves hCache, Ready.mono hRest.ready hMore, hRest.unfinished,
    hRest.some_req, hRest.within⟩
  rcases List.mem_append.mp (hNoMore hDir) with hDir | hDir
  · exact h.served dir hDir
  · obtain ⟨_, hMem, rfl⟩ := List.mem_filterMap.mp hDir
    exact hServed dir hMem

theorem offload_step (hValid : setup.Valid Inv) (h : self.Base setup Inv)
    (hMini : self.new_mini_batch = none) (hBatch : self.running_batch = some batch)
    (hLeaving : self.Leaving setup new)
    (hOffload : self.worker.offload_adapters batch.adapter_dirs = some worker) (pc : Phase) :
    { self with worker, pc }.Base setup Inv ∧ { self with worker, pc }.Leaving setup new := by
  obtain ⟨⟨all, hSub, hIncoming⟩, hUnfinished⟩ := hLeaving
  have hSame := hIncoming.incoming
  rw [incoming, hMini, Option.none_or, hBatch] at hSame
  obtain rfl := Option.some.inj hSame
  have hBeside : self.beside = none := by rw [beside, hMini]
  obtain ⟨hSound, hCache, hFewer, hKept⟩ := h.sound.offload_adapters hValid.offers hOffload
  refine ⟨h.work hSound (fun dir hDir => h.served dir (hFewer hDir)) pc self.has_wait_tokens,
    ⟨all, hSub, hIncoming.incoming, Serves.same_cache hIncoming.serves hCache, ?_, ?_,
      hIncoming.unfinished_old, hIncoming.some_old, hIncoming.within⟩, hUnfinished⟩
  · show worker.Ready ((running_reqs self.beside).map _)
    rw [hBeside]
    exact fun _ hText => absurd hText List.not_mem_nil
  · intro hLoaded text hText dir hDir
    refine hKept dir (hIncoming.ready_new hLoaded text hText dir hDir) ?_
    obtain ⟨req, hReq, rfl⟩ := List.mem_map.mp hText
    exact List.mem_dedup.mpr (List.mem_map.mpr ⟨req, hReq, hDir⟩)

theorem offload_all_step {has_wait_tokens : Nat} (hValid : setup.Valid Inv)
    (h : self.Base setup Inv) (hMini : self.new_mini_batch = none) (hServes : self.worker.Serves [])
    (hBatch : self.running_batch = some batch) (hNone : batch.reqs = [])
    (hOffload : self.worker.offload_adapters [] = some worker)
    (hSame : self' =
      { self with worker, running_batch := none, has_wait_tokens, pc := .top }) :
    self'.Base setup Inv ∧ self'.Stage setup := by
  obtain ⟨hSound, hCache, hFewer, -⟩ := h.sound.offload_adapters hValid.offers hOffload
  have hBooks := h.books
  have hRunning : self.running = [] := by rw [running, hBatch]; exact hNone
  rw [present, hRunning] at hBooks
  subst hSame
  refine ⟨⟨hBooks, h.fresh, h.queue, hSound, (fun _ hOther => by cases hOther), ?_,
    fun dir hDir => h.served dir (hFewer hDir)⟩, hMini, Serves.same_cache hServes hCache,
    fun _ hText => absurd hText List.not_mem_nil, fun _ hReq => absurd hReq List.not_mem_nil,
    (fun _ hOther => by cases hOther), fun _ hOther => by cases hOther⟩
  intro other hOther
  rw [hMini] at hOther
  cases hOther

end RouterManager

end Slora
