import SwarmLoRA.Slora.RouterInvariant

namespace Slora

open Data

namespace RouterManager

variable {σ V : Type} {setup : Setup σ V} {Inv : σ → Prop} {self self' : RouterManager σ V}
  {reqs others : List Req} {batch new : Batch} {current : Option Batch}

/-- What the invariant says does not depend on the phase. -/
theorem Base.work {worker : ModelRpcServer V} (h : self.Base setup Inv)
    (hSound : worker.Sound setup.model setup.rank setup.weights setup.tot_size)
    (hServed : ∀ dir ∈ worker.infer_adapter.adapter_dirs, Served setup dir) (pc : Phase)
    (has_wait_tokens : Nat) :
    { self with worker, pc, has_wait_tokens }.Base setup Inv :=
  ⟨h.books, h.fresh, h.queue, hSound, h.running_id, h.joining_id, hServed⟩

theorem Base.go (h : self.Base setup Inv) (pc : Phase) (has_wait_tokens : Nat) :
    { self with pc, has_wait_tokens }.Base setup Inv :=
  h.work h.sound h.served pc has_wait_tokens

theorem Base.origin (h : self.Base setup Inv) {req : Req} (hReq : req ∈ self.present setup) :
    Taken setup req := by
  obtain ⟨origin, hOrigin, hFrom⟩ := h.books.origin req hReq
  obtain ⟨hPrompt, hAsks, adapter, hAdapter, hDir⟩ := h.books.taken origin hOrigin
  exact ⟨hFrom.prompt_ids ▸ hPrompt, hFrom.max_output_len ▸ hAsks, adapter, hAdapter,
    hFrom.adapter_dir.trans hDir⟩

theorem Base.hands_over (hValid : setup.Valid Inv) (h : self.Base setup Inv) {req_queue : σ}
    (current : Option Batch) {new_batch : Option (List Req)}
    (hUnfinished : Unfinished (running_reqs current))
    (hGenerate : setup.scheduler.generate_new_batch setup.lora_ranks self.req_queue current =
      some (req_queue, new_batch)) :
    HandsOver setup.limits setup.lora_ranks (running_reqs current) (self.waiting setup)
      (setup.scheduler.waiting_req_list req_queue) new_batch := by
  have hNodup := h.books.nodup
  rw [present, List.map_append] at hNodup
  exact hValid.lawful.generate _ _ _ _ _ h.queue (List.nodup_append'.mp hNodup).2.1
    (fun req hReq => (h.origin (List.mem_append_right _ hReq)).asks) hUnfinished hGenerate

/-- What the queue hands over. -/
theorem Base.handed (hValid : setup.Valid Inv) (h : self.Base setup Inv) {req_queue : σ}
    (current : Option Batch) {new_batch : Option (List Req)}
    (hUnfinished : Unfinished (running_reqs current))
    (hGenerate : setup.scheduler.generate_new_batch setup.lora_ranks self.req_queue current =
      some (req_queue, new_batch)) :
    Inv req_queue ∧
      Books setup self.received self.abort_ids self.sent (self.running ++ self.joining ++
        (new_batch.getD [] ++ setup.scheduler.waiting_req_list req_queue)) ∧
      (∀ req ∈ new_batch.getD [] ++ setup.scheduler.waiting_req_list req_queue,
        req.output_ids = []) ∧
      ∀ reqs, new_batch = some reqs →
        reqs ≠ [] ∧ Admitted setup.limits setup.lora_ranks (running_reqs current) reqs := by
  have hHanded := h.hands_over hValid current hUnfinished hGenerate
  obtain ⟨dropped, hPerm, hAborted⟩ := hHanded.conserved
  refine ⟨hValid.lawful.inv_generate _ _ _ _ _ h.queue hGenerate, ?_, ?_, hHanded.admitted⟩
  · have hTurn : (dropped ++ (self.running ++ self.joining ++ (new_batch.getD [] ++
        setup.scheduler.waiting_req_list req_queue))).Perm (self.present setup) := by
      refine (List.perm_append_comm_assoc ..).trans (List.Perm.append_left _ ?_)
      refine List.Perm.trans ?_ hPerm.symm
      rw [← List.append_assoc]
      exact List.perm_append_comm.append_right _
    exact (h.books.perm hTurn).drop hAborted
  · intro req hReq
    refine h.fresh req (hPerm.mem_iff.mpr ?_)
    rcases List.mem_append.mp hReq with hReq | hReq
    · exact List.mem_append_left _ (List.mem_append_left _ hReq)
    · exact List.mem_append_right _ hReq

theorem Rest.stage (hPc : self.pc = .top) (h : self.Rest setup) : self.Stage setup := by
  unfold Stage
  rw [hPc]
  exact h

theorem Base.requeue {req_queue : σ} (h : self.Base setup Inv) (hQueue : Inv req_queue)
    (hBooks : Books setup self.received self.abort_ids self.sent
      (self.running ++ self.joining ++ setup.scheduler.waiting_req_list req_queue))
    (hOutput : ∀ req ∈ setup.scheduler.waiting_req_list req_queue, req.output_ids = [])
    (pc : Phase) : { self with req_queue, pc }.Base setup Inv :=
  ⟨hBooks, hOutput, hQueue, h.sound, h.running_id, h.joining_id, h.served⟩

/-- What the loop does next. -/
theorem choose_cases (hChoose : self.choose setup = some self') :
    (self.running_batch = none ∧ ∃ req_queue new_batch,
      setup.scheduler.generate_new_batch setup.lora_ranks self.req_queue none =
          some (req_queue, new_batch) ∧
        (new_batch = none ∧ self' = { self with req_queue } ∨
          ∃ reqs, new_batch = some reqs ∧ self' =
            { self with
              req_queue
              running_batch := some ⟨self.next_batch_id, reqs⟩
              next_batch_id := self.next_batch_id + 1
              pc := .load })) ∨
    ∃ batch, self.running_batch = some batch ∧
      (self' = { self with pc := .decode true } ∨
        (∃ reqs, setup.scheduler.next_batch self.req_queue = some (some reqs) ∧
          self' = { self with pc := .prefetch (Batch.adapter_dirs ⟨0, reqs⟩) }) ∨
        ∃ req_queue new_mini_batch,
          setup.scheduler.generate_new_batch setup.lora_ranks self.req_queue (some batch) =
              some (req_queue, new_mini_batch) ∧
            (new_mini_batch = none ∧ self' = { self with req_queue, pc := .decode false } ∨
              ∃ reqs, new_mini_batch = some reqs ∧ self' =
                { self with
                  req_queue
                  new_mini_batch := some ⟨self.next_batch_id, reqs⟩
                  next_batch_id := self.next_batch_id + 1
                  pc := .load })) := by
  unfold choose at hChoose
  split at hChoose
  · rename_i hNone
    obtain ⟨⟨req_queue, new_batch⟩, hGenerate, rfl⟩ := Option.map_eq_some_iff.mp hChoose
    refine .inl ⟨hNone, req_queue, new_batch, hGenerate, ?_⟩
    cases new_batch with
    | none => exact .inl ⟨rfl, rfl⟩
    | some reqs => exact .inr ⟨reqs, rfl, rfl⟩
  · rename_i batch hBatch
    refine .inr ⟨batch, hBatch, ?_⟩
    split at hChoose
    · split at hChoose
      · obtain ⟨next_batch, hNext, rfl⟩ := Option.map_eq_some_iff.mp hChoose
        cases next_batch with
        | none => exact .inl rfl
        | some reqs => exact .inr (.inl ⟨reqs, hNext, rfl⟩)
      · exact .inl (Option.some.inj hChoose).symm
    · obtain ⟨⟨req_queue, new_mini_batch⟩, hGenerate, rfl⟩ := Option.map_eq_some_iff.mp hChoose
      refine .inr (.inr ⟨req_queue, new_mini_batch, hGenerate, ?_⟩)
      cases new_mini_batch with
      | none => exact .inl ⟨rfl, rfl⟩
      | some reqs => exact .inr ⟨reqs, rfl, rfl⟩

/-- With nothing running, what the queue hands over is run on its own. -/
theorem load_first (hValid : setup.Valid Inv) (h : self.Base setup Inv) (hRest : self.Rest setup)
    (hNone : self.running_batch = none) {req_queue : σ}
    (hGenerate : setup.scheduler.generate_new_batch setup.lora_ranks self.req_queue none =
      some (req_queue, some reqs))
    (hSame : self' = { self with
      req_queue
      running_batch := some ⟨self.next_batch_id, reqs⟩
      next_batch_id := self.next_batch_id + 1
      pc := .load }) :
    self'.Base setup Inv ∧ self'.Stage setup := by
  have hAlone := hRest.alone
  have hRunning : self.running = [] := by rw [running, hNone]; rfl
  have hJoining : self.joining = [] := by rw [joining, hAlone]; rfl
  obtain ⟨hQueue, hBooks, hOutput, hAdmitted⟩ :=
    h.handed hValid none (fun _ hReq => absurd hReq List.not_mem_nil) hGenerate
  obtain ⟨hSome, hAdmit⟩ := hAdmitted reqs rfl
  rw [hRunning, hJoining] at hBooks
  have hServes := hRest.serves
  rw [hNone] at hServes
  have hBeside : self'.beside = none := by simp [hSame, beside, hAlone]
  subst hSame
  refine ⟨⟨?_, ?_, hQueue, h.sound, ?_, ?_, h.served⟩, ?_⟩
  · rw [present, joining, hAlone, waiting, List.append_assoc]
    exact hBooks
  · exact fun req hReq => hOutput req (List.mem_append_right _ hReq)
  · rintro batch hBatch
    obtain rfl := Option.some.inj hBatch
    exact Nat.lt_succ_self _
  · intro batch hBatch
    rw [hAlone] at hBatch
    cases hBatch
  · refine ⟨⟨self.next_batch_id, reqs⟩, ⟨hSome, fun req hReq => hOutput req ?_⟩, ?_⟩
    · exact List.mem_append_left _ hReq
    · refine ⟨by simp [incoming, hAlone], ?_, ?_, ?_, ?_, ?_, ?_⟩
      · rw [hBeside]
        exact hServes
      · rw [hBeside]
        exact fun text hText => absurd hText List.not_mem_nil
      · exact fun hFalse => Bool.noConfusion hFalse
      · rw [hBeside]
        exact fun req hReq => absurd hReq List.not_mem_nil
      · rw [hBeside]
        exact fun batch hBatch => by cases hBatch
      · rw [hBeside]
        exact hAdmit.within

/-- What the queue hands over is to join the running batch. -/
theorem load_joining (hValid : setup.Valid Inv) (h : self.Base setup Inv) (hRest : self.Rest setup)
    (hBatch : self.running_batch = some batch) {req_queue : σ}
    (hGenerate : setup.scheduler.generate_new_batch setup.lora_ranks self.req_queue (some batch) =
      some (req_queue, some reqs))
    (hSame : self' = { self with
      req_queue
      new_mini_batch := some ⟨self.next_batch_id, reqs⟩
      next_batch_id := self.next_batch_id + 1
      pc := .load }) :
    self'.Base setup Inv ∧ self'.Stage setup := by
  have hJoining : self.joining = [] := by rw [joining, hRest.alone]; rfl
  have hUnfinished := hRest.unfinished
  rw [running, hBatch] at hUnfinished
  obtain ⟨hQueue, hBooks, hOutput, hAdmitted⟩ :=
    h.handed hValid (some batch) hUnfinished hGenerate
  obtain ⟨hSome, hAdmit⟩ := hAdmitted reqs rfl
  rw [hJoining, List.append_nil] at hBooks
  subst hSame
  refine ⟨⟨?_, ?_, hQueue, h.sound, ?_, ?_, h.served⟩, ?_⟩
  · rw [present, List.append_assoc]
    exact hBooks
  · exact fun req hReq => hOutput req (List.mem_append_right _ hReq)
  · exact fun batch hBatch => (h.running_id batch hBatch).trans (Nat.lt_succ_self _)
  · rintro new hNew
    obtain rfl := Option.some.inj hNew
    exact ⟨Nat.lt_succ_self _, batch, hBatch, (h.running_id batch hBatch).ne⟩
  · refine ⟨⟨self.next_batch_id, reqs⟩, ⟨hSome, fun req hReq => hOutput req ?_⟩, ?_⟩
    · exact List.mem_append_left _ hReq
    · refine ⟨rfl, hRest.serves, hRest.ready, fun hFalse => Bool.noConfusion hFalse,
        hRest.unfinished, hRest.some_req, ?_⟩
      have hWithin := hAdmit.within
      rw [joined_len, ← hBatch] at hWithin
      exact hWithin

/-- The loop decides what comes next. -/
theorem choose_spec (hValid : setup.Valid Inv) (h : self.Base setup Inv) (hRest : self.Rest setup)
    (hPc : self.pc = .top) (hChoose : self.choose setup = some self') :
    self'.Base setup Inv ∧ self'.Stage setup := by
  rcases choose_cases hChoose with ⟨hNone, req_queue, new_batch, hGenerate, hCases⟩ |
    ⟨batch, hBatch, hCases⟩
  · rcases hCases with ⟨rfl, rfl⟩ | ⟨reqs, rfl, hSame⟩
    · obtain ⟨hQueue, hBooks, hOutput, -⟩ :=
        h.handed hValid none (fun _ hReq => absurd hReq List.not_mem_nil) hGenerate
      have hSame : SameBatches self { self with req_queue } := ⟨rfl, rfl, rfl⟩
      exact ⟨h.requeue hQueue hBooks hOutput self.pc, hSame.stage rfl (hRest.stage hPc)⟩
    · exact load_first hValid h hRest hNone hGenerate hSame
  · have hSome : self.running_batch.isSome = true := by rw [hBatch]; rfl
    rcases hCases with rfl | ⟨reqs, hNext, rfl⟩ | ⟨req_queue, new_mini_batch, hGenerate, hCases⟩
    · have hSame : SameBatches self { self with pc := .decode true } := ⟨rfl, rfl, rfl⟩
      exact ⟨h.go (.decode true) self.has_wait_tokens, hSame.rest hRest, hSome⟩
    · -- the adapters that will be needed next are loaded ahead
      have hSame : SameBatches self
        { self with pc := .prefetch (Batch.adapter_dirs ⟨0, reqs⟩) } := ⟨rfl, rfl, rfl⟩
      refine ⟨h.go (.prefetch (Batch.adapter_dirs ⟨0, reqs⟩)) self.has_wait_tokens,
        hSame.rest hRest, hSome, List.nodup_dedup _, fun dir hDir => ?_⟩
      obtain ⟨req, hReq, hDir⟩ := List.mem_map.mp (List.mem_dedup.mp hDir)
      have hWaits := hValid.lawful.next _ _ h.queue hNext hReq
      obtain ⟨adapter, hAdapter, hName⟩ := (h.origin (List.mem_append_right _ hWaits)).served
      exact ⟨adapter, hAdapter, Option.some.inj (hName.symm.trans hDir)⟩
    · rcases hCases with ⟨rfl, rfl⟩ | ⟨reqs, rfl, hSame⟩
      · have hUnfinished := hRest.unfinished
        rw [running, hBatch] at hUnfinished
        obtain ⟨hQueue, hBooks, hOutput, -⟩ :=
          h.handed hValid (some batch) hUnfinished hGenerate
        have hSame : SameBatches self { self with req_queue, pc := .decode false } :=
          ⟨rfl, rfl, rfl⟩
        exact ⟨h.requeue hQueue hBooks hOutput (.decode false), hSame.rest hRest, hSome⟩
      · exact load_joining hValid h hRest hBatch hGenerate hSame

/-! ### The adapters are loaded and the batch is set up -/

theorem Ready.mono {worker worker' : ModelRpcServer V} {texts : List Text} (h : worker.Ready texts)
    (hMore : worker.infer_adapter.adapter_dirs ⊆ worker'.infer_adapter.adapter_dirs) :
    worker'.Ready texts :=
  fun text hText dir hDir => hMore (h text hText dir hDir)

theorem Serves.same_cache {worker worker' : ModelRpcServer V} {views : List View}
    (h : worker.Serves views) (hCache : worker'.cache = worker.cache) : worker'.Serves views := by
  unfold ModelRpcServer.Serves
  rw [hCache]
  exact h

/-- The requests that are run are those of the new batch and of the one beside it. -/
theorem incoming_eq (hIncoming : self.incoming = some new) :
    self.running ++ self.joining = running_reqs self.beside ++ new.reqs := by
  unfold incoming at hIncoming
  cases hMini : self.new_mini_batch with
  | some mini_batch =>
      rw [hMini, Option.some_or] at hIncoming
      obtain rfl := Option.some.inj hIncoming
      rw [running, joining, beside, hMini]
      rfl
  | none =>
      rw [hMini, Option.none_or] at hIncoming
      rw [running, joining, beside, hMini, hIncoming]
      exact List.append_nil _

theorem Base.origin_incoming (h : self.Base setup Inv) (hIncoming : self.incoming = some new)
    {req : Req} (hReq : req ∈ new.reqs) : Taken setup req := by
  refine h.origin (List.mem_append_left _ ?_)
  rw [incoming_eq hIncoming]
  exact List.mem_append_right _ hReq

theorem Base.nodup_incoming (h : self.Base setup Inv) (hIncoming : self.incoming = some new) :
    ((running_reqs self.beside ++ new.reqs).map (·.request_id)).Nodup := by
  have hNodup := h.books.nodup
  rw [present, incoming_eq hIncoming, List.map_append] at hNodup
  exact (List.nodup_append'.mp hNodup).1

theorem load_step (hValid : setup.Valid Inv) (h : self.Base setup Inv) {new : Batch}
    {jobs : List Peak.Job} (hIncoming : self.Incoming setup new [] false jobs)
    {worker : ModelRpcServer V}
    (hLoad : self.worker.load_adapters setup.adapters setup.weights new.adapter_dirs false =
      some worker) :
    { self with worker, pc := .init }.Base setup Inv ∧
      { self with worker, pc := .init }.Incoming setup new [] true jobs := by
  obtain ⟨hSound, hCache, hMore, hNoMore, hAll⟩ :=
    h.sound.load_adapters hValid.offers (List.nodup_dedup _) hLoad
  have hServed : ∀ dir ∈ worker.infer_adapter.adapter_dirs, Served setup dir := by
    intro dir hDir
    rcases List.mem_append.mp (hNoMore hDir) with hDir | hDir
    · exact h.served dir hDir
    · obtain ⟨_, hMem, rfl⟩ := List.mem_filterMap.mp hDir
      obtain ⟨req, hReq, hName⟩ := List.mem_map.mp (List.mem_dedup.mp hMem)
      obtain ⟨adapter, hAdapter, hSame⟩ := (h.origin_incoming hIncoming.incoming hReq).served
      exact ⟨adapter, hAdapter, Option.some.inj (hSame.symm.trans hName)⟩
  refine ⟨h.work hSound hServed .init self.has_wait_tokens, hIncoming.incoming,
    Serves.same_cache hIncoming.serves hCache, Ready.mono hIncoming.ready_old hMore, ?_,
    hIncoming.unfinished_old, hIncoming.some_old, hIncoming.within⟩
  intro _ text hText dir hDir
  obtain ⟨req, hReq, rfl⟩ := List.mem_map.mp hText
  refine hAll rfl (List.mem_filterMap.mpr ⟨some dir, List.mem_dedup.mpr ?_, rfl⟩)
  exact List.mem_map.mpr ⟨req, hReq, hDir⟩

theorem init_step (h : self.Base setup Inv) {new : Batch} {jobs : List Peak.Job}
    (hFresh : Fresh new) (hIncoming : self.Incoming setup new [] true jobs)
    {worker : ModelRpcServer V}
    (hAdd : self.worker.add_batch new.batch_id new.reqs = some worker) :
    { self with worker, pc := .prefill }.Base setup Inv ∧
      { self with worker, pc := .prefill }.Incoming setup new
        [⟨new.batch_id, false, new.reqs.map Req.text⟩] true jobs := by
  have hApart : ∀ v ∈ views self.beside, v.batch_id ≠ new.batch_id := by
    intro v hv
    have hInc := hIncoming.incoming
    unfold incoming at hInc
    unfold beside views at hv
    cases hMini : self.new_mini_batch with
    | none => simp [hMini] at hv
    | some mini_batch =>
        rw [hMini, Option.some_or] at hInc
        obtain rfl := Option.some.inj hInc
        simp only [hMini, Option.mem_toList, Option.map_eq_some_iff] at hv
        obtain ⟨other, hOther, rfl⟩ := hv
        obtain ⟨-, batch, hBatch, hApart⟩ := h.joining_id _ hMini
        obtain rfl := Option.some.inj (hBatch.symm.trans hOther)
        exact hApart
  have hIds := h.nodup_incoming hIncoming.incoming
  rw [List.map_append] at hIds
  obtain ⟨hSound, hServes, hSame⟩ := h.sound.add_batch hIncoming.serves hApart
    (List.nodup_append'.mp hIds).2.1
    (fun req hReq => (h.origin_incoming hIncoming.incoming hReq).prompt)
    (fun req hReq => by
      obtain ⟨adapter, -, hName⟩ := (h.origin_incoming hIncoming.incoming hReq).served
      rw [hName]
      exact Option.some_ne_none _) hAdd
  have hTexts : (new.reqs.map fun req =>
      (⟨req.request_id, req.adapter_dir, req.prompt_ids⟩ : Text)) = new.reqs.map (·.text) := by
    refine List.map_congr_left fun req hReq => ?_
    rw [Req.text, hFresh.no_output req hReq, List.append_nil]
  rw [hTexts] at hServes
  refine ⟨h.work hSound (hSame ▸ h.served) .prefill self.has_wait_tokens, hIncoming.incoming,
    hServes, ?_, fun hLoaded => ?_, hIncoming.unfinished_old, hIncoming.some_old, hIncoming.within⟩
  · exact Ready.mono hIncoming.ready_old (hSame ▸ List.Subset.refl _)
  · exact Ready.mono (hIncoming.ready_new hLoaded) (hSame ▸ List.Subset.refl _)

end RouterManager

end Slora
