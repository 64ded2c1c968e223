import SwarmLoRA.Slora.Passes

namespace Slora

open Data Segments

namespace ModelRpcServer

variable {V : Type} {model : Model V} {adapters : List LoraAdapter} {weights : String → List V}
  {rank : String → Nat} {buffer buffer' : Nat → V} {batch : InferBatch}
  {cache rest : List InferBatch} {tot_size batch_id : Nat} {self self' : ModelRpcServer V}

/-- The worker has these batches. -/
def Serves (server : ModelRpcServer V) (views : List View) : Prop :=
  (server.cache.map (·.view)).Perm views

variable {view : View} {views : List View} {texts : List Text} {answer : List (String × Token)}

theorem exists_pop (hIds : (cache.map (·.batch_id)).Nodup)
    (hServes : (cache.map (·.view)).Perm (view :: views)) :
    ∃ batch rest, pop cache view.batch_id = some (batch, rest) ∧ batch.view = view ∧
      (rest.map (·.view)).Perm views := by
  obtain ⟨batch, hBatch, rfl⟩ := List.mem_map.mp (hServes.mem_iff.mpr List.mem_cons_self)
  have hSome : (cache.find? (·.batch_id == batch.view.batch_id)).isSome :=
    List.find?_isSome.mpr ⟨batch, hBatch, beq_self_eq_true batch.batch_id⟩
  obtain ⟨found, hFound⟩ := Option.isSome_iff_exists.mp hSome
  have hPop : pop cache batch.view.batch_id =
      some (found, cache.filter (·.batch_id != batch.view.batch_id)) := by
    simp [pop, hFound]
  obtain ⟨-, hPerm, hOthers⟩ := pop_spec hIds hPop
  obtain rfl : batch = found :=
    (List.mem_cons.mp (hPerm.mem_iff.mp hBatch)).resolve_right fun hRest => hOthers _ hRest rfl
  exact ⟨batch, _, hPop, rfl, List.Perm.cons_inv ((hPerm.map InferBatch.view).symm.trans hServes)⟩

theorem Serves.popped (h : Sound model rank weights tot_size self)
    (hServes : self.Serves (view :: views)) :
    ∃ batch rest, pop self.cache view.batch_id = some (batch, rest) ∧ batch.view = view ∧
      (rest.map (·.view)).Perm views :=
  exists_pop h.ids hServes

/-- How many cells the requests have. -/
theorem Serves.length_cells (h : Sound model rank weights tot_size self)
    (hServes : self.Serves views) :
    (self.cache.flatMap (·.cells)).length = (views.map (·.held)).sum := by
  rw [← (hServes.map View.held).sum_nat, List.map_map, List.length_flatMap]
  refine congrArg List.sum (List.map_congr_left fun batch hBatch => ?_)
  have hShape := (h.cached batch hBatch).toShape
  simp only [Function.comp_apply, View.held, InferBatch.view]
  cases hPrefilled : batch.prefilled with
  | false => simp [InferBatch.cells, hPrefilled]
  | true =>
      rw [if_pos rfl, List.map_map, InferBatch.cells_eq, List.length_flatMap]
      refine congrArg List.sum (List.map_congr_left fun seq hSeq => ?_)
      have := hShape.length_cells hPrefilled seq hSeq
      simp only [Function.comp_apply]
      omega

/-- A pass gives every request of the batch the token that the model alone would give it, and
leaves the other batches alone. -/
theorem Sound.forward {is_prefill : Bool} (h : Sound model rank weights tot_size self)
    (hServes : self.Serves (⟨batch_id, !is_prefill, texts⟩ :: views)) (hReady : self.Ready texts)
    (hForward : self.forward model batch_id is_prefill = some (self', answer)) :
    Sound model rank weights tot_size self' ∧
      self'.Serves (⟨batch_id, true, texts.map (·.grow model weights)⟩ :: views) ∧
      answer = texts.map (·.reply model weights) ∧ self'.infer_adapter = self.infer_adapter := by
  obtain ⟨batch, rest, hPop, hView, hRest⟩ := hServes.popped h
  obtain ⟨hId, hPerm, hOthers⟩ := pop_spec h.ids hPop
  obtain ⟨rfl, hPrefilled, rfl⟩ := View.mk.inj hView
  have hCached := h.cached batch (hPerm.mem_iff.mpr List.mem_cons_self)
  obtain ⟨lora, hEngine, hLora⟩ := engine_spec h.intact hCached hReady
  have hHolds := h.holds_popped hPop
  unfold ModelRpcServer.forward at hForward
  simp only [hPop, Option.bind_some, hEngine] at hForward
  obtain ⟨pass, hPass, hSame⟩ := Option.map_eq_some_iff.mp hForward
  obtain ⟨rfl, rfl⟩ := Prod.mk.inj hSame
  obtain ⟨batch', hPassed⟩ : ∃ batch', Passed model weights self.memory.mem_manager.tot_size
      (self.infer_adapter.a_loc ++ rest.flatMap (·.cells)) self.memory.buffer batch lora pass
        batch' := by
    cases is_prefill with
    | true => exact prefill_spec hCached hPrefilled hLora hHolds hPass
    | false => exact decode_spec hCached hPrefilled hLora hHolds hPass
  obtain ⟨rfl, hCached', hHolds', hTot, hKeeps, hTexts, hAnswer⟩ := hPassed
  have hPut := put_eq (batch.advance pass.rows fun row =>
    model.sample row.request_id (lora row) (pass.read row) row.all_input_ids) hOthers
  refine ⟨?_, ?_, ?_, rfl⟩
  · rw [hPut]
    exact h.replace hPop _ rfl hCached' hHolds' (hTot.trans h.tot_size_eq) hKeeps
  · rw [Serves, hPut, List.map_cons]
    have hView' : (batch.advance pass.rows fun row => model.sample row.request_id (lora row)
        (pass.read row) row.all_input_ids).view = ⟨batch.batch_id, true,
          (batch.sequences.map (·.toText)).map (·.grow model weights)⟩ := by
      rw [InferBatch.view, hTexts, List.map_map]
      rfl
    rw [hView']
    exact hRest.cons _
  · rw [hAnswer, List.map_map]
    rfl

/-- A pass succeeds if there are cells for the tokens that it runs. -/
theorem forward_ok {is_prefill : Bool} (h : Sound model rank weights tot_size self)
    (hServes : self.Serves (⟨batch_id, !is_prefill, texts⟩ :: views)) (hReady : self.Ready texts)
    (hRoom : (if is_prefill then (texts.map (·.tokens.length)).sum else texts.length) +
      (self.infer_adapter.a_loc.length + (View.held ⟨batch_id, !is_prefill, texts⟩ +
        (views.map (·.held)).sum)) ≤ tot_size) :
    ∃ result, self.forward model batch_id is_prefill = some result := by
  obtain ⟨batch, rest, hPop, hView, hRest⟩ := hServes.popped h
  obtain ⟨hId, hPerm, hOthers⟩ := pop_spec h.ids hPop
  have hCells := hServes.length_cells h
  rw [List.map_cons, List.sum_cons] at hCells
  obtain ⟨rfl, hPrefilled, rfl⟩ := View.mk.inj hView
  have hCached := h.cached batch (hPerm.mem_iff.mpr List.mem_cons_self)
  obtain ⟨lora, hEngine, -⟩ := engine_spec h.intact hCached hReady
  rw [← hCells, ← List.length_append, ← h.tot_size_eq] at hRoom
  have hPass : ∃ pass, (if is_prefill then self.prefill model batch lora
      else self.decode model batch lora) = some pass := by
    cases is_prefill with
    | true =>
        rw [if_pos rfl, List.map_map] at hRoom
        have hTotal := hCached.toShape.sum_tokens
        obtain ⟨result, hAlloc⟩ := h.holds.alloc_ok_iff.mpr (hTotal ▸ hRoom)
        exact ⟨_, by rw [if_pos rfl, ModelRpcServer.prefill, hAlloc]; rfl⟩
    | false =>
        rw [if_neg Bool.false_ne_true] at hRoom
        have hRows : batch.rows.length +
            (self.infer_adapter.a_loc ++ self.cache.flatMap (·.cells)).length ≤
              self.memory.mem_manager.tot_size := by
          simpa [InferBatch.sequences] using hRoom
        obtain ⟨result, hAlloc⟩ := decode_alloc_ok h.holds hRows
        exact ⟨_, by rw [if_neg Bool.false_ne_true, ModelRpcServer.decode, hAlloc]; rfl⟩
  obtain ⟨pass, hPass⟩ := hPass
  unfold ModelRpcServer.forward
  simp only [hPop, Option.bind_some, hEngine, hPass, Option.map_some]
  exact ⟨_, rfl⟩

theorem Sound.add_batch {reqs : List Req} (h : Sound model rank weights tot_size self)
    (hServes : self.Serves views) (hFresh : ∀ view ∈ views, view.batch_id ≠ batch_id)
    (hIds : (reqs.map (·.request_id)).Nodup) (hPrompts : ∀ req ∈ reqs, req.prompt_ids ≠ [])
    (hNamed : ∀ req ∈ reqs, req.adapter_dir ≠ none)
    (hAdd : self.add_batch batch_id reqs = some self') :
    Sound model rank weights tot_size self' ∧
      self'.Serves (⟨batch_id, false, reqs.map fun req =>
        ⟨req.request_id, req.adapter_dir, req.prompt_ids⟩⟩ :: views) ∧
      self'.infer_adapter = self.infer_adapter := by
  obtain ⟨batch, hInit, rfl⟩ := Option.map_eq_some_iff.mp hAdd
  obtain ⟨hShape, rfl, hPrefilled, hSequences⟩ := InferBatch.Shape.init_batch hInit hIds hPrompts
  have hNone : batch.cells = [] := by simp [InferBatch.cells, hPrefilled]
  have hOthers : ∀ other ∈ self.cache, other.batch_id ≠ batch.batch_id := fun other hOther =>
    hFresh other.view (hServes.mem_iff.mp (List.mem_map_of_mem hOther))
  have hPut := put_eq _ hOthers
  refine ⟨⟨h.intact, ?_, h.tot_size_eq, ?_, ?_⟩, ?_, rfl⟩
  · rw [hPut, List.flatMap_cons, hNone, List.nil_append]
    exact h.holds
  · rw [hPut, List.map_cons]
    refine List.nodup_cons.mpr ⟨fun hMem => ?_, h.ids⟩
    obtain ⟨other, hOther, hSame⟩ := List.mem_map.mp hMem
    exact hOthers other hOther hSame
  · rw [hPut]
    intro other hOther
    rcases List.mem_cons.mp hOther with rfl | hOther
    · refine ⟨hShape, ?_, by simp [hPrefilled]⟩
      rw [hSequences]
      intro seq hSeq
      obtain ⟨req, hReq, rfl⟩ := List.mem_map.mp hSeq
      exact hNamed req hReq
    · exact h.cached other hOther
  · rw [Serves, hPut, List.map_cons, InferBatch.view, hPrefilled, hSequences, List.map_map]
    exact hServes.cons _

theorem add_batch_ok {reqs : List Req} (hSome : reqs ≠ []) :
    ∃ result, self.add_batch batch_id reqs = some result := by
  rw [ModelRpcServer.add_batch, InferBatch.init_batch, if_neg hSome]
  exact ⟨_, rfl⟩

/-- The requests that are kept stay as they are, and the others give their cells back. -/
theorem Sound.filter_batch {ids : List String} (h : Sound model rank weights tot_size self)
    (hServes : self.Serves (⟨batch_id, true, texts⟩ :: views))
    (hSub : ids.Sublist (texts.map (·.request_id)))
    (hFilter : self.filter_batch batch_id ids = some self') :
    Sound model rank weights tot_size self' ∧
      self'.Serves (⟨batch_id, true, texts.filter fun text => decide (text.request_id ∈ ids)⟩ ::
        views) ∧
      self'.infer_adapter = self.infer_adapter := by
  obtain ⟨batch, rest, hPop, hView, hRest⟩ := hServes.popped h
  obtain ⟨hId, hPerm, hOthers⟩ := pop_spec h.ids hPop
  obtain ⟨rfl, hPrefilled, rfl⟩ := View.mk.inj hView
  have hCached := h.cached batch (hPerm.mem_iff.mpr List.mem_cons_self)
  unfold ModelRpcServer.filter_batch at hFilter
  simp only [hPop, Option.bind_some] at hFilter
  obtain ⟨⟨batch', removed⟩, hBatch, rfl⟩ := Option.map_eq_some_iff.mp hFilter
  have hRows : batch.rows.map (·.request_id) =
      (batch.sequences.map (·.toText)).map (·.request_id) := by
    rw [InferBatch.sequences, List.map_map, List.map_map]
    rfl
  obtain ⟨hShape', hId', hPrefilled', hSequences', rfl⟩ :=
    hCached.toShape.filter hPrefilled (hRows ▸ hSub) hBatch
  have hPut := put_eq batch' (hId'.symm ▸ hOthers)
  have hHolds := h.holds_popped hPop
  have hKept : Cached model weights self.memory.buffer batch' := by
    refine ⟨hShape', ?_, ?_⟩
    · rw [hSequences']
      exact fun seq hSeq => hCached.named seq (List.mem_of_mem_filter hSeq)
    · rw [hSequences']
      exact fun _ seq hSeq => hCached.content hPrefilled seq (List.mem_of_mem_filter hSeq)
  have hSplit : batch.cells.Perm
      ((batch.sequences.filter fun seq => !decide (seq.request_id ∈ ids)).flatMap (·.cells) ++
        batch'.cells) := by
    rw [InferBatch.cells_eq, InferBatch.cells_eq, hSequences', ← List.flatMap_append]
    refine List.Perm.flatMap_right _ (List.Perm.symm (List.perm_append_comm.trans ?_))
    exact List.filter_append_perm (fun seq => decide (seq.request_id ∈ ids)) batch.sequences
  have hSplit' := hSplit.append_right (self.infer_adapter.a_loc ++ rest.flatMap (·.cells))
  rw [List.append_assoc] at hSplit'
  refine ⟨?_, ?_, rfl⟩
  · simp only [hPut]
    exact h.replace hPop { self.memory with mem_manager := self.memory.mem_manager.free _ } hId'
      hKept (hHolds.perm hSplit').free h.tot_size_eq fun _ _ => rfl
  · rw [Serves, hPut, List.map_cons, InferBatch.view, hId', hPrefilled', hSequences',
      List.filter_map]
    exact hRest.cons _

theorem filter_batch_ok {ids : List String} (h : Sound model rank weights tot_size self)
    (hServes : self.Serves (⟨batch_id, true, texts⟩ :: views)) (hSome : ids ≠ [])
    (hSub : ids.Sublist (texts.map (·.request_id))) :
    ∃ result, self.filter_batch batch_id ids = some result := by
  obtain ⟨batch, rest, hPop, hView, -⟩ := hServes.popped h
  obtain ⟨-, hPerm, -⟩ := pop_spec h.ids hPop
  obtain ⟨rfl, -, rfl⟩ := View.mk.inj hView
  have hShape := (h.cached batch (hPerm.mem_iff.mpr List.mem_cons_self)).toShape
  have hRows : batch.rows.map (·.request_id) =
      (batch.sequences.map (·.toText)).map (·.request_id) := by
    rw [InferBatch.sequences, List.map_map, List.map_map]
    rfl
  unfold ModelRpcServer.filter_batch InferBatch.filter
  simp only [hPop, Option.bind_some, if_neg hSome]
  split
  · exact ⟨_, rfl⟩
  · rw [InferBatch.mapM_find_of_sublist (hRows ▸ hSub) hShape.ids]
    exact ⟨_, rfl⟩

/-- The requests of both batches go on as one batch. -/
theorem Sound.merge_batch {batch_id1 batch_id2 : Nat} {texts1 texts2 : List Text}
    (h : Sound model rank weights tot_size self)
    (hServes : self.Serves (⟨batch_id1, true, texts1⟩ :: ⟨batch_id2, true, texts2⟩ :: views))
    (hIds : ((texts1 ++ texts2).map (·.request_id)).Nodup)
    (hMerge : self.merge_batch batch_id1 batch_id2 = some self') :
    Sound model rank weights tot_size self' ∧
      self'.Serves (⟨batch_id1, true, texts1 ++ texts2⟩ :: views) ∧
      self'.infer_adapter = self.infer_adapter := by
  obtain ⟨batch1, rest1, hPop1, hView1, hRest1⟩ := hServes.popped h
  obtain ⟨-, hPerm1, hOthers1⟩ := pop_spec h.ids hPop1
  have hIds1 := (List.nodup_cons.mp ((hPerm1.map (·.batch_id)).nodup_iff.mp h.ids)).2
  obtain ⟨batch2, rest2, hPop2, hView2, hRest2⟩ := exists_pop hIds1 hRest1
  obtain ⟨-, hPerm2, -⟩ := pop_spec hIds1 hPop2
  have hPerm := hPerm1.trans (hPerm2.cons batch1)
  obtain ⟨rfl, hPrefilled1, rfl⟩ := View.mk.inj hView1
  obtain ⟨rfl, hPrefilled2, rfl⟩ := View.mk.inj hView2
  have hCached1 := h.cached batch1 (hPerm.mem_iff.mpr List.mem_cons_self)
  have hCached2 := h.cached batch2
    (hPerm.mem_iff.mpr (List.mem_cons_of_mem _ List.mem_cons_self))
  have hRowIds : (batch1.rows.map (·.request_id) ++ batch2.rows.map (·.request_id)).Nodup := by
    simpa [InferBatch.sequences, Row.sequence, Function.comp_def] using hIds
  obtain ⟨hShape, hPrefilled, hSequences⟩ :=
    hCached1.toShape.merge hCached2.toShape hPrefilled1 hPrefilled2 hRowIds
  unfold ModelRpcServer.merge_batch at hMerge
  simp only [hPop1, Option.bind_some, hPop2, Option.map_some] at hMerge
  obtain rfl := Option.some.inj hMerge
  have hOthers : ∀ other ∈ rest2, other.batch_id ≠ (batch1.merge batch2).batch_id :=
    fun other hOther => hOthers1 other (hPerm2.mem_iff.mpr (List.mem_cons_of_mem _ hOther))
  have hPut := put_eq _ hOthers
  refine ⟨⟨h.intact, ?_, h.tot_size_eq, ?_, ?_⟩, ?_, rfl⟩
  · simp only [hPut]
    refine h.holds.perm (List.Perm.append_left _ ?_)
    rw [List.flatMap_cons, InferBatch.cells_eq, hSequences, List.flatMap_append,
      ← InferBatch.cells_eq, ← InferBatch.cells_eq, List.append_assoc]
    simpa using hPerm.flatMap_right (·.cells)
  · simp only [hPut]
    have := (hPerm.map (·.batch_id)).nodup_iff.mp h.ids
    simp only [List.map_cons, List.nodup_cons, List.mem_cons, not_or] at this
    exact List.nodup_cons.mpr ⟨this.1.2, this.2.2⟩
  · simp only [hPut]
    intro other hOther
    rcases List.mem_cons.mp hOther with rfl | hOther
    · refine ⟨hShape, ?_, fun _ => ?_⟩
      · rw [hSequences]
        intro seq hSeq
        rcases List.mem_append.mp hSeq with hSeq | hSeq
        · exact hCached1.named seq hSeq
        · exact hCached2.named seq hSeq
      · rw [hSequences]
        intro seq hSeq
        rcases List.mem_append.mp hSeq with hSeq | hSeq
        · exact hCached1.content hPrefilled1 seq hSeq
        · exact hCached2.content hPrefilled2 seq hSeq
    · exact h.cached other (hPerm.mem_iff.mpr
        (List.mem_cons_of_mem _ (List.mem_cons_of_mem _ hOther)))
  · rw [Serves]
    simp only [hPut]
    rw [List.map_cons, InferBatch.view, hPrefilled, hSequences, List.map_append]
    exact hRest2.cons _

theorem merge_batch_ok {batch_id1 batch_id2 : Nat} {texts1 texts2 : List Text}
    (h : Sound model rank weights tot_size self)
    (hServes : self.Serves (⟨batch_id1, true, texts1⟩ :: ⟨batch_id2, true, texts2⟩ :: views)) :
    ∃ result, self.merge_batch batch_id1 batch_id2 = some result := by
  obtain ⟨batch1, rest1, hPop1, -, hRest1⟩ := hServes.popped h
  obtain ⟨-, hPerm1, -⟩ := pop_spec h.ids hPop1
  have hIds1 := (List.nodup_cons.mp ((hPerm1.map (·.batch_id)).nodup_iff.mp h.ids)).2
  obtain ⟨batch2, rest2, hPop2, -⟩ := exists_pop hIds1 hRest1
  unfold ModelRpcServer.merge_batch
  simp only [hPop1, Option.bind_some, hPop2, Option.map_some]
  exact ⟨_, rfl⟩

theorem remove_batch_ok (h : Sound model rank weights tot_size self)
    (hServes : self.Serves (view :: views)) :
    ∃ result, self.remove_batch view.batch_id = some result := by
  obtain ⟨batch, rest, hPop, -⟩ := hServes.popped h
  unfold ModelRpcServer.remove_batch
  rw [hPop]
  exact ⟨_, rfl⟩

/-- The cells of the batch are given back. -/
theorem Sound.remove_batch (h : Sound model rank weights tot_size self)
    (hServes : self.Serves (⟨batch_id, true, texts⟩ :: views))
    (hRemove : self.remove_batch batch_id = some self') :
    Sound model rank weights tot_size self' ∧ self'.Serves views ∧
      self'.infer_adapter = self.infer_adapter := by
  obtain ⟨batch, rest, hPop, hView, hRest⟩ := hServes.popped h
  obtain ⟨-, hPerm, -⟩ := pop_spec h.ids hPop
  obtain ⟨rfl, hPrefilled, rfl⟩ := View.mk.inj hView
  have hHolds := h.holds_popped hPop
  unfold ModelRpcServer.remove_batch at hRemove
  rw [hPop, Option.map_some] at hRemove
  obtain rfl := Option.some.inj hRemove
  refine ⟨⟨h.intact, ?_, h.tot_size_eq, ?_, fun other hOther => ?_⟩, hRest, rfl⟩
  · rw [InferBatch.cells, hPrefilled, if_pos rfl] at hHolds
    exact hHolds.free
  · exact (List.nodup_cons.mp ((hPerm.map (·.batch_id)).nodup_iff.mp h.ids)).2
  · exact h.cached other (hPerm.mem_iff.mpr (List.mem_cons_of_mem _ hOther))

/-- The adapters that the server offers and that some of the requests name. -/
theorem adapters_of_spec {dirs : List (Option String)} {news : List LoraAdapter}
    (hAdapters : adapters_of adapters dirs = some news) :
    news.map (·.lora_dir) = dirs.filterMap id ∧ ∀ adapter ∈ news, adapter ∈ adapters := by
  unfold adapters_of at hAdapters
  generalize dirs.filterMap id = names at hAdapters ⊢
  induction names generalizing news with
  | nil =>
      obtain rfl : [] = news := by simpa using hAdapters
      simp
  | cons dir names ih =>
      rw [List.mapM_cons] at hAdapters
      obtain ⟨adapter, hFind, hRest⟩ := Option.bind_eq_some_iff.mp hAdapters
      obtain ⟨others, hOthers, hSame⟩ := Option.bind_eq_some_iff.mp hRest
      obtain rfl := Option.some.inj hSame
      obtain ⟨hNames, hMem⟩ := ih hOthers
      have hDir : adapter.lora_dir = dir := by simpa using List.find?_some hFind
      refine ⟨by simp [hDir, hNames], fun other hOther => ?_⟩
      rcases List.mem_cons.mp hOther with rfl | hOther
      · exact List.mem_of_find?_eq_some hFind
      · exact hMem other hOther

theorem adapters_of_ok {dirs : List (Option String)}
    (hServed : ∀ dir, some dir ∈ dirs → ∃ adapter ∈ adapters, adapter.lora_dir = dir) :
    ∃ news, adapters_of adapters dirs = some news := by
  unfold adapters_of
  have hNames : ∀ dir ∈ dirs.filterMap id, ∃ adapter ∈ adapters, adapter.lora_dir = dir := by
    intro dir hDir
    obtain ⟨_, hMem, rfl⟩ := List.mem_filterMap.mp hDir
    exact hServed dir hMem
  generalize dirs.filterMap id = names at hNames ⊢
  induction names with
  | nil => exact ⟨[], rfl⟩
  | cons dir names ih =>
      obtain ⟨news, hNews⟩ := ih fun dir hDir => hNames dir (List.mem_cons_of_mem _ hDir)
      obtain ⟨adapter, hAdapter, hDir⟩ := hNames dir List.mem_cons_self
      have hSome : (adapters.find? (·.lora_dir == dir)).isSome :=
        List.find?_isSome.mpr ⟨adapter, hAdapter, by simp [hDir]⟩
      obtain ⟨found, hFound⟩ := Option.isSome_iff_exists.mp hSome
      exact ⟨found :: news, by simp [List.mapM_cons, hFound, hNews]⟩

/-- What loading and offloading leave alone. -/
theorem Sound.swap {infer_adapter : InferAdapter} (memory : Memory V)
    (h : Sound model rank weights tot_size self)
    (hIntact : infer_adapter.Intact rank weights memory.buffer)
    (hHolds : memory.mem_manager.Holds (infer_adapter.a_loc ++ self.cache.flatMap (·.cells)))
    (hTot : memory.mem_manager.tot_size = tot_size)
    (hSame : ∀ c ∈ self.cache.flatMap (·.cells), memory.buffer c = self.memory.buffer c) :
    Sound model rank weights tot_size { self with infer_adapter, memory } where
  intact := hIntact
  holds := hHolds
  tot_size_eq := hTot
  ids := h.ids
  cached batch hBatch := (h.cached batch hBatch).congr fun c hc =>
    hSame c (List.mem_flatMap.mpr ⟨batch, hBatch, hc⟩)

/-- The adapters that are served, each once, with their weights, of which there are four rows for
each rank, and with ranks that suit the copy kernel. -/
structure Offers (rank : String → Nat) (weights : String → List V) (adapters : List LoraAdapter) :
    Prop where
  rank_eq : ∀ adapter ∈ adapters, adapter.r = rank adapter.lora_dir
  weights_length : ∀ dir, (weights dir).length = rank dir * 4
  blocked : InferAdapter.WellBlocked rank

theorem nodup_names {dirs : List (Option String)} (hDirs : dirs.Nodup) :
    (dirs.filterMap id).Nodup :=
  hDirs.filterMap fun _ _ _ hFirst hSecond => by
    simp only [id_eq, Option.mem_def] at hFirst hSecond
    rw [hFirst, hSecond]

theorem Sound.load_adapters {dirs : List (Option String)} {prefetch : Bool}
    (h : Sound model rank weights tot_size self) (hOffers : Offers rank weights adapters)
    (hDirs : dirs.Nodup) (hLoad : self.load_adapters adapters weights dirs prefetch = some self') :
    Sound model rank weights tot_size self' ∧ self'.cache = self.cache ∧
      self.infer_adapter.adapter_dirs ⊆ self'.infer_adapter.adapter_dirs ∧
      self'.infer_adapter.adapter_dirs ⊆ self.infer_adapter.adapter_dirs ++ dirs.filterMap id ∧
      (prefetch = false → dirs.filterMap id ⊆ self'.infer_adapter.adapter_dirs) := by
  obtain ⟨news, hNews, hRest⟩ := Option.bind_eq_some_iff.mp hLoad
  obtain ⟨⟨infer_adapter, memory⟩, hResult, rfl⟩ := Option.map_eq_some_iff.mp hRest
  obtain ⟨hNames, hMem⟩ := adapters_of_spec hNews
  have hOffered : InferAdapter.Offered rank news := by
    refine ⟨fun adapter hAdapter => hOffers.rank_eq adapter (hMem adapter hAdapter), ?_⟩
    rw [hNames]
    exact nodup_names hDirs
  cases hOk : self.infer_adapter.load_adapters weights self.memory news prefetch with
  | error message => simp [hOk, Except.toOption] at hResult
  | ok result =>
      obtain rfl : result = (infer_adapter, memory) := by simpa [hOk, Except.toOption] using hResult
      obtain ⟨hIntact, hHolds, hSame, hTot, hOld, hNew, hAll⟩ :=
        h.intact.load h.holds hOffered hOffers.weights_length hOk
      rw [hNames] at hNew hAll
      exact ⟨h.swap memory hIntact hHolds (hTot.trans h.tot_size_eq) hSame, rfl, hOld, hNew, hAll⟩

theorem Sound.offload_adapters {reserve_dirs : List (Option String)}
    (h : Sound model rank weights tot_size self) (hOffers : Offers rank weights adapters)
    (hOffload : self.offload_adapters reserve_dirs = some self') :
    Sound model rank weights tot_size self' ∧ self'.cache = self.cache ∧
      self'.infer_adapter.adapter_dirs ⊆ self.infer_adapter.adapter_dirs ∧
      ∀ dir ∈ self.infer_adapter.adapter_dirs, some dir ∈ reserve_dirs →
        dir ∈ self'.infer_adapter.adapter_dirs := by
  obtain ⟨⟨infer_adapter, mem_manager⟩, hResult, rfl⟩ := Option.map_eq_some_iff.mp hOffload
  cases hOk : self.infer_adapter.offload_adapters self.memory.mem_manager reserve_dirs with
  | error message => simp [hOk, Except.toOption] at hResult
  | ok result =>
      obtain rfl : result = (infer_adapter, mem_manager) := by
        simpa [hOk, Except.toOption] using hResult
      obtain ⟨hIntact, hHolds, hTot, hOld, hKept⟩ :=
        h.intact.offload h.holds hOffers.blocked hOk
      exact ⟨h.swap { self.memory with mem_manager } hIntact hHolds
        (hTot.trans h.tot_size_eq) fun _ _ => rfl, rfl, hOld, hKept⟩

/-- How many cells some adapters take up. -/
def cells_of (rank : String → Nat) (dirs : List String) : Nat :=
  (dirs.map fun dir => rank dir * 4).sum

/-- Loading succeeds if there is room for the adapters that are there and the new ones, and loading
ahead succeeds in any case. -/
theorem load_adapters_ok {dirs : List (Option String)} {prefetch : Bool}
    (h : Sound model rank weights tot_size self) (hServes : self.Serves views)
    (hOffers : Offers rank weights adapters) (hDirs : dirs.Nodup)
    (hServed : ∀ dir, some dir ∈ dirs → ∃ adapter ∈ adapters, adapter.lora_dir = dir)
    (hRoom : prefetch = false → ∀ names : List String, names.Nodup →
      names ⊆ self.infer_adapter.adapter_dirs ++ dirs.filterMap id →
        cells_of rank names + (views.map (·.held)).sum ≤ tot_size) :
    ∃ result, self.load_adapters adapters weights dirs prefetch = some result := by
  obtain ⟨news, hNews⟩ := adapters_of_ok hServed
  obtain ⟨hNames, hMem⟩ := adapters_of_spec hNews
  have hHeld := hServes.length_cells h
  have hTable := h.intact.toLayout.length_a_loc
  have hSize := h.holds.size_eq
  rw [h.tot_size_eq] at hSize
  have hFits : ((self.infer_adapter.new_adapters news prefetch
      self.memory.mem_manager.can_use_mem_size).2.map (·.size)).sum +
        (self.infer_adapter.a_loc ++ self.cache.flatMap (·.cells)).length ≤
          self.memory.mem_manager.tot_size := by
    rw [h.tot_size_eq]
    cases prefetch with
    | true =>
        have := self.infer_adapter.new_adapters_fit news self.memory.mem_manager.can_use_mem_size
        omega
    | false =>
        obtain ⟨-, hSub, hFresh, -⟩ := self.infer_adapter.new_adapters_spec news false
          self.memory.mem_manager.can_use_mem_size
        generalize (self.infer_adapter.new_adapters news false
          self.memory.mem_manager.can_use_mem_size).2 = added at hSub hFresh ⊢
        have hNodup : (self.infer_adapter.adapter_dirs ++ added.map (·.lora_dir)).Nodup := by
          refine h.intact.nodup.append ?_ ?_
          · refine List.Nodup.sublist (hSub.map _) ?_
            rw [hNames]
            exact nodup_names hDirs
          · intro dir hThere hNew
            obtain ⟨adapter, hAdapter, rfl⟩ := List.mem_map.mp hNew
            have := (h.intact.indexed adapter.lora_dir).mpr hThere
            rw [hFresh adapter hAdapter] at this
            exact Bool.noConfusion this
        have hSizes : (added.map (·.size)).sum = cells_of rank (added.map (·.lora_dir)) := by
          rw [cells_of, List.map_map]
          refine congrArg List.sum (List.map_congr_left fun adapter hAdapter => ?_)
          rw [LoraAdapter.size, hOffers.rank_eq adapter (hMem adapter (hSub.subset hAdapter))]
          rfl
        have := hRoom rfl _ hNodup (List.append_subset.mpr ⟨List.subset_append_left _ _, by
          rw [← hNames]
          exact List.subset_append_of_subset_right _ (hSub.map _).subset⟩)
        rw [cells_of, List.map_append, List.sum_append, ← hTable, ← cells_of, ← hSizes] at this
        rw [List.length_append, hHeld]
        omega
  obtain ⟨result, hResult⟩ := InferAdapter.load_ok weights h.holds hFits
  rw [ModelRpcServer.load_adapters, hNews, Option.bind_some, hResult]
  exact ⟨_, rfl⟩

theorem offload_adapters_ok {reserve_dirs : List (Option String)}
    (hReserve : reserve_dirs = [] ∨
      ∃ dir ∈ self.infer_adapter.adapter_dirs, some dir ∈ reserve_dirs) :
    ∃ result, self.offload_adapters reserve_dirs = some result := by
  obtain ⟨result, hResult⟩ := InferAdapter.offload_ok self.memory.mem_manager hReserve
  exact ⟨_, by rw [ModelRpcServer.offload_adapters, hResult]; rfl⟩

end ModelRpcServer

end Slora
