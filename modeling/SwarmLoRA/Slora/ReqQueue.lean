import SwarmLoRA.Slora.Admission

namespace Slora

/-- What the router asks of a queue. `none` is an exception. The queues of the repository differ in
the order and the choice of requests. -/
structure Scheduler (σ : Type) where
  waiting_req_list : σ → List Req
  append : σ → Req → σ
  abort : String → σ → σ
  generate_new_batch : Ranks → σ → Option Batch → Option (σ × Option (List Req))
  next_batch : σ → Option (Option (List Req))
  update_counter : σ → Batch → Option σ

/-- The requests of the running batch, if there is one. -/
def running_reqs (current_batch : Option Batch) : List Req :=
  match current_batch with
  | some batch => batch.reqs
  | none => []

/-- What a queue hands over: requests that wait, are not aborted and may be added to the batch. The
others keep waiting, except for aborted ones that are dropped. -/
structure HandsOver (limits : Limits) (lora_ranks : Ranks) (running waiting waiting' : List Req)
    (new_batch : Option (List Req)) : Prop where
  conserved : ∃ dropped, waiting.Perm (new_batch.getD [] ++ dropped ++ waiting') ∧
    ∀ req ∈ dropped, req.aborted = true
  admitted : ∀ reqs, new_batch = some reqs → reqs ≠ [] ∧ Admitted limits lora_ranks running reqs
  live : ∀ req ∈ new_batch.getD [], req.aborted = false

/-- What the router may rely on, as long as the requests have distinct ids and ask for a token at
least. -/
structure Scheduler.Lawful {σ : Type} (S : Scheduler σ) (limits : Limits) (Inv : σ → Prop) :
    Prop where
  waiting_append : ∀ q req, S.waiting_req_list (S.append q req) = S.waiting_req_list q ++ [req]
  waiting_abort : ∀ q request_id,
    S.waiting_req_list (S.abort request_id q) = abort_in request_id (S.waiting_req_list q)
  waiting_update : ∀ q q' batch, S.update_counter q batch = some q' →
    S.waiting_req_list q' = S.waiting_req_list q
  next : ∀ q reqs, Inv q → S.next_batch q = some (some reqs) → reqs ⊆ S.waiting_req_list q
  inv_append : ∀ q req, Inv q → Inv (S.append q req)
  inv_abort : ∀ q request_id, Inv q → Inv (S.abort request_id q)
  inv_update : ∀ q q' batch, Inv q → S.update_counter q batch = some q' → Inv q'
  inv_generate : ∀ lora_ranks q q' batch new_batch, Inv q →
    S.generate_new_batch lora_ranks q batch = some (q', new_batch) → Inv q'
  generate : ∀ lora_ranks q q' batch new_batch, Inv q →
    ((S.waiting_req_list q).map (·.request_id)).Nodup → Scan.Verified (S.waiting_req_list q) →
    Unfinished (running_reqs batch) →
    S.generate_new_batch lora_ranks q batch = some (q', new_batch) →
    HandsOver limits lora_ranks (running_reqs batch) (S.waiting_req_list q)
      (S.waiting_req_list q') new_batch

/-- The running batch has as many requests as it may have. -/
def Limits.full (limits : Limits) : Option Batch → Bool
  | some batch => decide (limits.running_max_req_size ≤ batch.reqs.length)
  | none => false

namespace ReqQueue

variable (limits : Limits) (lora_ranks : Ranks)

def generate_new_batch (waiting_req_list : List Req) (current_batch : Option Batch) :
    Option (List Req × Option (List Req)) :=
  if limits.full current_batch then some (waiting_req_list, none)
  else
    (Admission.init_cache_list lora_ranks {} (running_reqs current_batch)).bind fun admission =>
      (Scan.run limits lora_ranks { admission } waiting_req_list).map fun scan =>
        if scan.can_run_list ≠ [] then
          (waiting_req_list.drop (scan.can_run_list.length + scan.abort_list.length),
            some scan.can_run_list)
        else (waiting_req_list, none)

/-- The requests that `next_batch` takes, by the tokens of their prompts alone. -/
def next_reqs : Nat → List Req → List Req
  | _, [] => []
  | new_batch_total_tokens, req :: reqs =>
      if req.aborted then next_reqs new_batch_total_tokens reqs
      else if new_batch_total_tokens + req.input_len ≤ limits.batch_max_tokens then
        req :: next_reqs (new_batch_total_tokens + req.input_len) reqs
      else []

def next_batch (waiting_req_list : List Req) : Option (List Req) :=
  match next_reqs limits 0 waiting_req_list with
  | [] => none
  | reqs => some reqs

/-- `ReqQueue`, which is its waiting requests. -/
def scheduler : Scheduler (List Req) where
  waiting_req_list q := q
  append q req := q ++ [req]
  abort := abort_in
  generate_new_batch := generate_new_batch limits
  next_batch q := some (next_batch limits q)
  update_counter q _ := some q

variable {limits : Limits} {lora_ranks : Ranks} {waiting waiting' : List Req}
  {batch : Option Batch} {new_batch : Option (List Req)}

theorem length_filter_aborted (reqs : List Req) :
    (reqs.filter (!·.aborted)).length + (reqs.filter (·.aborted)).length = reqs.length := by
  rw [add_comm]
  exact (List.length_eq_length_filter_add _).symm

/-- The scan that a new batch starts with. -/
theorem precise_init (limits : Limits) {admission : Admission}
    (hOpen : Unfinished (running_reqs batch))
    (hInit : Admission.init_cache_list lora_ranks {} (running_reqs batch) = some admission) :
    Scan.Precise lora_ranks (running_reqs batch) { admission } ∧
      Scan.Sound limits lora_ranks (running_reqs batch) { admission } := by
  have hExact : admission.ExactBatch lora_ranks (running_reqs batch) [] := by
    simpa [joined_len, Admission.ExactBatch] using
      (Admission.Exact.empty lora_ranks).init hOpen hInit
  exact ⟨⟨hExact, rfl⟩, ⟨hExact.toCovers, .inl rfl, rfl⟩⟩

/-- A batch that is not full gets the first waiting requests, the aborted ones passed over. The
first that is left could not be added any more. -/
theorem generate_new_batch_spec (hVerified : Scan.Verified waiting)
    (hOpen : Unfinished (running_reqs batch)) (hFull : limits.full batch = false)
    (hGenerate : generate_new_batch limits lora_ranks waiting batch = some (waiting', new_batch)) :
    ∃ taken rest, waiting = taken ++ rest ∧
      (∀ req later, rest = req :: later → req.aborted = false ∧
        ¬Admitted limits lora_ranks (running_reqs batch)
          (taken.filter (!·.aborted) ++ [req])) ∧
      ((taken.filter (!·.aborted) = [] ∧ new_batch = none ∧ waiting' = waiting) ∨
        (taken.filter (!·.aborted) ≠ [] ∧ new_batch = some (taken.filter (!·.aborted)) ∧
          waiting' = rest ∧
          Admitted limits lora_ranks (running_reqs batch) (taken.filter (!·.aborted)))) := by
  rw [generate_new_batch, hFull, if_neg Bool.false_ne_true] at hGenerate
  obtain ⟨admission, hInit, hScan⟩ := Option.bind_eq_some_iff.mp hGenerate
  obtain ⟨scan, hRun, hSame⟩ := Option.map_eq_some_iff.mp hScan
  obtain ⟨hPrecise, hSound⟩ := precise_init limits hOpen hInit
  obtain ⟨taken, rest, rfl, hCan, hAbort, hStop⟩ := Scan.run_maximal hPrecise hVerified hRun
  have hAdmitted := (Scan.run_spec hSound hVerified hRun).1.admitted
  rw [List.nil_append] at hCan hAbort
  rw [hCan] at hStop hSame hAdmitted
  refine ⟨taken, rest, rfl, hStop, ?_⟩
  split at hSame
  · rename_i hSome
    obtain ⟨rfl, rfl⟩ := Prod.mk.inj hSame
    refine .inr ⟨hSome, rfl, ?_, hAdmitted.resolve_left hSome⟩
    rw [hAbort, length_filter_aborted, List.drop_left]
  · rename_i hNone
    obtain ⟨rfl, rfl⟩ := Prod.mk.inj hSame
    exact .inl ⟨not_not.mp hNone, rfl, rfl⟩

/-- As `generate_new_batch_longest`, for a batch that is not full. -/
theorem longest_of_room (hVerified : Scan.Verified waiting)
    (hOpen : Unfinished (running_reqs batch)) (hFull : limits.full batch = false)
    (hGenerate : generate_new_batch limits lora_ranks waiting batch = some (waiting', new_batch)) :
    ((new_batch = none ∧ waiting' = waiting) ∨
      ∃ taken, waiting = taken ++ waiting' ∧ new_batch = some (taken.filter (!·.aborted)) ∧
        taken.filter (!·.aborted) ≠ [] ∧
        Admitted limits lora_ranks (running_reqs batch) (taken.filter (!·.aborted))) ∧
      ∀ first, first <+: waiting →
        Admitted limits lora_ranks (running_reqs batch) (first.filter (!·.aborted)) →
        first.filter (!·.aborted) <+: new_batch.getD [] := by
  obtain ⟨taken, rest, rfl, hStop, hCases⟩ :=
    generate_new_batch_spec hVerified hOpen hFull hGenerate
  have hNew : new_batch.getD [] = taken.filter (!·.aborted) := by
    rcases hCases with ⟨hNone, rfl, -⟩ | ⟨-, rfl, -, -⟩
    · exact hNone.symm
    · rfl
  refine ⟨?_, fun first hFirst hAdmitted => hNew ▸ ?_⟩
  · rcases hCases with ⟨-, hNone, hSame⟩ | ⟨hSome, hReqs, hRest, hAdmitted⟩
    · exact .inl ⟨hNone, hSame⟩
    · exact .inr ⟨taken, hRest ▸ rfl, hReqs, hSome, hAdmitted⟩
  · rcases List.prefix_or_prefix_of_prefix hFirst (List.prefix_append taken rest) with
      hTaken | ⟨more, rfl⟩
    · exact hTaken.filter _
    · cases more with
      | nil => simp
      | cons req more =>
          -- the request that stopped the scan would have to be among the first
          obtain ⟨later, rfl⟩ := (List.prefix_append_right_inj taken).mp hFirst
          obtain ⟨hLive, hNot⟩ := hStop req (more ++ later) rfl
          refine absurd (Admission.admitted_of_sublist hAdmitted ?_) hNot
          rw [List.filter_append, List.filter_cons_of_pos (by simp [hLive])]
          exact List.Sublist.append_left (by simp) _

/-- To a full batch nothing may be added. -/
theorem eq_nil_of_full (hFull : limits.full batch = true) {reqs : List Req}
    (hAdmitted : Admitted limits lora_ranks (running_reqs batch) reqs) : reqs = [] := by
  have hSize := hAdmitted.size
  cases batch with
  | none => simp [Limits.full] at hFull
  | some batch =>
      have hMax : limits.running_max_req_size ≤ batch.reqs.length := by
        simpa [Limits.full] using hFull
      simp only [running_reqs] at hSize
      exact List.eq_nil_of_length_eq_zero (by omega)

/-- A batch gets as many of the first waiting requests as may be added to it, the aborted ones passed
over. It is assumed that the waiting requests ask for a token at least, as `verify` sees to, and that
no request of the batch has all its tokens, as `filter_finished` sees to. -/
theorem generate_new_batch_longest (hVerified : Scan.Verified waiting)
    (hOpen : Unfinished (running_reqs batch))
    (hGenerate : generate_new_batch limits lora_ranks waiting batch = some (waiting', new_batch)) :
    ((new_batch = none ∧ waiting' = waiting) ∨
      ∃ taken, waiting = taken ++ waiting' ∧ new_batch = some (taken.filter (!·.aborted)) ∧
        taken.filter (!·.aborted) ≠ [] ∧
        Admitted limits lora_ranks (running_reqs batch) (taken.filter (!·.aborted))) ∧
      ∀ first, first <+: waiting →
        Admitted limits lora_ranks (running_reqs batch) (first.filter (!·.aborted)) →
        first.filter (!·.aborted) <+: new_batch.getD [] := by
  cases hFull : limits.full batch with
  | true =>
      rw [generate_new_batch, if_pos hFull] at hGenerate
      obtain ⟨rfl, rfl⟩ := Prod.mk.inj (Option.some.inj hGenerate)
      refine ⟨.inl ⟨rfl, rfl⟩, fun first _ hAdmitted => ?_⟩
      rw [eq_nil_of_full hFull hAdmitted]
      exact List.nil_prefix
  | false => exact longest_of_room hVerified hOpen hFull hGenerate

def three_waiting : List Req :=
  [Req.new (some "a") [1, 2] { max_new_tokens := 9 } "x",
    (Req.new (some "b") [1] { max_new_tokens := 9 } "y").abort,
    Req.new (some "b") [1, 2] { max_new_tokens := 9 } "z"]

/-- A batch that runs one request, which has got one of its tokens. -/
def one_running : Batch :=
  ⟨0, [(Req.new (some "a") [1, 2] { max_new_tokens := 4 } "w").add_token_id 7]⟩

/-- Beside the running request the first of three is admitted; the second is aborted, and the third
would not fit. -/
theorem longest_of_three : ∃ waiting' new_batch,
    new_batch.map (fun reqs => reqs.map (·.request_id)) = some ["x"] ∧
    ((new_batch = none ∧ waiting' = three_waiting) ∨
      ∃ taken, three_waiting = taken ++ waiting' ∧
        new_batch = some (taken.filter (!·.aborted)) ∧ taken.filter (!·.aborted) ≠ [] ∧
        Admitted ⟨30, 20, 4⟩ (fun _ => some 1) (running_reqs (some one_running))
          (taken.filter (!·.aborted))) ∧
      ∀ first, first <+: three_waiting →
        Admitted ⟨30, 20, 4⟩ (fun _ => some 1) (running_reqs (some one_running))
          (first.filter (!·.aborted)) →
        first.filter (!·.aborted) <+: new_batch.getD [] := by
  have hRun : (generate_new_batch ⟨30, 20, 4⟩ (fun _ => some 1) three_waiting
      (some one_running)).map (fun result => result.2.map fun reqs => reqs.map (·.request_id)) =
        some (some ["x"]) := by
    decide +kernel
  obtain ⟨⟨waiting', new_batch⟩, hGenerate, hNew⟩ := Option.map_eq_some_iff.mp hRun
  refine ⟨waiting', new_batch, hNew, generate_new_batch_longest ?_ ?_ hGenerate⟩
  · unfold Scan.Verified
    decide
  · unfold Unfinished
    decide

theorem next_reqs_sublist (new_batch_total_tokens : Nat) (reqs : List Req) :
    (next_reqs limits new_batch_total_tokens reqs).Sublist reqs := by
  induction reqs generalizing new_batch_total_tokens with
  | nil => exact List.Sublist.refl _
  | cons req reqs ih =>
      rw [next_reqs]
      split
      · exact (ih _).cons _
      · split
        · exact (ih _).cons_cons _
        · exact List.nil_sublist _

theorem lawful (limits : Limits) : (scheduler limits).Lawful limits fun _ => True where
  waiting_append _ _ := rfl
  waiting_abort _ _ := rfl
  waiting_update _ _ _ h := (Option.some.inj h).symm
  next waiting reqs _ hNext := by
    have hReqs := Option.some.inj hNext
    unfold next_batch at hReqs
    split at hReqs
    · cases hReqs
    · obtain rfl := Option.some.inj hReqs
      exact (next_reqs_sublist 0 waiting).subset
  inv_append _ _ _ := trivial
  inv_abort _ _ _ := trivial
  inv_update _ _ _ _ _ := trivial
  inv_generate _ _ _ _ _ _ _ := trivial
  generate := by
    intro lora_ranks waiting waiting' batch new_batch _ _ hVerified hOpen hGenerate
    cases hFull : limits.full batch with
    | true =>
        have hSame : some (waiting, none) = some (waiting', new_batch) := by
          rw [← hGenerate]
          simp [scheduler, generate_new_batch, hFull]
        obtain ⟨rfl, rfl⟩ := Prod.mk.inj (Option.some.inj hSame)
        exact ⟨⟨[], by simp [scheduler], by simp⟩, by simp, by simp⟩
    | false =>
        obtain ⟨taken, rest, hTaken, -, hCases⟩ :=
          generate_new_batch_spec hVerified hOpen hFull hGenerate
        rcases hCases with ⟨-, rfl, rfl⟩ | ⟨hSome, rfl, rfl, hAdmitted⟩
        · exact ⟨⟨[], by simp [scheduler], by simp⟩, by simp, by simp⟩
        · refine ⟨⟨taken.filter (·.aborted), ?_, ?_⟩, ?_, ?_⟩
          · rw [hTaken]
            refine List.Perm.append_right _ ?_
            simpa using (List.filter_append_perm (fun req => !req.aborted) taken).symm
          · exact fun req hReq => List.of_mem_filter hReq
          · rintro reqs hReqs
            obtain rfl := Option.some.inj hReqs
            exact ⟨hSome, hAdmitted⟩
          · intro req hReq
            simpa using List.of_mem_filter hReq

end ReqQueue

end Slora
