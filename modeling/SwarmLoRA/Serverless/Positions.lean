import SwarmLoRA.Serverless.Replies

namespace Serverless.Replies

open Data Machine

section Filter

variable {α : Type} {p : α → Bool}

/-- Where an element that is kept is among the elements that are kept. -/
theorem getElem?_filter_countP {l : List α} {k : Nat} {x : α} (hx : l[k]? = some x)
    (hKept : p x = true) : (l.filter p)[(l.take k).countP p]? = some x := by
  induction l generalizing k with
  | nil => cases hx
  | cons y l ih =>
      cases k with
      | zero =>
          cases hx
          rw [List.filter_cons_of_pos hKept]
          rfl
      | succ k =>
          have hRest := ih (k := k) hx
          by_cases hy : p y = true
          · rw [List.filter_cons_of_pos hy, List.take_succ_cons, List.countP_cons_of_pos hy]
            exact hRest
          · rw [List.filter_cons_of_neg hy, List.take_succ_cons, List.countP_cons_of_neg hy]
            exact hRest

end Filter

variable {env : Env} {batch : Batch} {worker : Worker}

section Sized

/-- The requests that the batch had at first are kept for the handler. -/
structure Remembered (batch : Batch) (s : Frame) : Prop where
  orig_requests : s.orig_requests = some batch.requests
  none_left : batch.requests = [] → s.requests = []

/-- As many entries are counted as the batch had requests. -/
theorem Remembered.counted {s : Frame} (h : Remembered batch s) :
    s.counted.length = batch.requests.length := by
  unfold Frame.counted
  rw [h.orig_requests]
  cases hRequests : batch.requests with
  | nil => rw [h.none_left hRequests]
  | cons r rest => rfl

variable {I : Frame → Prop}

/-- Getting to a point keeps everything. -/
theorem keeps_reach (p : Point) : Keeps I (reach env p) := by
  unfold reach
  split
  · exact .throw _
  · exact .pure _

/-- So does taking an element that may be missing. -/
theorem keeps_item {α : Type} (l : List α) (i : Nat) : Keeps I (item l i) := by
  unfold item
  split
  · exact .pure _
  · exact .throw _

/-- And the greatest of a list that may be empty. -/
theorem keeps_largest (l : List Nat) : Keeps I (largest l) := by
  unfold largest
  split
  · exact .pure _
  · exact .throw _

/-- And the look at the entry of an expired request. -/
theorem keeps_expired_item (i : Nat) : Keeps I (expired_item i) := by
  apply Keeps.bind .get
  intro s
  split
  · exact .pure _
  · exact .throw _

/-- Checking the deadlines writes down which requests are expired, and nothing else. -/
theorem keeps_check_deadlines {margin : ℚ} {i : Nat} {requests : List InferenceRequest}
    (hExpired : ∀ s expired, I s → I { s with expired := expired }) :
    Keeps I (check_deadlines env batch margin i requests) := by
  induction requests generalizing i with
  | nil => exact .pure _
  | cons r rest ih =>
      apply Keeps.bind (keeps_reach _)
      intro _
      split
      · apply Keeps.bind (.modify fun s hs => hExpired s _ hs)
        intro _
        exact ih
      · apply Keeps.bind ih
        intro _
        exact .pure _

/-- The pruning remembers the batch. -/
theorem keeps_prune : Keeps (Remembered batch) (prune env batch) := by
  unfold prune
  split
  · rename_i hAny
    have hSome : batch.requests ≠ [] := by
      intro hNil
      rw [hNil] at hAny
      cases hAny
    have hExpired : ∀ (s : Frame) (expired : OrderedDict Nat Entry), Remembered batch s →
        Remembered batch { s with expired := expired } :=
      fun _ _ hs => ⟨hs.orig_requests, hs.none_left⟩
    apply Keeps.bind (keeps_reach _)
    intro _
    apply Keeps.bind .get
    intro s
    apply Keeps.bind (keeps_check_deadlines hExpired)
    intro live
    split
    · apply Keeps.bind (keeps_reach _)
      intro _
      apply Keeps.bind (.mapM _ keeps_expired_item)
      intro _
      exact .pure _
    · apply Keeps.bind .get
      intro s
      split
      · exact .pure _
      · apply Keeps.bind (keeps_reach _)
        intro _
        apply Keeps.bind (.modify fun s hs => ⟨hs.orig_requests, fun hNil => absurd hNil hSome⟩)
        intro _
        exact .pure _
  · exact .pure _

/-- Running the model keeps everything. -/
theorem keeps_run_model {requests : List InferenceRequest} {max_tokens : Int} :
    Keeps I (run_model env requests max_tokens) := by
  apply Keeps.bind (keeps_reach _)
  intro _
  apply Keeps.bind
  · apply Keeps.mapM
    intro i
    apply Keeps.bind (keeps_reach _)
    intro _
    exact .bind (keeps_item _ _) fun _ => .pure _
  · intro input_lens
    apply Keeps.bind (keeps_largest _)
    intro _
    apply Keeps.bind (keeps_reach _)
    intro _
    apply Keeps.bind (keeps_reach _)
    intro _
    exact .bind (keeps_reach _) fun _ => .pure _

/-- So does building the results. -/
theorem keeps_build_results {input_lens : List Nat} {outputs : List (List Nat)} :
    Keeps I (build_results env batch input_lens outputs) := by
  apply Keeps.bind .get
  intro s
  apply Keeps.bind
  · apply Keeps.mapM
    intro i
    apply Keeps.bind (keeps_reach _)
    intro _
    exact .bind (keeps_item _ _) fun _ => .pure _
  · intro decoded
    apply Keeps.bind (keeps_reach _)
    intro _
    apply Keeps.mapM
    intro i
    apply Keeps.bind (keeps_reach _)
    intro _
    apply Keeps.bind (keeps_item _ _)
    intro _
    apply Keeps.bind (keeps_item _ _)
    intro _
    exact .bind (keeps_item _ _) fun _ => .pure _

/-- And putting them back in their places. -/
theorem keeps_merge {expired : OrderedDict Nat Entry} {indices : List Nat}
    {live_iter : List Entry} : Keeps I (merge expired indices live_iter) := by
  induction indices generalizing live_iter with
  | nil => exact .pure _
  | cons i rest ih =>
      unfold merge
      split
      · exact .bind ih fun _ => .pure _
      · exact .bind ih fun _ => .pure _
      · exact .throw _

/-- The answer leaves the batch remembered. -/
theorem keeps_answer {input_lens : List Nat} {outputs : List (List Nat)} :
    Keeps (Remembered batch) (answer env batch input_lens outputs) := by
  apply Keeps.bind keeps_build_results
  intro results
  apply Keeps.bind (keeps_reach _)
  intro _
  apply Keeps.bind (.modify fun s hs => ⟨hs.orig_requests, hs.none_left⟩)
  intro _
  apply Keeps.bind (keeps_reach _)
  intro _
  apply Keeps.bind .get
  intro s
  split
  · exact .pure _
  · apply Keeps.bind (keeps_reach _)
    intro _
    apply Keeps.bind keeps_merge
    intro merged
    apply Keeps.bind (.modify fun s hs => ⟨hs.orig_requests, id⟩)
    intro _
    exact .pure _

/-- A point that raises has changed nothing. -/
theorem raises_reach {p : Point} {s s' : Frame} {e : String} (h : Raises (reach env p) s e s') :
    s' = s := by
  unfold reach at h
  split at h
  · cases h
    rfl
  · cases h

/-- One that is got over has changed nothing either. -/
theorem returns_reach {p : Point} {s s' : Frame} {a : PUnit} (h : Returns (reach env p) s a s') :
    s' = s := by
  unfold reach at h
  split at h
  · cases h
  · cases h
    rfl

/-- What comes before the list of the requests is copied leaves the batch as it is. -/
theorem counted_of_raises {s : Frame} {e : String}
    (h : Raises (process env batch) (start batch worker) e s) :
    s.counted.length = batch.requests.length := by
  have hStart : (start batch worker).counted.length = batch.requests.length := rfl
  have hReach : ∀ (p : Point) (rest : PUnit → Call (List Entry)),
      Raises (reach env p >>= rest) (start batch worker) e s →
        s.counted.length = batch.requests.length ∨
          Raises (rest PUnit.unit) (start batch worker) e s := by
    intro p rest h
    rcases raises_bind.mp h with h | ⟨_, s', hReach, h⟩
    · rw [raises_reach h]
      exact .inl hStart
    · rw [returns_reach hReach] at h
      exact .inr h
  rcases hReach .prompts _ h with hDone | h
  · exact hDone
  rcases hReach .max_tokens _ h with hDone | h
  · exact hDone
  rcases hReach .start_log _ h with hDone | h
  · exact hDone
  rcases hReach .lock _ h with hDone | h
  · exact hDone
  rcases hReach .admit_clock _ h with hDone | h
  · exact hDone
  rcases raises_bind.mp h with h | ⟨_, s', hModify, h⟩
  · cases h
  · obtain rfl := returns_modify.mp hModify
    have hKept : Remembered batch { start batch worker with orig_requests := some batch.requests } :=
      ⟨rfl, id⟩
    refine ((Keeps.bind keeps_prune fun reply => ?_).raises _ e s hKept h).counted
    cases reply with
    | some reply => exact .pure _
    | none =>
        apply Keeps.bind .get
        intro s
        exact .bind keeps_run_model fun _ => keeps_answer

end Sized

section Expected

variable (env : Env) (batch : Batch) (worker : Worker)

/-- The margin of a call that starts with a worker. -/
def margin : ℚ := post_admit_margin worker.post_admit_s worker.post_admit_n env.slo_s

/-- The request is dropped if its deadline is looked at. -/
def dropped (r : InferenceRequest) : Bool := late env (margin env worker) r

/-- The requests that are generated. -/
def live : List InferenceRequest := batch.requests.filter fun r => !dropped env worker r

/-- The place of the request at `i` among those that are generated. -/
def live_index (i : Nat) : Nat := (batch.requests.take i).countP fun r => !dropped env worker r

/-- What the tokenizer makes of the prompts that are generated. -/
def live_inputs : Inputs := env.tokenizer ((live env batch worker).map (·.prompt))

/-- How long the input of a request is, by its mask. -/
def input_len (j : Nat) : Nat := ((live_inputs env batch worker).attention_mask.getD j []).count 1

/-- The rows that the model makes of the prompts that are generated. -/
def live_outputs : List (List Nat) :=
  let max_input_len :=
    (((List.range (live env batch worker).length).map (input_len env batch worker)).max?).getD 0
  env.generate (live_inputs env batch worker)
    (max 1 (min batch.max_tokens (MAX_NEW_TOKENS - max_input_len)))

/-- The tokens and the text of the prompt at `j`. -/
def live_decoded (j : Nat) : Nat × String :=
  decoded_row env (live_inputs env batch worker).width ((live_outputs env batch worker).getD j [])

/-- The answer to a request that is generated in place `j`. -/
def generated (j : Nat) (r : InferenceRequest) : Entry :=
  let live_length := (live env batch worker).length
  let total_tokens := ((List.range live_length).map fun j => (live_decoded env batch worker j).1).sum
  generation_result env batch worker live_length total_tokens (input_len env batch worker j)
    (live_decoded env batch worker j) r

/-- The entry of the request at `i`, if nothing is raised. -/
def expected (i : Nat) (r : InferenceRequest) : Entry :=
  if dropped env worker r then expiry env batch worker.worker_id r
  else generated env batch worker (live_index env batch worker i) r

end Expected

section Returned

variable {s s' : Frame}

/-- An element that is taken is there. -/
theorem returns_item {α : Type} {l : List α} {i : Nat} {x : α} :
    Returns (item l i) s x s' ↔ l[i]? = some x ∧ s' = s := by
  unfold item
  cases l[i]? with
  | none => simp
  | some y =>
      rw [returns_pure, Option.some.injEq]
      exact and_congr_left fun _ => eq_comm

/-- A point that is got over. -/
theorem returns_reach_bind {α : Type} {p : Point} {rest : PUnit → Call α} {a : α}
    (h : Returns (reach env p >>= rest) s a s') : Returns (rest PUnit.unit) s a s' := by
  obtain ⟨_, t, hReach, h⟩ := returns_bind.mp h
  rwa [returns_reach hReach] at h

/-- The loop keeps the requests that are in time, and answers the others. -/
theorem returns_check_deadlines {margin : ℚ} {i : Nat} {requests kept : List InferenceRequest}
    (h : Returns (check_deadlines env batch margin i requests) s kept s') :
    kept = requests.filter (fun r => !late env margin r) ∧ s'.worker = s.worker ∧
      s'.requests = s.requests ∧ (∀ k < i, s'.expired.find k = s.expired.find k) ∧
      ∀ k r, requests[k]? = some r → s'.expired.find (i + k) =
        if late env margin r then some (expiry env batch s.worker.worker_id r)
        else s.expired.find (i + k) := by
  induction requests generalizing i s kept with
  | nil =>
      obtain ⟨rfl, rfl⟩ := returns_pure.mp h
      exact ⟨rfl, rfl, rfl, fun _ _ => rfl, fun _ _ hr => nomatch hr⟩
  | cons r rest ih =>
      have h := returns_reach_bind h
      split at h
      · rename_i hLate
        obtain ⟨hKept, hWorker, hRequests, hBefore, hFrom⟩ := ih (returns_modify_bind h)
        refine ⟨?_, hWorker, hRequests, fun k hk => ?_, fun k x hx => ?_⟩
        · rw [hKept, List.filter_cons_of_neg (by simp [hLate])]
        · rw [hBefore k (by omega), OrderedDict.find_set, if_neg (by omega)]
        · cases k with
          | zero =>
              cases hx
              rw [hBefore (i + 0) (by omega), OrderedDict.find_set, if_pos (Nat.add_zero i),
                if_pos hLate]
          | succ k =>
              have hPlace : i + (k + 1) = i + 1 + k := by omega
              have hOther : i + 1 + k ≠ i := by omega
              rw [hPlace, hFrom k x hx, OrderedDict.find_set, if_neg hOther]
      · rename_i hInTime
        obtain ⟨kept', t, hRest, h⟩ := returns_bind.mp h
        obtain ⟨rfl, rfl⟩ := returns_pure.mp h
        obtain ⟨hKept, hWorker, hRequests, hBefore, hFrom⟩ := ih hRest
        refine ⟨?_, hWorker, hRequests, fun k hk => hBefore k (by omega), fun k x hx => ?_⟩
        · rw [hKept, List.filter_cons_of_pos (by simp [hInTime])]
        · cases k with
          | zero =>
              cases hx
              rw [hBefore (i + 0) (by omega), if_neg hInTime]
          | succ k =>
              have hPlace : i + (k + 1) = i + 1 + k := by omega
              rw [hPlace]
              exact hFrom k x hx

/-- Nobody is in the dictionary, so nobody was dropped. -/
theorem not_dropped_of_keys
    (hExpired : ∀ i r, batch.requests[i]? = some r → s.expired.find i =
      if dropped env worker r then some (expiry env batch worker.worker_id r) else none)
    (hKeys : s.expired.keys = []) : ∀ r ∈ batch.requests, dropped env worker r = false := by
  intro r hr
  obtain ⟨i, hi⟩ := List.mem_iff_getElem?.mp hr
  have hEach := hExpired i r hi
  by_contra hDropped
  rw [if_pos (by simpa using hDropped)] at hEach
  have hKey := (s.expired.mem_keys i).mpr (by rw [hEach]; rfl)
  rw [hKeys] at hKey
  exact List.not_mem_nil hKey

/-- The batch as it is when the deadlines have been looked at and some requests are left: the live
ones in their order, and an expiry for each one that was dropped. -/
structure Pruned (env : Env) (batch : Batch) (worker : Worker) (s : Frame) : Prop where
  worker_eq : s.worker = worker
  requests : s.requests = live env batch worker
  expired : ∀ i r, batch.requests[i]? = some r → s.expired.find i =
    if dropped env worker r then some (expiry env batch worker.worker_id r) else none

/-- The entry of an expired request is there. -/
theorem returns_expired_item {i : Nat} {entry : Entry} :
    Returns (expired_item i) s entry s' ↔ s.expired.find i = some entry ∧ s' = s := by
  unfold expired_item
  constructor
  · intro h
    have hMatch := returns_get_bind h
    split at hMatch
    · rename_i found hFound
      obtain ⟨rfl, rfl⟩ := returns_pure.mp hMatch
      exact ⟨hFound, rfl⟩
    · exact absurd hMatch not_returns_throw
  · rintro ⟨hFound, rfl⟩
    refine returns_bind.mpr ⟨s', s', returns_get.mpr ⟨rfl, rfl⟩, ?_⟩
    rw [hFound]
    exact returns_pure.mpr ⟨rfl, rfl⟩

/-- Without a deadline nobody is dropped. -/
theorem not_dropped (hAny : batch.requests.any (·.slo_deadline_wall.isSome) = false)
    {r : InferenceRequest} (hr : r ∈ batch.requests) : dropped env worker r = false := by
  have hNone := List.any_eq_false.mp hAny r hr
  unfold dropped late
  cases hDeadline : r.slo_deadline_wall with
  | none => rfl
  | some deadline => exact absurd (by rw [hDeadline]; rfl) hNone

/-- If no request is past its deadline all of them are live. -/
theorem live_eq_self (hNone : ∀ r ∈ batch.requests, dropped env worker r = false) :
    live env batch worker = batch.requests :=
  List.filter_eq_self.mpr fun r hr => by rw [hNone r hr]; rfl

/-- A reply with the entries that are expected, in place. -/
structure Positional (env : Env) (batch : Batch) (worker : Worker) (reply : List Entry) : Prop where
  length : reply.length = batch.requests.length
  entry : ∀ i r, batch.requests[i]? = some r →
    reply[i]? = some (expected env batch worker i r)

/-- The reply to a batch of which no request is left. -/
theorem positional_of_none_live (hNone : live env batch worker = []) {reply : List Entry}
    (hExpired : ∀ i r, batch.requests[i]? = some r → s.expired.find i =
      if dropped env worker r then some (expiry env batch worker.worker_id r) else none)
    (h : Returns ((List.range batch.requests.length).mapM expired_item) s reply s') :
    Positional env batch worker reply := by
  have hEach : ∀ i entry t, Returns (expired_item i) s entry t →
      entry = (s.expired.find i).getD (.failed "") ∧ t = s := by
    intro i entry t hItem
    obtain ⟨hFound, hSame⟩ := returns_expired_item.mp hItem
    rw [hFound]
    exact ⟨rfl, hSame⟩
  obtain ⟨rfl, -⟩ := returns_mapM hEach h
  constructor
  · rw [List.length_map, List.length_range]
  · intro i r hr
    obtain ⟨hLess, -⟩ := List.getElem?_eq_some_iff.mp hr
    have hDropped : dropped env worker r = true := by
      have hNot := List.filter_eq_nil_iff.mp hNone r (List.mem_of_getElem? hr)
      simpa using hNot
    rw [List.getElem?_map, List.getElem?_range hLess, Option.map_some, hExpired i r hr,
      if_pos hDropped, expected, if_pos hDropped]
    rfl

/-- What the pruning leaves: the live requests under their new indices and the entries of the
others; or the reply, if nobody is left. -/
theorem returns_prune {reply : Option (List Entry)} (hWorker : s.worker = worker)
    (hRequests : s.requests = batch.requests) (hExpired : s.expired = ∅)
    (hPrune : Returns (prune env batch) s reply s') :
    (reply = none ∧ Pruned env batch worker s') ∨
      ∃ entries, reply = some entries ∧ Positional env batch worker entries := by
  unfold prune at hPrune
  split at hPrune
  · have hChecked := returns_get_bind (returns_reach_bind hPrune)
    obtain ⟨kept, u, hCheck, hReply⟩ := returns_bind.mp hChecked
    obtain ⟨hKept, hWorker', hRequests', -, hFrom⟩ := returns_check_deadlines hCheck
    have hLive : kept = live env batch worker := by
      rw [hKept, hWorker]
      rfl
    have hFound : ∀ i r, batch.requests[i]? = some r → u.expired.find i =
        if dropped env worker r then some (expiry env batch worker.worker_id r) else none := by
      intro i r hr
      have hEach := hFrom i r hr
      rw [Nat.zero_add, hExpired, OrderedDict.find_empty, hWorker] at hEach
      exact hEach
    split at hReply
    · rename_i hNone
      obtain ⟨entries, v, hLoop, hPure⟩ := returns_bind.mp (returns_reach_bind hReply)
      obtain ⟨rfl, -⟩ := returns_pure.mp hPure
      exact .inr ⟨entries, rfl, positional_of_none_live (hLive ▸ hNone) hFound hLoop⟩
    · have hLeft := returns_get_bind hReply
      split at hLeft
      · rename_i hKeys
        obtain ⟨rfl, rfl⟩ := returns_pure.mp hLeft
        have hNobody := not_dropped_of_keys hFound hKeys
        refine .inl ⟨rfl, hWorker'.trans hWorker, ?_, hFound⟩
        rw [hRequests', hRequests, live_eq_self hNobody]
      · have hModify := returns_reach_bind hLeft
        have hPure := returns_modify_bind hModify
        obtain ⟨rfl, rfl⟩ := returns_pure.mp hPure
        exact .inl ⟨rfl, hWorker'.trans hWorker, hLive, hFound⟩
  · rename_i hAny
    obtain ⟨rfl, rfl⟩ := returns_pure.mp hPrune
    have hNobody : ∀ r ∈ batch.requests, dropped env worker r = false :=
      fun r hr => not_dropped (by simpa using hAny) hr
    refine .inl ⟨rfl, hWorker, hRequests.trans (live_eq_self hNobody).symm, fun i r hr => ?_⟩
    rw [hExpired, OrderedDict.find_empty, if_neg (by simp [hNobody r (List.mem_of_getElem? hr)])]

/-- An element that is there is not the default. -/
theorem getD_eq_of_getElem? {α : Type} {l : List α} {i : Nat} {x d : α} (h : l[i]? = some x) :
    x = l.getD i d := by
  rw [List.getD_eq_getElem?_getD, h, Option.getD_some]

/-- What the model is run on, and what comes of it. -/
theorem returns_run_model {input_lens : List Nat} {outputs : List (List Nat)}
    (hRun : Returns (run_model env (live env batch worker) batch.max_tokens) s
      (input_lens, outputs) s') :
    input_lens = (List.range (live env batch worker).length).map (input_len env batch worker) ∧
      outputs = live_outputs env batch worker ∧ s' = s := by
  obtain ⟨lens, t, hLoop, hRest⟩ := returns_bind.mp (returns_reach_bind hRun)
  have hEach : ∀ i n u, Returns (do
      reach env (.input_len i)
      let mask ← item (live_inputs env batch worker).attention_mask i
      pure (mask.count 1)) s n u → n = input_len env batch worker i ∧ u = s := by
    intro i n u hTurn
    obtain ⟨mask, v, hItem, hPure⟩ := returns_bind.mp (returns_reach_bind hTurn)
    obtain ⟨hMask, hSame⟩ := returns_item.mp hItem
    obtain ⟨rfl, rfl⟩ := returns_pure.mp hPure
    rw [getD_eq_of_getElem? hMask]
    exact ⟨rfl, hSame⟩
  obtain ⟨hLens, rfl⟩ := returns_mapM hEach hLoop
  obtain ⟨longest, u, hLongest, hGenerate⟩ := returns_bind.mp hRest
  have hGenerated := returns_reach_bind hGenerate
  have hOutputs := returns_reach_bind hGenerated
  have hPure := returns_reach_bind hOutputs
  obtain ⟨hSame, rfl⟩ := returns_pure.mp hPure
  obtain ⟨rfl, rfl⟩ := Prod.mk.inj hSame
  unfold largest at hLongest
  split at hLongest
  · rename_i n hMax
    obtain ⟨rfl, rfl⟩ := returns_pure.mp hLongest
    refine ⟨hLens, ?_, rfl⟩
    unfold live_outputs
    rw [← hLens, hMax]
    rfl
  · exact absurd hLongest not_returns_throw

/-- The results are those of the live requests, in their order. -/
theorem returns_build_results {results : List Entry} (hPruned : Pruned env batch worker s)
    (hBuild : Returns (build_results env batch
      ((List.range (live env batch worker).length).map (input_len env batch worker))
      (live_outputs env batch worker)) s results s') :
    results.length = (live env batch worker).length ∧
      (∀ j r, (live env batch worker)[j]? = some r →
        results[j]? = some (generated env batch worker j r)) ∧ s' = s := by
  have hPasses := returns_get_bind hBuild
  rw [hPruned.requests, hPruned.worker_eq] at hPasses
  obtain ⟨decoded, u, hDecode, hSecond⟩ := returns_bind.mp hPasses
  have hRows : ∀ i x v, Returns (do
      reach env (.decode i)
      let row ← item (live_outputs env batch worker) i
      pure (decoded_row env (live_inputs env batch worker).width row)) s x v →
        x = live_decoded env batch worker i ∧ v = s := by
    intro i x v hTurn
    obtain ⟨row, w, hItem, hPure⟩ := returns_bind.mp (returns_reach_bind hTurn)
    obtain ⟨hRow, hSame⟩ := returns_item.mp hItem
    obtain ⟨rfl, rfl⟩ := returns_pure.mp hPure
    rw [getD_eq_of_getElem? hRow]
    exact ⟨rfl, hSame⟩
  obtain ⟨rfl, rfl⟩ := returns_mapM hRows hDecode
  have hTotal : (((List.range (live env batch worker).length).map
      (live_decoded env batch worker)).map (·.1)).sum =
        ((List.range (live env batch worker).length).map fun j =>
          (live_decoded env batch worker j).1).sum := by
    rw [List.map_map]
    rfl
  rw [hTotal] at hSecond
  have hAnswers : ∀ i x v, Returns (do
      reach env (.result i)
      let input_len ← item ((List.range (live env batch worker).length).map
        (input_len env batch worker)) i
      let row ← item ((List.range (live env batch worker).length).map
        (live_decoded env batch worker)) i
      let req ← item (live env batch worker) i
      pure (generation_result env batch worker (live env batch worker).length
        ((List.range (live env batch worker).length).map fun j =>
          (live_decoded env batch worker j).1).sum input_len row req)) u x v →
        x = (((live env batch worker)[i]?).map (generated env batch worker i)).getD
          (.failed "") ∧ v = u := by
    intro i x v hTurn
    obtain ⟨len, w, hItem, hNext⟩ := returns_bind.mp (returns_reach_bind hTurn)
    obtain ⟨hLen, rfl⟩ := returns_item.mp hItem
    obtain ⟨row, w', hItem', hNext'⟩ := returns_bind.mp hNext
    obtain ⟨hRow, rfl⟩ := returns_item.mp hItem'
    obtain ⟨req, w, hItem'', hPure⟩ := returns_bind.mp hNext'
    obtain ⟨hReq, rfl⟩ := returns_item.mp hItem''
    obtain ⟨rfl, rfl⟩ := returns_pure.mp hPure
    obtain ⟨hLess, -⟩ := List.getElem?_eq_some_iff.mp hReq
    rw [List.getElem?_map, List.getElem?_range hLess, Option.map_some,
      Option.some.injEq] at hLen hRow
    rw [hReq, ← hLen, ← hRow]
    exact ⟨rfl, rfl⟩
  obtain ⟨rfl, rfl⟩ := returns_mapM hAnswers (returns_reach_bind hSecond)
  refine ⟨by rw [List.length_map, List.length_range], fun j r hr => ?_, rfl⟩
  obtain ⟨hLess, -⟩ := List.getElem?_eq_some_iff.mp hr
  rw [List.getElem?_map, List.getElem?_range hLess, Option.map_some, hr]
  rfl

/-- The loop that merges, over the indices from `i` on. -/
theorem returns_merge {expired : OrderedDict Nat Entry} {i : Nat}
    {requests : List InferenceRequest} {p : InferenceRequest → Bool}
    {answer : InferenceRequest → Entry} {live_iter merged : List Entry}
    (hExpired : ∀ k r, requests[k]? = some r →
      expired.find (i + k) = if p r then some (answer r) else none)
    (h : Returns (merge expired (List.range' i requests.length) live_iter) s merged s') :
    merged.length = requests.length ∧ (∀ k r, requests[k]? = some r → merged[k]? =
      if p r then some (answer r) else live_iter[(requests.take k).countP (!p ·)]?) ∧ s' = s := by
  induction requests generalizing i live_iter merged with
  | nil =>
      obtain ⟨rfl, rfl⟩ := returns_pure.mp h
      exact ⟨rfl, fun _ _ hr => absurd hr (by simp), rfl⟩
  | cons r rest ih =>
      have hFirst := hExpired 0 r rfl
      have hRest : ∀ k x, rest[k]? = some x →
          expired.find (i + 1 + k) = if p x then some (answer x) else none := by
        intro k x hx
        have hPlace : i + 1 + k = i + (k + 1) := by omega
        rw [hPlace]
        exact hExpired (k + 1) x hx
      rw [Nat.add_zero] at hFirst
      rw [List.length_cons, List.range'_succ] at h
      unfold merge at h
      by_cases hp : p r = true
      · rw [if_pos hp] at hFirst
        rw [hFirst] at h
        obtain ⟨tail, t, hTail, hPure⟩ := returns_bind.mp h
        obtain ⟨rfl, rfl⟩ := returns_pure.mp hPure
        obtain ⟨hLength, hEntry, hSame⟩ := ih hRest hTail
        refine ⟨congrArg (· + 1) hLength, fun k x hx => ?_, hSame⟩
        cases k with
        | zero =>
            cases hx
            rw [if_pos hp]
            rfl
        | succ k =>
            rw [List.getElem?_cons_succ, hEntry k x hx, List.take_succ_cons,
              List.countP_cons_of_neg (by simp [hp])]
      · rw [if_neg hp] at hFirst
        rw [hFirst] at h
        cases live_iter with
        | nil => exact absurd h not_returns_throw
        | cons result live_iter =>
            obtain ⟨tail, t, hTail, hPure⟩ := returns_bind.mp h
            obtain ⟨rfl, rfl⟩ := returns_pure.mp hPure
            obtain ⟨hLength, hEntry, hSame⟩ := ih hRest hTail
            refine ⟨congrArg (· + 1) hLength, fun k x hx => ?_, hSame⟩
            cases k with
            | zero =>
                cases hx
                rw [if_neg hp]
                rfl
            | succ k =>
                rw [List.getElem?_cons_succ, hEntry k x hx, List.take_succ_cons,
                  List.countP_cons_of_pos (by simp [hp])]
                rfl

/-- The entry of a request that is generated is its own, at its place among those that are. -/
theorem generated_in_place {results : List Entry}
    (hResults : ∀ j r, (live env batch worker)[j]? = some r →
      results[j]? = some (generated env batch worker j r))
    {i : Nat} {r : InferenceRequest} (hr : batch.requests[i]? = some r)
    (hKept : dropped env worker r = false) :
    results[live_index env batch worker i]? = some (expected env batch worker i r) := by
  have hPlace : (live env batch worker)[live_index env batch worker i]? = some r :=
    getElem?_filter_countP hr (by rw [hKept]; rfl)
  rw [hResults _ r hPlace, expected, if_neg (by simp [hKept])]

/-- The answer has for each request the result, or the entry, at its place. -/
theorem returns_answer {reply : List Entry} (hPruned : Pruned env batch worker s)
    (hAnswer : Returns (answer env batch
      ((List.range (live env batch worker).length).map (input_len env batch worker))
      (live_outputs env batch worker)) s reply s') : Positional env batch worker reply := by
  obtain ⟨results, t, hBuild, hRest⟩ := returns_bind.mp hAnswer
  obtain ⟨hLength, hResults, rfl⟩ := returns_build_results hPruned hBuild
  have hModify := returns_reach_bind hRest
  have hLogged := returns_modify_bind hModify
  have hGet := returns_reach_bind hLogged
  have hMerged := returns_get_bind hGet
  split at hMerged
  · rename_i hKeys
    obtain ⟨rfl, -⟩ := returns_pure.mp hMerged
    have hNobody := not_dropped_of_keys hPruned.expired hKeys
    refine ⟨hLength.trans (congrArg List.length (live_eq_self hNobody)), fun i r hr => ?_⟩
    have hPlace : live_index env batch worker i = i := by
      obtain ⟨hLess, -⟩ := List.getElem?_eq_some_iff.mp hr
      have hAll : ∀ x ∈ batch.requests.take i, (!dropped env worker x) = true :=
        fun x hx => by rw [hNobody x (List.mem_of_mem_take hx)]; rfl
      rw [live_index, List.countP_eq_length.mpr hAll, List.length_take, min_eq_left hLess.le]
    have hOwn := generated_in_place hResults hr (hNobody r (List.mem_of_getElem? hr))
    rwa [hPlace] at hOwn
  · have hLoop := returns_reach_bind hMerged
    obtain ⟨merged, u, hMerge, hLast⟩ := returns_bind.mp hLoop
    have hPure := returns_modify_bind hLast
    obtain ⟨rfl, -⟩ := returns_pure.mp hPure
    rw [List.range_eq_range'] at hMerge
    obtain ⟨hCount, hEntry, -⟩ := returns_merge
      (fun k r hr => (Nat.zero_add k).symm ▸ hPruned.expired k r hr) hMerge
    refine ⟨hCount, fun i r hr => ?_⟩
    rw [hEntry i r hr]
    by_cases hDropped : dropped env worker r = true
    · rw [if_pos hDropped, expected, if_pos hDropped]
    · rw [if_neg hDropped]
      exact generated_in_place hResults hr (by simpa using hDropped)

/-- A reply that is returned is positional. -/
theorem positional_of_returns {reply : List Entry}
    (h : Returns (process env batch) (start batch worker) reply s) :
    Positional env batch worker reply := by
  have hTokens := returns_reach_bind h
  have hLog := returns_reach_bind hTokens
  have hLock := returns_reach_bind hLog
  have hClock := returns_reach_bind hLock
  have hModify := returns_reach_bind hClock
  have hCopy := returns_modify_bind hModify
  obtain ⟨left, t, hPrune, hRest⟩ := returns_bind.mp hCopy
  rcases returns_prune rfl rfl rfl hPrune with ⟨rfl, hPruned⟩ | ⟨entries, rfl, hPositional⟩
  · have hModel := returns_get_bind hRest
    rw [hPruned.requests] at hModel
    obtain ⟨⟨input_lens, outputs⟩, u, hRun, hAnswer⟩ := returns_bind.mp hModel
    obtain ⟨rfl, rfl, rfl⟩ := returns_run_model hRun
    exact returns_answer hPruned hAnswer
  · obtain ⟨rfl, -⟩ := returns_pure.mp hRest
    exact hPositional

end Returned

section Reply

variable (env batch worker)

/-- Every request of the batch has one entry. If nothing is raised, it is the expiry of the request
if that was dropped, and else what was generated for its own prompt; if something is raised, every
entry is the error of the batch. -/
theorem replies_positional :
    (process_batch env batch worker).length = batch.requests.length ∧
      (∀ e, exception env batch worker = some e →
        ∀ entry ∈ process_batch env batch worker, entry = .failed e) ∧
      (exception env batch worker = none → ∀ i r, batch.requests[i]? = some r →
        (process_batch env batch worker)[i]? = some
          (if dropped env worker r then expiry env batch worker.worker_id r
          else generated env batch worker (live_index env batch worker i) r) ∧
        (dropped env worker r = false →
          (live env batch worker)[live_index env batch worker i]? = some r)) := by
  unfold process_batch exception
  cases hRun : process env batch (start batch worker) with
  | ok reply s =>
      have hPositional := positional_of_returns hRun
      refine ⟨hPositional.length, fun e he => ?_, fun _ i r hr => ?_⟩
      · cases he
      · refine ⟨hPositional.entry i r hr, fun hKept => ?_⟩
        exact getElem?_filter_countP hr (by rw [hKept]; rfl)
  | error e s =>
      have hCounted := counted_of_raises hRun
      refine ⟨List.length_replicate.trans hCounted, fun e' he entry hEntry => ?_,
        fun hNone => ?_⟩
      · cases he
        exact List.eq_of_mem_replicate hEntry
      · cases hNone

end Reply

/-- Surroundings in which the model raises. -/
def out_of_memory : Env where
  raises
    | .generate => some "CUDA out of memory"
    | _ => none
  slo_s := 6
  t_admit := 10
  now := 10
  tokenizer prompts := { attention_mask := prompts.map fun _ => [1], width := 1 }
  generate _ _ := []
  pad_token_id := 0
  decode _ := ""
  ttft_timer := { t_first_token := none, t_first_token_perf := none }
  t_gen_start := 10
  t_gen_end := 11
  t_computed_wall := 11
  t_gen_end_wall := 11

/-- The first of two requests is past its deadline and is dropped; the model then raises for the
other one. The reply says of both that the model has failed. -/
theorem dropped_request_fails_with_batch :
    ∃ (env : Env) (batch : Batch) (worker : Worker) (i : Nat) (r : InferenceRequest),
      batch.requests[i]? = some r ∧ dropped env worker r = true ∧
        (process_batch env batch worker)[i]? ≠ some (expiry env batch worker.worker_id r) := by
  let late_request : InferenceRequest :=
    { prompt := "a", max_tokens := 8, arrival_time_wall := 1, slo_deadline_wall := some 7 }
  let live_request : InferenceRequest :=
    { prompt := "b", max_tokens := 8, arrival_time_wall := 9, slo_deadline_wall := some 15 }
  refine ⟨out_of_memory,
    { batch_id := "f_batch_1", requests := [late_request, live_request]
      dispatch_time_wall := none },
    { worker_id := 0, is_cold := false, post_admit_s := 0, post_admit_n := 0 }, 0, late_request,
    rfl, ?_, ?_⟩
  · decide +kernel
  · decide +kernel

end Serverless.Replies
