import SwarmLoRA.Slora.Books

namespace Slora

open Data

namespace Setup

variable {σ V : Type} (setup : Setup σ V)

/-- The rank of an adapter that is served. -/
def rank (dir : String) : Nat := (setup.lora_ranks (some dir)).getD 0

/-- How many cells there are. -/
def tot_size : Nat := setup.limits.max_total_tokens + setup.pool_size_lora

/-- How many tokens some requests may hold, their adapters set aside. -/
def budget (reqs : List Req) : Int :=
  setup.limits.max_total_tokens - adapter_cells setup.lora_ranks reqs - 1

/-- What the server is assumed to be started with: a queue that hands over what the router may rely
on, as `ReqQueue` does, and adapters whose ranks are known, have four rows of weights for each rank,
and are copied whole when the table of the adapters is packed again (`WellBlocked`). -/
structure Valid (Inv : σ → Prop) : Prop where
  lawful : setup.scheduler.Lawful setup.limits Inv
  offers : ModelRpcServer.Offers setup.rank setup.weights setup.adapters

end Setup

namespace RouterManager

section

variable {σ V : Type} (setup : Setup σ V) (Inv : σ → Prop) (self : RouterManager σ V)

/-- The requests of the running batch. -/
def running : List Req := running_reqs self.running_batch

/-- The requests of the batch that is to join it. -/
def joining : List Req := running_reqs self.new_mini_batch

/-- The requests in the queue. -/
def waiting : List Req := setup.scheduler.waiting_req_list self.req_queue

/-- The requests that have not been answered. -/
def present : List Req := self.running ++ self.joining ++ self.waiting setup

/-- The batch that goes on beside the one that is being prefilled. -/
def beside : Option Batch :=
  match self.new_mini_batch with
  | some _ => self.running_batch
  | none => none

/-- What the worker has of a batch that has been run. -/
def view (batch : Batch) : View := ⟨batch.batch_id, true, batch.reqs.map Req.text⟩

/-- What the worker is to have of a batch. -/
def views (batch : Option Batch) : List View := (batch.map view).toList

/-- The adapter is one that the server offers. -/
def Served (dir : String) : Prop := ∃ adapter ∈ setup.adapters, adapter.lora_dir = dir

/-- What holds before every call: where the requests are, what the worker has, and that ids of
batches are used once. -/
structure Base (router : RouterManager σ V) : Prop where
  books : Books setup router.received router.abort_ids router.sent (router.present setup)
  fresh : ∀ req ∈ router.waiting setup, req.output_ids = []
  queue : Inv router.req_queue
  sound : router.worker.Sound setup.model setup.rank setup.weights setup.tot_size
  running_id : ∀ batch, router.running_batch = some batch → batch.batch_id < router.next_batch_id
  joining_id : ∀ batch, router.new_mini_batch = some batch → batch.batch_id < router.next_batch_id ∧
    ∃ other, router.running_batch = some other ∧ other.batch_id ≠ batch.batch_id
  served : ∀ dir ∈ router.worker.infer_adapter.adapter_dirs, Served setup dir

/-- No batch is being prefilled, and all the requests of the running one go on. -/
structure Rest (router : RouterManager σ V) : Prop where
  alone : router.new_mini_batch = none
  serves : router.worker.Serves (views router.running_batch)
  ready : router.worker.Ready (router.running.map (·.text))
  unfinished : Unfinished router.running
  some_req : ∀ batch, router.running_batch = some batch → batch.reqs ≠ []
  within : ∀ batch, router.running_batch = some batch →
    Peak.Within (batch.reqs.map (·.running_len)) (setup.budget batch.reqs)

/-- A batch is being prefilled. The worker has it as `own`, and `jobs` tells how much room its
requests take. -/
structure Incoming (new : Batch) (own : List View) (loaded : Bool) (jobs : List Peak.Job)
    (router : RouterManager σ V) : Prop where
  incoming : router.incoming = some new
  serves : router.worker.Serves (own ++ views router.beside)
  ready_old : router.worker.Ready ((running_reqs router.beside).map (·.text))
  ready_new : loaded = true → router.worker.Ready (new.reqs.map (·.text))
  unfinished_old : Unfinished (running_reqs router.beside)
  some_old : ∀ batch, router.beside = some batch → batch.reqs ≠ []
  within : Peak.Within ((running_reqs router.beside).map (·.running_len) ++ jobs)
    (setup.budget (running_reqs router.beside ++ new.reqs))

/-- The requests of the new batch have come from the queue. -/
structure Fresh (new : Batch) : Prop where
  some_req : new.reqs ≠ []
  no_output : ∀ req ∈ new.reqs, req.output_ids = []

/-- Some requests have left the batch, and the worker still has them. The next call is to tell the
worker. -/
structure Leaving (new : Batch) (router : RouterManager σ V) : Prop where
  goes : ∃ all, (new.reqs.map (·.text)).Sublist all ∧
    router.Incoming setup new [⟨new.batch_id, true, all⟩] true (new.reqs.map (·.running_len))
  unfinished : Unfinished new.reqs

/-- What else holds before a call. -/
def Stage : Prop :=
  match self.pc with
  | .top => self.Rest setup
  | .load => ∃ new, Fresh new ∧ self.Incoming setup new [] false (new.reqs.map (·.new_len))
  | .init => ∃ new, Fresh new ∧ self.Incoming setup new [] true (new.reqs.map (·.new_len))
  | .prefill => ∃ new, Fresh new ∧
      self.Incoming setup new [⟨new.batch_id, false, new.reqs.map (·.text)⟩] true
        (new.reqs.map (·.new_len))
  | .settle => ∃ new, self.Leaving setup new
  | .merge => ∃ new, self.new_mini_batch = some new ∧ new.reqs ≠ [] ∧ Unfinished new.reqs ∧
      self.Incoming setup new [view new] true (new.reqs.map (·.running_len))
  | .prefetch adapter_dirs => self.Rest setup ∧ self.running_batch.isSome = true ∧
      adapter_dirs.Nodup ∧ ∀ dir, some dir ∈ adapter_dirs → Served setup dir
  | .decode _ => self.Rest setup ∧ self.running_batch.isSome = true
  | .offload _ => self.new_mini_batch = none ∧ ∃ new, self.Leaving setup new
  | .settle_running _ => self.new_mini_batch = none ∧ ∃ new, self.Leaving setup new
  | .offload_all _ => self.new_mini_batch = none ∧ self.worker.Serves [] ∧
      ∃ batch, self.running_batch = some batch ∧ batch.reqs = []
  | .dead => True

/-- What may come in: requests with an id that is new, an adapter that is served, a prompt, and at
least one token to generate, and aborts of any id. The HTTP server lets more through: requests
without an adapter or with one that is not served, and ids that a client has used before. Runs with
these are left out. -/
def Proper : Event → Prop
  | .step => True
  | .add_req adapter_dir prompt_ids sampling_params request_id =>
      request_id ∉ self.received.map (·.request_id) ∧
        Taken setup (Req.new adapter_dir prompt_ids sampling_params request_id)
  | .abort _ => True

end

variable {σ V : Type} {setup : Setup σ V} {Inv : σ → Prop} {self self' : RouterManager σ V}
  {reqs others : List Req} {request_id : String} {batch new : Batch} {current : Option Batch}

/-! ### Marks do not matter -/

section Abort

/-- An abort leaves what does not depend on the flag. -/
theorem map_abort_in {β : Type} (f : Req → β) (hSame : ∀ req, f req.abort = f req) :
    (abort_in request_id reqs).map f = reqs.map f := by
  rw [abort_in, List.map_map]
  refine List.map_congr_left fun req _ => ?_
  by_cases h : req.request_id = request_id
  · simp [h, hSame]
  · simp [h]

@[simp] theorem abort_in_text : (abort_in request_id reqs).map Req.text = reqs.map Req.text :=
  map_abort_in _ fun _ => rfl

@[simp] theorem abort_in_running_len :
    (abort_in request_id reqs).map Req.running_len = reqs.map Req.running_len :=
  map_abort_in _ fun _ => rfl

@[simp] theorem abort_in_new_len :
    (abort_in request_id reqs).map Req.new_len = reqs.map Req.new_len :=
  map_abort_in _ fun _ => rfl

@[simp] theorem abort_in_eq_nil : abort_in request_id reqs = [] ↔ reqs = [] := List.map_eq_nil_iff

/-- An abort leaves what does not depend on the flag, request by request. -/
theorem forall_abort_in {P : Req → Prop} (hSame : ∀ req, P req.abort ↔ P req) :
    (∀ req ∈ abort_in request_id reqs, P req) ↔ ∀ req ∈ reqs, P req := by
  rw [abort_in, List.forall_mem_map]
  refine forall₂_congr fun req _ => ?_
  by_cases h : req.request_id = request_id
  · simp [h, hSame]
  · simp [h]

@[simp] theorem unfinished_abort_in : Unfinished (abort_in request_id reqs) ↔ Unfinished reqs :=
  forall_abort_in fun _ => Iff.rfl

@[simp] theorem budget_abort_in_left :
    setup.budget (abort_in request_id reqs ++ others) = setup.budget (reqs ++ others) := by
  rw [Setup.budget, Setup.budget, adapter_cells, adapter_cells, List.map_append, List.map_append,
    map_abort_in (·.adapter_dir) fun _ => rfl]

@[simp] theorem budget_abort_in : setup.budget (abort_in request_id reqs) = setup.budget reqs := by
  rw [← List.append_nil (abort_in request_id reqs), budget_abort_in_left, List.append_nil]

@[simp] theorem running_reqs_abort :
    running_reqs (current.map (·.abort request_id)) =
      abort_in request_id (running_reqs current) := by
  cases current <;> rfl

@[simp] theorem views_abort : views (current.map (·.abort request_id)) = views current := by
  cases current with
  | none => rfl
  | some batch => simp [views, view, Batch.abort]

end Abort

/-! ### What comes in -/

/-- A request that comes in with a new id waits in the queue. -/
theorem Base.add_req {adapter_dir : Option String} {prompt_ids : List Token}
    {sampling_params : SamplingParams} (hValid : setup.Valid Inv) (h : self.Base setup Inv)
    (hFresh : request_id ∉ self.received.map (·.request_id))
    (hTaken : Taken setup (Req.new adapter_dir prompt_ids sampling_params request_id)) :
    (self.add_req setup adapter_dir prompt_ids sampling_params request_id).Base setup Inv := by
  have hWaiting : (self.add_req setup adapter_dir prompt_ids sampling_params request_id).waiting
      setup = self.waiting setup ++ [Req.new adapter_dir prompt_ids sampling_params request_id] :=
    hValid.lawful.waiting_append _ _
  refine ⟨?_, ?_, hValid.lawful.inv_append _ _ h.queue, h.sound, h.running_id, h.joining_id,
    h.served⟩
  · have := h.books.add hFresh hTaken
    rw [present, List.append_assoc] at this
    rw [present, hWaiting]
    exact this
  · rw [hWaiting]
    intro req hReq
    rcases List.mem_append.mp hReq with hReq | hReq
    · exact h.fresh req hReq
    · obtain rfl := List.mem_singleton.mp hReq
      rfl

/-- An abort marks the request wherever it is. -/
theorem Base.abort (hValid : setup.Valid Inv) (h : self.Base setup Inv) (request_id : String) :
    (self.abort setup request_id).Base setup Inv := by
  have hWaiting : (self.abort setup request_id).waiting setup =
      abort_in request_id (self.waiting setup) := hValid.lawful.waiting_abort _ _
  have hRunning : (self.abort setup request_id).running = abort_in request_id self.running :=
    running_reqs_abort
  refine ⟨?_, ?_, hValid.lawful.inv_abort _ _ h.queue, h.sound, ?_, ?_, h.served⟩
  · have hMore : self.abort_ids ⊆ self.abort_ids ++ [request_id] := List.subset_append_left _ _
    have hMem : request_id ∈ self.abort_ids ++ [request_id] := by simp
    have hRun := (h.books.more_aborts hMore)
    rw [RouterManager.present, List.append_assoc] at hRun
    have hTurn : (self.waiting setup ++ (abort_in request_id self.running ++ self.joining)).Perm
        (abort_in request_id self.running ++ (self.joining ++ self.waiting setup)) := by
      rw [← List.append_assoc (abort_in request_id self.running)]
      exact List.perm_append_comm
    refine (((hRun.mark hMem).perm hTurn).mark hMem).perm ?_
    rw [RouterManager.present, hWaiting, hRunning]
    exact List.perm_append_comm
  · rw [hWaiting]
    exact (forall_abort_in fun _ => Iff.rfl).mpr h.fresh
  · intro batch hBatch
    obtain ⟨old, hOld, rfl⟩ := Option.map_eq_some_iff.mp hBatch
    exact h.running_id old hOld
  · intro batch hBatch
    obtain ⟨hId, other, hOther, hApart⟩ := h.joining_id batch hBatch
    exact ⟨hId, other.abort request_id, by simp [RouterManager.abort, hOther], hApart⟩

/-- Between two batches an abort changes nothing of what is known. -/
theorem Rest.abort (h : self.Rest setup) (request_id : String) :
    (self.abort setup request_id).Rest setup := by
  have hRunning : (self.abort setup request_id).running = abort_in request_id self.running :=
    running_reqs_abort
  refine ⟨h.alone, ?_, ?_, ?_, ?_, ?_⟩
  · show self.worker.Serves (views (self.running_batch.map (·.abort request_id)))
    rw [views_abort]
    exact h.serves
  · rw [hRunning, abort_in_text]
    exact h.ready
  · rw [hRunning, unfinished_abort_in]
    exact h.unfinished
  · intro batch hBatch
    obtain ⟨old, hOld, rfl⟩ := Option.map_eq_some_iff.mp hBatch
    exact fun hNone => h.some_req old hOld (abort_in_eq_nil.mp hNone)
  · intro batch hBatch
    obtain ⟨old, hOld, rfl⟩ := Option.map_eq_some_iff.mp hBatch
    rw [Batch.abort, abort_in_running_len, budget_abort_in]
    exact h.within old hOld

/-- The batch that is being prefilled, after an abort: it is marked only where it runs alone. -/
theorem incoming_abort (setup : Setup σ V) (hIncoming : self.incoming = some new)
    (request_id : String) :
    ∃ new', (self.abort setup request_id).incoming = some new' ∧ new'.batch_id = new.batch_id ∧
      (self.new_mini_batch = some new ∧ new' = new ∨
        self.new_mini_batch = none ∧ new' = new.abort request_id) ∧
      (self.abort setup request_id).beside = self.beside.map (·.abort request_id) := by
  unfold incoming at hIncoming
  cases hMini : self.new_mini_batch with
  | some mini_batch =>
      rw [hMini, Option.some_or] at hIncoming
      obtain rfl := Option.some.inj hIncoming
      exact ⟨mini_batch, by simp [incoming, RouterManager.abort, hMini], rfl, .inl ⟨rfl, rfl⟩,
        by simp [beside, RouterManager.abort, hMini]⟩
  | none =>
      rw [hMini, Option.none_or] at hIncoming
      exact ⟨new.abort request_id, by simp [incoming, RouterManager.abort, hMini, hIncoming], rfl,
        .inr ⟨rfl, rfl⟩, by simp [beside, RouterManager.abort, hMini]⟩

/-- The batches differ in marks at most. -/
def Alike (batch batch' : Batch) : Prop :=
  batch' = batch ∨ ∃ request_id, batch' = batch.abort request_id

namespace Alike

variable {batch' : Batch} (h : Alike batch batch')
include h

/-- An aborted batch is the same batch. -/
theorem batch_id : batch'.batch_id = batch.batch_id := by
  rcases h with rfl | ⟨request_id, rfl⟩ <;> rfl

/-- Its requests differ in nothing but the flag. -/
theorem map {β : Type} (f : Req → β) (hSame : ∀ req, f req.abort = f req) :
    batch'.reqs.map f = batch.reqs.map f := by
  rcases h with rfl | ⟨request_id, rfl⟩
  · rfl
  · exact map_abort_in f hSame

/-- An abort finishes no request. -/
theorem unfinished : Unfinished batch'.reqs ↔ Unfinished batch.reqs := by
  rcases h with rfl | ⟨request_id, rfl⟩
  · rfl
  · exact unfinished_abort_in

/-- It takes none away either. -/
theorem eq_nil : batch'.reqs = [] ↔ batch.reqs = [] := by
  rcases h with rfl | ⟨request_id, rfl⟩
  · rfl
  · exact abort_in_eq_nil

/-- A batch that has not been run has still not been run. -/
theorem fresh (hFresh : Fresh batch) : Fresh batch' := by
  refine ⟨fun hNone => hFresh.some_req (h.eq_nil.mp hNone), ?_⟩
  rcases h with rfl | ⟨request_id, rfl⟩
  · exact hFresh.no_output
  · exact (forall_abort_in fun _ => Iff.rfl).mpr hFresh.no_output

/-- It needs as much room as before. -/
theorem budget : setup.budget (others ++ batch'.reqs) = setup.budget (others ++ batch.reqs) := by
  rw [Setup.budget, Setup.budget, adapter_cells, adapter_cells, List.map_append, List.map_append,
    h.map (·.adapter_dir) fun _ => rfl]

end Alike

/-- An abort leaves a batch on its way in what it was, but for a flag. -/
theorem Incoming.abort {own : List View} {loaded : Bool} {jobs : List Peak.Job}
    (h : self.Incoming setup new own loaded jobs) (request_id : String) :
    ∃ new', Alike new new' ∧ (self.new_mini_batch = some new → new' = new) ∧
      (self.abort setup request_id).Incoming setup new' own loaded jobs := by
  obtain ⟨new', hIncoming, -, hCases, hBeside⟩ :=
    incoming_abort setup h.incoming request_id
  have hAlike : Alike new new' := by
    rcases hCases with ⟨-, rfl⟩ | ⟨-, rfl⟩
    · exact .inl rfl
    · exact .inr ⟨request_id, rfl⟩
  refine ⟨new', hAlike, ?_, hIncoming, ?_, ?_, ?_, ?_, ?_, ?_⟩
  · intro hMini
    rcases hCases with ⟨-, rfl⟩ | ⟨hNone, -⟩
    · rfl
    · rw [hMini] at hNone
      cases hNone
  · rw [hBeside, views_abort]
    exact h.serves
  · rw [hBeside, running_reqs_abort, abort_in_text]
    exact h.ready_old
  · rw [hAlike.map Req.text fun _ => rfl]
    exact h.ready_new
  · rw [hBeside, running_reqs_abort, unfinished_abort_in]
    exact h.unfinished_old
  · rw [hBeside]
    intro batch hBatch
    obtain ⟨old, hOld, rfl⟩ := Option.map_eq_some_iff.mp hBatch
    exact fun hNone => h.some_old old hOld (abort_in_eq_nil.mp hNone)
  · rw [hBeside, running_reqs_abort, abort_in_running_len, hAlike.budget, budget_abort_in_left]
    exact h.within

/-- The same goes for a batch that requests are leaving. -/
theorem Leaving.abort (h : self.Leaving setup new) (request_id : String) :
    ∃ new', (self.abort setup request_id).Leaving setup new' := by
  obtain ⟨all, hSub, hIncoming⟩ := h.goes
  obtain ⟨new', hAlike, -, hAbort⟩ := hIncoming.abort request_id
  refine ⟨new', ⟨all, ?_, ?_⟩, hAlike.unfinished.mpr h.unfinished⟩
  · rw [hAlike.map Req.text fun _ => rfl]
    exact hSub
  · rw [hAlike.map Req.running_len fun _ => rfl, hAlike.batch_id]
    exact hAbort

/-- And for every point that the router may be at. -/
theorem Stage.abort (h : self.Stage setup) (request_id : String) :
    (self.abort setup request_id).Stage setup := by
  have hPhase : (self.abort setup request_id).pc = self.pc := rfl
  unfold Stage at h ⊢
  rw [hPhase]
  cases hPc : self.pc with
  | top =>
      simp only [hPc] at h ⊢
      exact h.abort request_id
  | load =>
      simp only [hPc] at h ⊢
      obtain ⟨new, hFresh, hIncoming⟩ := h
      obtain ⟨new', hAlike, -, hAbort⟩ := hIncoming.abort request_id
      refine ⟨new', hAlike.fresh hFresh, ?_⟩
      rw [hAlike.map Req.new_len fun _ => rfl]
      exact hAbort
  | init =>
      simp only [hPc] at h ⊢
      obtain ⟨new, hFresh, hIncoming⟩ := h
      obtain ⟨new', hAlike, -, hAbort⟩ := hIncoming.abort request_id
      refine ⟨new', hAlike.fresh hFresh, ?_⟩
      rw [hAlike.map Req.new_len fun _ => rfl]
      exact hAbort
  | prefill =>
      simp only [hPc] at h ⊢
      obtain ⟨new, hFresh, hIncoming⟩ := h
      obtain ⟨new', hAlike, -, hAbort⟩ := hIncoming.abort request_id
      refine ⟨new', hAlike.fresh hFresh, ?_⟩
      rw [hAlike.map Req.new_len fun _ => rfl, hAlike.map Req.text fun _ => rfl, hAlike.batch_id]
      exact hAbort
  | settle =>
      simp only [hPc] at h ⊢
      obtain ⟨new, hLeaving⟩ := h
      exact hLeaving.abort request_id
  | merge =>
      simp only [hPc] at h ⊢
      obtain ⟨new, hMini, hSome, hUnfinished, hIncoming⟩ := h
      obtain ⟨new', -, hSame, hAbort⟩ := hIncoming.abort request_id
      obtain rfl := hSame hMini
      exact ⟨new', hMini, hSome, hUnfinished, hAbort⟩
  | prefetch adapter_dirs =>
      simp only [hPc] at h ⊢
      obtain ⟨hRest, hSome, hDirs⟩ := h
      exact ⟨hRest.abort request_id, by simpa [RouterManager.abort] using hSome, hDirs⟩
  | decode counted =>
      simp only [hPc] at h ⊢
      obtain ⟨hRest, hSome⟩ := h
      exact ⟨hRest.abort request_id, by simpa [RouterManager.abort] using hSome⟩
  | offload counted =>
      simp only [hPc] at h ⊢
      obtain ⟨hMini, new, hLeaving⟩ := h
      exact ⟨hMini, hLeaving.abort request_id⟩
  | settle_running counted =>
      simp only [hPc] at h ⊢
      obtain ⟨hMini, new, hLeaving⟩ := h
      exact ⟨hMini, hLeaving.abort request_id⟩
  | offload_all has_wait_tokens =>
      simp only [hPc] at h ⊢
      obtain ⟨hMini, hServes, batch, hBatch, hNone⟩ := h
      exact ⟨hMini, hServes, batch.abort request_id, by simp [RouterManager.abort, hBatch],
        abort_in_eq_nil.mpr hNone⟩
  | dead => trivial

/-- The states have the same batches and the same worker. -/
structure SameBatches (router router' : RouterManager σ V) : Prop where
  running_batch : router'.running_batch = router.running_batch
  new_mini_batch : router'.new_mini_batch = router.new_mini_batch
  worker : router'.worker = router.worker

namespace SameBatches

variable (hSame : SameBatches self self')
include hSame

/-- What is known between two batches does not depend on what waits. -/
theorem rest (h : self.Rest setup) : self'.Rest setup := by
  obtain ⟨hRunning, hMini, hWorker⟩ := hSame
  exact ⟨by rw [hMini]; exact h.alone, by rw [hRunning, hWorker]; exact h.serves,
    by rw [running, hRunning, hWorker]; exact h.ready,
    by rw [running, hRunning]; exact h.unfinished, by rw [hRunning]; exact h.some_req,
    by rw [hRunning]; exact h.within⟩

/-- Nor does what is known of a batch on its way in. -/
theorem incoming_batch {own : List View} {loaded : Bool} {jobs : List Peak.Job}
    (h : self.Incoming setup new own loaded jobs) : self'.Incoming setup new own loaded jobs := by
  obtain ⟨hRunning, hMini, hWorker⟩ := hSame
  have hBeside : self'.beside = self.beside := by rw [beside, beside, hRunning, hMini]
  exact ⟨by rw [incoming, hRunning, hMini]; exact h.incoming,
    by rw [hBeside, hWorker]; exact h.serves, by rw [hBeside, hWorker]; exact h.ready_old,
    by rw [hWorker]; exact h.ready_new, by rw [hBeside]; exact h.unfinished_old,
    by rw [hBeside]; exact h.some_old, by rw [hBeside]; exact h.within⟩

/-- Nor of one that requests are leaving. -/
theorem leaving (h : self.Leaving setup new) : self'.Leaving setup new := by
  obtain ⟨all, hSub, hIncoming⟩ := h.goes
  exact ⟨⟨all, hSub, hSame.incoming_batch hIncoming⟩, h.unfinished⟩

/-- Whatever comes in, the router stays at its point. -/
theorem stage (hPc : self'.pc = self.pc) (h : self.Stage setup) : self'.Stage setup := by
  unfold Stage at h ⊢
  rw [hPc]
  cases hPhase : self.pc with
  | top =>
      simp only [hPhase] at h ⊢
      exact hSame.rest h
  | load =>
      simp only [hPhase] at h ⊢
      obtain ⟨new, hFresh, hIncoming⟩ := h
      exact ⟨new, hFresh, hSame.incoming_batch hIncoming⟩
  | init =>
      simp only [hPhase] at h ⊢
      obtain ⟨new, hFresh, hIncoming⟩ := h
      exact ⟨new, hFresh, hSame.incoming_batch hIncoming⟩
  | prefill =>
      simp only [hPhase] at h ⊢
      obtain ⟨new, hFresh, hIncoming⟩ := h
      exact ⟨new, hFresh, hSame.incoming_batch hIncoming⟩
  | settle =>
      simp only [hPhase] at h ⊢
      obtain ⟨new, hLeaving⟩ := h
      exact ⟨new, hSame.leaving hLeaving⟩
  | merge =>
      simp only [hPhase] at h ⊢
      obtain ⟨new, hMini, hSome, hUnfinished, hIncoming⟩ := h
      exact ⟨new, hSame.new_mini_batch.trans hMini, hSome, hUnfinished,
        hSame.incoming_batch hIncoming⟩
  | prefetch adapter_dirs =>
      simp only [hPhase] at h ⊢
      exact ⟨hSame.rest h.1, hSame.running_batch ▸ h.2.1, h.2.2⟩
  | decode counted =>
      simp only [hPhase] at h ⊢
      exact ⟨hSame.rest h.1, hSame.running_batch ▸ h.2⟩
  | offload counted =>
      simp only [hPhase] at h ⊢
      obtain ⟨hMini, new, hLeaving⟩ := h
      exact ⟨hSame.new_mini_batch.trans hMini, new, hSame.leaving hLeaving⟩
  | settle_running counted =>
      simp only [hPhase] at h ⊢
      obtain ⟨hMini, new, hLeaving⟩ := h
      exact ⟨hSame.new_mini_batch.trans hMini, new, hSame.leaving hLeaving⟩
  | offload_all has_wait_tokens =>
      simp only [hPhase] at h ⊢
      obtain ⟨hMini, hServes, batch, hBatch, hNone⟩ := h
      exact ⟨hSame.new_mini_batch.trans hMini, hSame.worker ▸ hServes, batch,
        hSame.running_batch.trans hBatch, hNone⟩
  | dead => trivial

end SameBatches

end RouterManager

end Slora
