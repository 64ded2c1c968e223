import Mathlib.Data.List.Perm.Subperm
import Mathlib.Data.List.Sort
import SwarmLoRA.Data.Peak
import SwarmLoRA.Slora.Request

namespace Slora

open Data

structure Limits where
  max_total_tokens : Nat
  batch_max_tokens : Nat
  running_max_req_size : Nat

/-- The ranks of the adapters that are served. A key that is missing raises. -/
abbrev Ranks := Option String → Option Nat

namespace Req

variable (req : Req)

/-- The entry of a request of the running batch in `cache_len_list`. -/
def running_len : Peak.Job :=
  ⟨req.input_len + req.output_ids.length, req.max_output_len - req.output_ids.length - 1⟩

/-- The entry of a request that is to be added. -/
def new_len : Peak.Job := ⟨req.input_len + 1, req.max_output_len - 1⟩

end Req

/-- What a queue keeps while it puts a batch together: the lengths of the requests with what each
may still grow by, and the adapters with their size. -/
structure Admission where
  cache_len_list : List Peak.Job := []
  adapters : List (Option String) := []
  adapter_size : Nat := 0

namespace Admission

section

variable (self : Admission) (limits : Limits) (lora_ranks : Ranks)

def add_adapter (adapter_dir : Option String) : Option Admission :=
  if self.adapters.contains adapter_dir then some self
  else (lora_ranks adapter_dir).map fun r =>
    { self with
      adapter_size := self.adapter_size + r * 4
      adapters := self.adapters ++ [adapter_dir] }

/-- `_init_cache_list`: the requests of the running batch are entered. -/
def init_cache_list : Admission → List Req → Option Admission
  | self, [] => some self
  | self, req :: reqs =>
      ({ self with cache_len_list := self.cache_len_list ++ [req.running_len] }.add_adapter
        lora_ranks req.adapter_dir).bind fun self => init_cache_list self reqs

/-- The greatest entry of `left_out_len_array * size_array + cum_run_len_array`. -/
def need_max_token_num : Int :=
  ((self.cache_len_list.mapIdx fun i j => Peak.level self.cache_len_list i j).max?).getD 0

/-- Whether the entries fit, the adapters set aside, and are not too many. -/
def fits : Bool :=
  decide (self.need_max_token_num < limits.max_total_tokens - self.adapter_size) &&
    decide (self.cache_len_list.length ≤ limits.running_max_req_size)

/-- `cache_len_list` with a request that is to be added, sorted. -/
def with_req (req : Req) : Admission :=
  { self with
    cache_len_list := (self.cache_len_list ++ [req.new_len]).insertionSort
      fun j j' => j'.left ≤ j.left }

/-- The request is entered even if it does not fit. -/
def can_add_new_req (req : Req) : Option (Bool × Admission) :=
  ((self.with_req req).add_adapter lora_ranks req.adapter_dir).map fun admission =>
    (admission.fits limits, admission)

end

end Admission

/-- What the loop over the waiting requests keeps. -/
structure Scan where
  admission : Admission
  can_run_list : List Req := []
  abort_list : List Req := []
  new_batch_total_tokens : Nat := 0

/-- Aborted requests are passed over, and the first that cannot be added ends the loop. -/
def Scan.run (limits : Limits) (lora_ranks : Ranks) : Scan → List Req → Option Scan
  | scan, [] => some scan
  | scan, req :: reqs =>
      if req.aborted then
        Scan.run limits lora_ranks { scan with abort_list := scan.abort_list ++ [req] } reqs
      else
        (scan.admission.can_add_new_req limits lora_ranks req).bind fun (can_add, admission) =>
          if can_add &&
              decide (scan.new_batch_total_tokens + req.input_len ≤ limits.batch_max_tokens) then
            Scan.run limits lora_ranks
              { scan with
                admission
                can_run_list := scan.can_run_list ++ [req]
                new_batch_total_tokens := scan.new_batch_total_tokens + req.input_len } reqs
          else some { scan with admission }

/-- The cells that the adapters of some requests take up. -/
def adapter_cells (lora_ranks : Ranks) (reqs : List Req) : Nat :=
  ((reqs.map (·.adapter_dir)).dedup.map fun dir => (lora_ranks dir).getD 0 * 4).sum

/-- The requests have a token to generate yet. -/
def Unfinished (reqs : List Req) : Prop := ∀ req ∈ reqs, req.output_ids.length < req.max_output_len

/-- What the jobs of a batch that is running and of the requests that are added to it are. -/
def joined_len (running added : List Req) : List Peak.Job :=
  running.map (·.running_len) ++ added.map (·.new_len)

/-- The requests may be added to a running batch. Whenever the batch goes on from here, what it
holds leaves room for its adapters and for one more. -/
structure Admitted (limits : Limits) (lora_ranks : Ranks) (running added : List Req) : Prop where
  within : Peak.Within (joined_len running added)
    (limits.max_total_tokens - adapter_cells lora_ranks (running ++ added) - 1)
  size : running.length + added.length ≤ limits.running_max_req_size
  tokens : (added.map (·.input_len)).sum ≤ limits.batch_max_tokens

namespace Admission

variable {self self' : Admission} {limits : Limits} {lora_ranks : Ranks}
  {running added : List Req} {req : Req} {jobs cache : List Peak.Job} {job : Peak.Job}
  {dirs : List (Option String)} {dir : Option String}

/-- Some jobs and adapters, and perhaps more, have been entered. An aborted request may have been
entered and left out after all. -/
structure Covers (lora_ranks : Ranks) (jobs : List Peak.Job) (dirs : List (Option String))
    (a : Admission) : Prop where
  entered : jobs.Subperm a.cache_len_list
  held : ∀ j ∈ a.cache_len_list, 0 ≤ j.held
  left : ∀ j ∈ a.cache_len_list, 0 ≤ j.left
  counted : dirs ⊆ a.adapters
  size_eq : a.adapter_size = (a.adapters.map fun dir => (lora_ranks dir).getD 0 * 4).sum

/-- These jobs and adapters have been entered, and nothing else. -/
structure Exact (lora_ranks : Ranks) (jobs : List Peak.Job) (dirs : List (Option String))
    (a : Admission) : Prop extends Covers lora_ranks jobs dirs a where
  no_more : a.cache_len_list.Perm jobs
  nodup : a.adapters.Nodup
  used : a.adapters ⊆ dirs

/-- The adapter is counted once, and the entries stay. -/
theorem add_adapter_spec (hAdd : self.add_adapter lora_ranks dir = some self')
    (hSize : self.adapter_size = (self.adapters.map fun dir => (lora_ranks dir).getD 0 * 4).sum) :
    self'.cache_len_list = self.cache_len_list ∧
      (self'.adapters = self.adapters ∧ dir ∈ self.adapters ∨
        self'.adapters = self.adapters ++ [dir] ∧ dir ∉ self.adapters) ∧
      self'.adapter_size = (self'.adapters.map fun dir => (lora_ranks dir).getD 0 * 4).sum := by
  unfold add_adapter at hAdd
  split at hAdd
  · rename_i hKnown
    obtain rfl := Option.some.inj hAdd
    exact ⟨rfl, .inl ⟨rfl, List.contains_iff_mem.mp hKnown⟩, hSize⟩
  · rename_i hNew
    obtain ⟨r, hRank, rfl⟩ := Option.map_eq_some_iff.mp hAdd
    exact ⟨rfl, .inr ⟨rfl, fun hKnown => hNew (List.contains_iff_mem.mpr hKnown)⟩,
      by simp [hSize, hRank]⟩

theorem Covers.enter (h : Covers lora_ranks jobs dirs self) (hHeld : 0 ≤ job.held)
    (hLeft : 0 ≤ job.left) (hPerm : cache.Perm (self.cache_len_list ++ [job]))
    (hAdd : { self with cache_len_list := cache }.add_adapter lora_ranks dir = some self') :
    Covers lora_ranks (jobs ++ [job]) (dirs ++ [dir]) self' := by
  obtain ⟨hCache, hDirs, hSize⟩ := add_adapter_spec hAdd h.size_eq
  simp only at hCache hDirs
  refine ⟨?_, ?_, ?_, ?_, hSize⟩
  · rw [hCache]
    exact (h.entered.append (List.Subperm.refl [job])).trans hPerm.symm.subperm
  · rw [hCache]
    intro j hj
    rcases List.mem_append.mp (hPerm.subset hj) with hj | hj
    · exact h.held j hj
    · exact List.mem_singleton.mp hj ▸ hHeld
  · rw [hCache]
    intro j hj
    rcases List.mem_append.mp (hPerm.subset hj) with hj | hj
    · exact h.left j hj
    · exact List.mem_singleton.mp hj ▸ hLeft
  · rcases hDirs with ⟨hSame, hKnown⟩ | ⟨hMore, -⟩
    · rw [hSame]
      exact List.append_subset.mpr ⟨h.counted, by simpa using hKnown⟩
    · rw [hMore]
      exact List.append_subset.mpr ⟨List.subset_append_of_subset_left _ h.counted, by simp⟩

theorem Exact.enter (h : Exact lora_ranks jobs dirs self) (hHeld : 0 ≤ job.held)
    (hLeft : 0 ≤ job.left) (hPerm : cache.Perm (self.cache_len_list ++ [job]))
    (hAdd : { self with cache_len_list := cache }.add_adapter lora_ranks dir = some self') :
    Exact lora_ranks (jobs ++ [job]) (dirs ++ [dir]) self' := by
  have hCovers := h.toCovers.enter hHeld hLeft hPerm hAdd
  obtain ⟨hCache, hDirs, -⟩ := add_adapter_spec hAdd h.size_eq
  simp only at hCache hDirs
  refine ⟨hCovers, ?_, ?_, ?_⟩
  · rw [hCache]
    exact hPerm.trans (h.no_more.append_right _)
  · rcases hDirs with ⟨hSame, -⟩ | ⟨hMore, hNew⟩
    · exact hSame ▸ h.nodup
    · exact hMore ▸ h.nodup.append (List.nodup_singleton dir) (List.disjoint_singleton.mpr hNew)
  · rcases hDirs with ⟨hSame, -⟩ | ⟨hMore, -⟩
    · exact hSame ▸ List.subset_append_of_subset_left _ h.used
    · rw [hMore]
      exact List.append_subset.mpr ⟨List.subset_append_of_subset_left _ h.used, by simp⟩

theorem Exact.empty (lora_ranks : Ranks) : Exact lora_ranks [] [] {} where
  entered := List.Subperm.refl _
  held := by simp
  left := by simp
  counted := by simp
  size_eq := rfl
  no_more := .refl _
  nodup := List.nodup_nil
  used := by simp

/-- Every request of the running batch is entered. -/
theorem Exact.init {reqs : List Req} (h : Exact lora_ranks jobs dirs self)
    (hOpen : Unfinished reqs) (hInit : init_cache_list lora_ranks self reqs = some self') :
    Exact lora_ranks (jobs ++ reqs.map (·.running_len)) (dirs ++ reqs.map (·.adapter_dir))
      self' := by
  induction reqs generalizing self jobs dirs with
  | nil =>
      obtain rfl := Option.some.inj hInit
      simpa using h
  | cons req reqs ih =>
      obtain ⟨next, hAdd, hRest⟩ := Option.bind_eq_some_iff.mp hInit
      have hHeld : 0 ≤ req.running_len.held :=
        Int.natCast_nonneg (req.input_len + req.output_ids.length)
      have hLeft : 0 ≤ req.running_len.left := by
        have := hOpen req List.mem_cons_self
        show (0 : Int) ≤ req.max_output_len - req.output_ids.length - 1
        omega
      have hNext := h.enter hHeld hLeft (.refl _) hAdd
      have := ih hNext (fun other hOther => hOpen other (List.mem_cons_of_mem _ hOther)) hRest
      simpa using this

/-- What has been entered beyond what is to run is of no account. -/
theorem Covers.mono {jobs' : List Peak.Job} {dirs' : List (Option String)}
    (h : Covers lora_ranks jobs dirs self) (hJobs : jobs'.Subperm jobs) (hDirs : dirs' ⊆ dirs) :
    Covers lora_ranks jobs' dirs' self :=
  ⟨hJobs.trans h.entered, h.held, h.left, fun _ hDir => h.counted (hDirs hDir), h.size_eq⟩

theorem adapter_cells_le (lora_ranks : Ranks) {dirs' : List (Option String)}
    (hDirs : dirs ⊆ dirs') : (dirs.dedup.map fun dir => (lora_ranks dir).getD 0 * 4).sum ≤
      (dirs'.map fun dir => (lora_ranks dir).getD 0 * 4).sum := by
  have hSub : dirs.dedup.Subperm dirs' :=
    (List.nodup_dedup _).subperm fun dir hDir => hDirs (List.mem_dedup.mp hDir)
  obtain ⟨l, hPerm, hl⟩ := hSub
  exact (hPerm.map _).symm.sum_eq.trans_le ((hl.map _).sum_le_sum fun _ _ => Nat.zero_le _)

theorem Exact.adapter_size_eq (h : Exact lora_ranks jobs dirs self) :
    self.adapter_size = (dirs.dedup.map fun dir => (lora_ranks dir).getD 0 * 4).sum := by
  have hPerm : self.adapters.Perm dirs.dedup :=
    (List.perm_ext_iff_of_nodup h.nodup (List.nodup_dedup _)).mpr fun dir =>
      ⟨fun hDir => List.mem_dedup.mpr (h.used hDir),
        fun hDir => h.counted (List.mem_dedup.mp hDir)⟩
  rw [h.size_eq, (hPerm.map _).sum_eq]

theorem joined_held_nonneg (running added : List Req) :
    ∀ j ∈ joined_len running added, 0 ≤ j.held := by
  intro j hj
  rcases List.mem_append.mp hj with hj | hj
  · obtain ⟨req, -, rfl⟩ := List.mem_map.mp hj
    exact Int.natCast_nonneg (req.input_len + req.output_ids.length)
  · obtain ⟨req, -, rfl⟩ := List.mem_map.mp hj
    exact Int.natCast_nonneg (req.input_len + 1)

/-- With some of the requests left out, the others may be added all the same. -/
theorem admitted_of_sublist {added' : List Req} (h : Admitted limits lora_ranks running added')
    (hSub : added.Sublist added') : Admitted limits lora_ranks running added := by
  have hCells : adapter_cells lora_ranks (running ++ added) ≤
      adapter_cells lora_ranks (running ++ added') := by
    refine adapter_cells_le lora_ranks fun dir hDir => List.mem_dedup.mpr ?_
    exact ((List.Sublist.append_left hSub running).map _).subset hDir
  have hJobs : (joined_len running added).Sublist (joined_len running added') :=
    List.Sublist.append_left (hSub.map _) _
  refine ⟨(h.within.sublist hJobs (joined_held_nonneg running added')).mono (by omega), ?_, ?_⟩
  · exact (Nat.add_le_add_left hSub.length_le _).trans h.size
  · exact ((hSub.map _).sum_le_sum fun _ _ => Nat.zero_le _).trans h.tokens

/-- The test is on the most that what has been entered may come to need. -/
theorem Covers.fits_iff (h : Covers lora_ranks jobs dirs self) (hSome : self.cache_len_list ≠ [])
    (hSorted : Peak.Descending self.cache_len_list) :
    self.fits limits = true ↔
      Peak.Within self.cache_len_list (limits.max_total_tokens - self.adapter_size - 1) ∧
        self.cache_len_list.length ≤ limits.running_max_req_size := by
  obtain ⟨peak, hPeak⟩ : ∃ peak,
      (self.cache_len_list.mapIdx fun i j => Peak.level self.cache_len_list i j).max? =
        some peak := by
    rw [← Option.isSome_iff_exists, List.isSome_max?_iff]
    simpa using hSome
  rw [Peak.within_iff hSorted h.held h.left hPeak, fits, Bool.and_eq_true, decide_eq_true_eq,
    decide_eq_true_eq, need_max_token_num, hPeak, Option.getD_some, Int.le_sub_one_iff]

/-- `cache_len_list` with a request entered is sorted. -/
theorem with_req_spec (self : Admission) (req : Req) :
    (self.with_req req).cache_len_list.Perm (self.cache_len_list ++ [req.new_len]) ∧
      Peak.Descending (self.with_req req).cache_len_list := by
  have : Std.Total fun j j' : Peak.Job => j'.left ≤ j.left := ⟨fun j j' => le_total j'.left j.left⟩
  have : IsTrans Peak.Job fun j j' => j'.left ≤ j.left := ⟨fun _ _ _ h h' => h'.trans h⟩
  exact ⟨List.perm_insertionSort _ _, List.pairwise_insertionSort _ _⟩

theorem new_len_nonneg (hOpen : 1 ≤ req.max_output_len) :
    0 ≤ req.new_len.held ∧ 0 ≤ req.new_len.left := by
  show (0 : Int) ≤ req.input_len + 1 ∧ (0 : Int) ≤ req.max_output_len - 1
  omega

theorem joined_len_append : joined_len running (added ++ [req]) =
    joined_len running added ++ [req.new_len] := by
  simp [joined_len]

/-- What covers a batch that is running with the requests that are added to it. -/
abbrev CoversBatch (lora_ranks : Ranks) (running added : List Req) (a : Admission) : Prop :=
  a.Covers lora_ranks (joined_len running added) ((running ++ added).map (·.adapter_dir))

abbrev ExactBatch (lora_ranks : Ranks) (running added : List Req) (a : Admission) : Prop :=
  a.Exact lora_ranks (joined_len running added) ((running ++ added).map (·.adapter_dir))

/-- The request is entered, and if it can be added the batch is within the budget with it. -/
theorem Covers.can_add {can_add : Bool} (h : CoversBatch lora_ranks running added self)
    (hOpen : 1 ≤ req.max_output_len)
    (hAdd : self.can_add_new_req limits lora_ranks req = some (can_add, self')) :
    CoversBatch lora_ranks running (added ++ [req]) self' ∧
      (can_add = true → ((added ++ [req]).map (·.input_len)).sum ≤ limits.batch_max_tokens →
        Admitted limits lora_ranks running (added ++ [req])) := by
  obtain ⟨next, hNext, hSame⟩ := Option.map_eq_some_iff.mp hAdd
  obtain ⟨rfl, rfl⟩ := Prod.mk.inj hSame
  obtain ⟨hPerm, hSorted⟩ := with_req_spec self req
  obtain ⟨hHeld, hLeft⟩ := new_len_nonneg hOpen
  have hCovers : CoversBatch lora_ranks running (added ++ [req]) next := by
    have := h.enter hHeld hLeft hPerm hNext
    rwa [← joined_len_append, ← List.map_singleton, ← List.map_append, List.append_assoc] at this
  refine ⟨hCovers, fun hFits hTokens => ?_⟩
  rw [← (add_adapter_spec hNext h.size_eq).1] at hSorted
  have hLength := hCovers.entered.length_le
  have hSome : next.cache_len_list ≠ [] := by
    rintro hNil
    simp [hNil, joined_len] at hLength
  obtain ⟨hWithin, hSize⟩ := (hCovers.fits_iff hSome hSorted).mp hFits
  have hCells := adapter_cells_le lora_ranks hCovers.counted
  rw [← hCovers.size_eq] at hCells
  obtain ⟨sub, hSubPerm, hSub⟩ := hCovers.entered
  refine ⟨((hWithin.sublist hSub hCovers.held).perm hSubPerm).mono ?_, ?_, hTokens⟩
  · unfold adapter_cells
    omega
  · rw [joined_len, List.length_append, List.length_map, List.length_map] at hLength
    omega

/-- As long as nothing else has been entered, the test is exact. -/
theorem Exact.can_add {can_add : Bool} (h : ExactBatch lora_ranks running added self)
    (hOpen : 1 ≤ req.max_output_len)
    (hAdd : self.can_add_new_req limits lora_ranks req = some (can_add, self')) :
    ExactBatch lora_ranks running (added ++ [req]) self' ∧
      (Admitted limits lora_ranks running (added ++ [req]) ↔
        can_add = true ∧ ((added ++ [req]).map (·.input_len)).sum ≤ limits.batch_max_tokens) := by
  obtain ⟨hCovers, hAdmitted⟩ := h.toCovers.can_add hOpen hAdd
  obtain ⟨next, hNext, hSame⟩ := Option.map_eq_some_iff.mp hAdd
  obtain ⟨rfl, rfl⟩ := Prod.mk.inj hSame
  obtain ⟨hPerm, hSorted⟩ := with_req_spec self req
  obtain ⟨hHeld, hLeft⟩ := new_len_nonneg hOpen
  have hExact : ExactBatch lora_ranks running (added ++ [req]) next := by
    have := h.enter hHeld hLeft hPerm hNext
    rwa [← joined_len_append, ← List.map_singleton, ← List.map_append, List.append_assoc] at this
  refine ⟨hExact, ⟨fun hAdmit => ⟨?_, hAdmit.tokens⟩, fun ⟨hFits, hTokens⟩ =>
    hAdmitted hFits hTokens⟩⟩
  rw [← (add_adapter_spec hNext h.size_eq).1] at hSorted
  have hLength := hExact.no_more.length_eq
  have hSome : next.cache_len_list ≠ [] := by
    rintro hNil
    simp [hNil, joined_len] at hLength
  rw [hCovers.fits_iff hSome hSorted]
  refine ⟨(hAdmit.within.perm hExact.no_more.symm).mono ?_, ?_⟩
  · rw [hExact.adapter_size_eq]
    exact le_rfl
  · have := hAdmit.size
    rw [hLength, joined_len, List.length_append, List.length_map, List.length_map]
    exact this

end Admission

namespace Scan

variable {scan scan' : Scan} {limits : Limits} {lora_ranks : Ranks} {running : List Req}
  {reqs : List Req}

/-- What has been entered covers the batch, and what is to run may be added to it. This is what a
queue has to see to, in whatever order it looks at the requests. -/
structure Sound (limits : Limits) (lora_ranks : Ranks) (running : List Req) (scan : Scan) :
    Prop where
  covers : scan.admission.CoversBatch lora_ranks running scan.can_run_list
  admitted : scan.can_run_list = [] ∨ Admitted limits lora_ranks running scan.can_run_list
  tokens : scan.new_batch_total_tokens = (scan.can_run_list.map (·.input_len)).sum

/-- Every request asks for a token at least. -/
def Verified (reqs : List Req) : Prop := ∀ req ∈ reqs, 1 ≤ req.max_output_len

theorem Verified.tail {req : Req} (h : Verified (req :: reqs)) : Verified reqs :=
  fun other hOther => h other (List.mem_cons_of_mem _ hOther)

/-- What the loop does with the next request. -/
theorem run_cons {req : Req} (hRun : scan.run limits lora_ranks (req :: reqs) = some scan') :
    (req.aborted = true ∧
      { scan with abort_list := scan.abort_list ++ [req] }.run limits lora_ranks reqs =
        some scan') ∨
    (req.aborted = false ∧ ∃ can_add admission,
      scan.admission.can_add_new_req limits lora_ranks req = some (can_add, admission) ∧
        ((can_add = true ∧ scan.new_batch_total_tokens + req.input_len ≤ limits.batch_max_tokens ∧
            { scan with
              admission
              can_run_list := scan.can_run_list ++ [req]
              new_batch_total_tokens := scan.new_batch_total_tokens + req.input_len }.run
                limits lora_ranks reqs = some scan') ∨
          (¬(can_add = true ∧
              scan.new_batch_total_tokens + req.input_len ≤ limits.batch_max_tokens) ∧
            scan' = { scan with admission }))) := by
  rw [Scan.run] at hRun
  cases hAborted : req.aborted with
  | true => exact .inl ⟨rfl, by simpa [hAborted] using hRun⟩
  | false =>
      rw [hAborted, if_neg Bool.false_ne_true] at hRun
      obtain ⟨⟨can_add, admission⟩, hAdd, hNext⟩ := Option.bind_eq_some_iff.mp hRun
      refine .inr ⟨rfl, can_add, admission, hAdd, ?_⟩
      simp only [Bool.and_eq_true, decide_eq_true_eq] at hNext
      split at hNext
      · rename_i hGo
        exact .inl ⟨hGo.1, hGo.2, hNext⟩
      · rename_i hStop
        exact .inr ⟨hStop, (Option.some.inj hNext).symm⟩

/-- The loop takes the first requests: it adds those that are not aborted and passes over the
others. -/
theorem run_spec (h : Sound limits lora_ranks running scan) (hVerified : Verified reqs)
    (hRun : scan.run limits lora_ranks reqs = some scan') :
    Sound limits lora_ranks running scan' ∧ ∃ taken rest, reqs = taken ++ rest ∧
      scan'.can_run_list = scan.can_run_list ++ taken.filter (!·.aborted) ∧
      scan'.abort_list = scan.abort_list ++ taken.filter (·.aborted) := by
  induction reqs generalizing scan with
  | nil =>
      obtain rfl := Option.some.inj hRun
      exact ⟨h, [], [], by simp⟩
  | cons req reqs ih =>
      rcases run_cons hRun with ⟨hAborted, hRest⟩ | ⟨hAborted, can_add, admission, hAdd, hNext⟩
      · have hSame : Sound limits lora_ranks running
            { scan with abort_list := scan.abort_list ++ [req] } := ⟨h.1, h.2, h.3⟩
        obtain ⟨hSound, taken, rest, rfl, hCan, hAbort⟩ := ih hSame hVerified.tail hRest
        exact ⟨hSound, req :: taken, rest, by simp [hCan, hAbort, hAborted]⟩
      · obtain ⟨hCovers, hFits⟩ := h.covers.can_add (hVerified req List.mem_cons_self) hAdd
        rcases hNext with ⟨hCanAdd, hRoom, hRest⟩ | ⟨-, rfl⟩
        · have hTokens : scan.new_batch_total_tokens + req.input_len =
              ((scan.can_run_list ++ [req]).map (·.input_len)).sum := by
            simp [h.tokens]
          obtain ⟨hSound, taken, rest, rfl, hCan, hAbort⟩ := ih
            ⟨hCovers, .inr (hFits hCanAdd (hTokens ▸ hRoom)), hTokens⟩ hVerified.tail hRest
          exact ⟨hSound, req :: taken, rest, by simp [hCan, hAbort, hAborted]⟩
        · refine ⟨⟨hCovers.mono ?_ ?_, h.2, h.3⟩, [], req :: reqs, by simp⟩
          · rw [Admission.joined_len_append]
            exact (List.sublist_append_left _ _).subperm
          · exact List.map_subset _ (by simp)

/-- Nothing but the batch and what is to run has been entered. -/
structure Precise (lora_ranks : Ranks) (running : List Req) (scan : Scan) : Prop where
  exact : scan.admission.ExactBatch lora_ranks running scan.can_run_list
  tokens : scan.new_batch_total_tokens = (scan.can_run_list.map (·.input_len)).sum

/-- The loop stops only where the next request does not fit. -/
theorem run_maximal (h : Precise lora_ranks running scan) (hVerified : Verified reqs)
    (hRun : scan.run limits lora_ranks reqs = some scan') :
    ∃ taken rest, reqs = taken ++ rest ∧
      scan'.can_run_list = scan.can_run_list ++ taken.filter (!·.aborted) ∧
      scan'.abort_list = scan.abort_list ++ taken.filter (·.aborted) ∧
      ∀ req later, rest = req :: later → req.aborted = false ∧
        ¬Admitted limits lora_ranks running (scan'.can_run_list ++ [req]) := by
  induction reqs generalizing scan with
  | nil =>
      obtain rfl := Option.some.inj hRun
      exact ⟨[], [], by simp⟩
  | cons req reqs ih =>
      rcases run_cons hRun with ⟨hAborted, hRest⟩ | ⟨hAborted, can_add, admission, hAdd, hNext⟩
      · have hSame : Precise lora_ranks running
            { scan with abort_list := scan.abort_list ++ [req] } := ⟨h.1, h.2⟩
        obtain ⟨taken, rest, rfl, hCan, hAbort, hStop⟩ := ih hSame hVerified.tail hRest
        exact ⟨req :: taken, rest, rfl, by simp [hCan, hAborted], by simp [hAbort, hAborted], hStop⟩
      · obtain ⟨hExact, hIff⟩ := h.exact.can_add (hVerified req List.mem_cons_self) hAdd
        have hSum : scan.new_batch_total_tokens + req.input_len =
            ((scan.can_run_list ++ [req]).map (·.input_len)).sum := by
          simp [h.tokens]
        rcases hNext with ⟨-, -, hRest⟩ | ⟨hNot, rfl⟩
        · obtain ⟨taken, rest, rfl, hCan, hAbort, hStop⟩ := ih ⟨hExact, hSum⟩ hVerified.tail hRest
          exact ⟨req :: taken, rest, rfl, by simp [hCan, hAborted], by simp [hAbort, hAborted],
            hStop⟩
        · refine ⟨[], req :: reqs, rfl, by simp, by simp, ?_⟩
          rintro other later hSame
          obtain ⟨rfl, -⟩ := List.cons.inj hSame
          exact ⟨hAborted, fun hAdmit => hNot (hSum ▸ hIff.mp hAdmit)⟩

end Scan

end Slora
