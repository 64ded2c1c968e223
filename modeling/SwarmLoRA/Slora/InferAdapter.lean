import SwarmLoRA.Data.Segments
import SwarmLoRA.Slora.MemoryAllocator

/-! The adapters that a model worker has loaded. Their weights lie in the unified pool, in cells
that one table lists adapter by adapter; adapters that go leave gaps that a kernel closes. -/
namespace Slora

open Data Segments

/-- The pool with what its cells hold, as far as one layer goes; all layers are written alike. -/
structure Memory (V : Type) where
  mem_manager : MemoryAllocator
  buffer : Nat → V

/-- An adapter that the server offers. -/
structure LoraAdapter where
  lora_dir : String
  r : Nat

/-- How many cells the adapter takes up. -/
def LoraAdapter.size (adapter : LoraAdapter) : Nat := adapter.r * 4

/-- An entry of `adapter_dirs`, `a_start` and `a_len`. -/
structure Loaded where
  lora_dir : String
  start : Nat
  len : Nat

structure InferAdapter where
  loaded : List Loaded := []
  a_loc : List Nat := []
  idx_map : String → Option Nat := fun _ => none
  prefetch_tag : String → Option Bool := fun _ => none
  cur_tag : Bool := false

def BLOCK_SIZE : Nat := 256

/-- What one program of the kernel copies, counted from the start. The mask is for the offset in
the block. -/
def copied (length : Nat) : List Nat :=
  (List.range ((length + BLOCK_SIZE - 1) / BLOCK_SIZE)).flatMap fun i =>
    ((List.range BLOCK_SIZE).filter (· < length)).map (i * BLOCK_SIZE + ·)

/-- `var_len_copy_kernel_triton`, a program for each of the entries that stay, each with the place
it is copied to. -/
def var_len_copy (a_loc : List Nat) : List (Loaded × Nat) → (Nat → Nat) → Nat → Nat
  | [], new_a_loc => new_a_loc
  | (old, new_start) :: rest, new_a_loc =>
      var_len_copy a_loc rest
        (write new_a_loc ((copied old.len).map (new_start + ·))
          ((copied old.len).map fun i => a_loc.getD (old.start + i) 0))

namespace InferAdapter

section

variable (self : InferAdapter)

def adapter_dirs : List String := self.loaded.map (·.lora_dir)

/-- The cells of an adapter. -/
def region (entry : Loaded) : List Nat := slice self.a_loc entry.start entry.len

/-- The adapters to load ahead: the first that are not there and that fit together. -/
def prefetch_scan (capacity : Nat) : InferAdapter → Nat → List LoraAdapter →
    InferAdapter × List LoraAdapter
  | self, _, [] => (self, [])
  | self, tot_size, adapter :: rest =>
      let self := { self with
        prefetch_tag := Function.update self.prefetch_tag adapter.lora_dir (some self.cur_tag) }
      if (self.idx_map adapter.lora_dir).isSome then prefetch_scan capacity self tot_size rest
      else if capacity < tot_size + adapter.size then (self, [])
      else
        let after := prefetch_scan capacity self (tot_size + adapter.size) rest
        (after.1, adapter :: after.2)

/-- The adapters that are to be loaded now. -/
def new_adapters (adapters : List LoraAdapter) (prefetch : Bool) (capacity : Nat) :
    InferAdapter × List LoraAdapter :=
  if prefetch then prefetch_scan capacity { self with cur_tag := !self.cur_tag } 0 adapters
  else (self, adapters.filter fun adapter => (self.idx_map adapter.lora_dir).isNone)

/-- One more adapter, in these cells. -/
def add (adapter : LoraAdapter) (loc : List Nat) : InferAdapter :=
  { self with
    loaded := self.loaded ++ [⟨adapter.lora_dir, self.a_loc.length, adapter.size⟩]
    a_loc := self.a_loc ++ loc
    idx_map := Function.update self.idx_map adapter.lora_dir (some self.loaded.length) }

/-- Every new adapter gets its share of the new cells. -/
def install : InferAdapter → List LoraAdapter → List Nat → InferAdapter
  | self, [], _ => self
  | self, adapter :: rest, new_loc =>
      (self.add adapter (new_loc.take adapter.size)).install rest (new_loc.drop adapter.size)

def load_adapters {V : Type} (weights : String → List V) (memory : Memory V)
    (adapters : List LoraAdapter) (prefetch : Bool) : Except String (InferAdapter × Memory V) :=
  if adapters = [] then .ok (self, memory)
  else
    let (self, new_adapters) :=
      self.new_adapters adapters prefetch memory.mem_manager.can_use_mem_size
    (memory.mem_manager.alloc (new_adapters.map (·.size)).sum).map fun (new_loc, mem_manager) =>
      (self.install new_adapters new_loc,
        { mem_manager
          buffer := write memory.buffer new_loc
            (new_adapters.flatMap fun adapter => weights adapter.lora_dir) })

/-- Whether an adapter stays: it is reserved or has just been asked for ahead. -/
def stays (reserve_adapter_dirs : List (Option String)) (adapter_dir : String) : Bool :=
  decide (some adapter_dir ∈ reserve_adapter_dirs) ||
    self.prefetch_tag adapter_dir == some self.cur_tag

/-- `idx_map` for these adapters. -/
def index_of (dirs : List String) (dir : String) : Option Nat := dirs.findIdx? (· == dir)

/-- The entries that stay, with where they are to start. -/
def moved (left : List Loaded) : List (Loaded × Nat) := left.zip (starts 0 (left.map (·.len)))

/-- The table with the entries that stay, one after the other. -/
def packed (left : List Loaded) : InferAdapter :=
  let tot_size := (left.map (·.len)).sum
  { self with
    loaded := (moved left).map fun (entry, new_start) => { entry with start := new_start }
    a_loc := (List.range tot_size).map (var_len_copy self.a_loc (moved left) fun _ => 0)
    idx_map := index_of (left.map (·.lora_dir)) }

/-- The table is packed again. Nothing is left to write the first start to where no adapter
stays. -/
def offload_adapters (mem_manager : MemoryAllocator) (reserve_adapter_dirs : List (Option String)) :
    Except String (InferAdapter × MemoryAllocator) :=
  if reserve_adapter_dirs.length = self.loaded.length then .ok (self, mem_manager)
  else if reserve_adapter_dirs = [] then
    .ok ({ self with loaded := [], a_loc := [], idx_map := fun _ => none },
      mem_manager.free self.a_loc)
  else
    let left := self.loaded.filter fun entry => self.stays reserve_adapter_dirs entry.lora_dir
    let removed := self.loaded.filter fun entry => !self.stays reserve_adapter_dirs entry.lora_dir
    if removed = [] then
      .ok ({ self with idx_map := index_of (left.map (·.lora_dir)) }, mem_manager)
    else if left = [] then .error "index 0 is out of bounds for dimension 0 with size 0"
    else .ok (self.packed left, mem_manager.free (removed.flatMap self.region))

end

variable {self : InferAdapter} {rank : String → Nat} {adapter : LoraAdapter}

/-- The entries tell the segments of the table, adapter by adapter: each begins where the one before
ends, and is as long as its rank asks for. -/
structure Layout (rank : String → Nat) (infer : InferAdapter) : Prop where
  starts : infer.loaded.map (·.start) = starts 0 (infer.loaded.map (·.len))
  length : infer.a_loc.length = (infer.loaded.map (·.len)).sum
  ranks : ∀ entry ∈ infer.loaded, entry.len = rank entry.lora_dir * 4
  indexed : ∀ dir, (infer.idx_map dir).isSome ↔ dir ∈ infer.adapter_dirs
  nodup : infer.adapter_dirs.Nodup

/-- The rows of every adapter fit into one block of the copy kernel or are made of whole blocks. Only
then does the kernel copy exactly the segment of the adapter: its mask leaves out the offset of the
block, so that at rank 96 it copies 512 entries for 384. -/
def WellBlocked (rank : String → Nat) : Prop :=
  ∀ dir, rank dir * 4 ≤ BLOCK_SIZE ∨ BLOCK_SIZE ∣ rank dir * 4

namespace Layout

theorem new : Layout rank {} where
  starts := rfl
  length := rfl
  ranks := by simp
  indexed := by simp [adapter_dirs]
  nodup := List.nodup_nil

theorem bound (h : Layout rank self) {entry : Loaded} (hEntry : entry ∈ self.loaded) :
    entry.start + entry.len ≤ self.a_loc.length := by
  have := end_le h.starts entry hEntry
  rwa [Nat.zero_add, ← h.length] at this

theorem length_region (h : Layout rank self) {entry : Loaded} (hEntry : entry ∈ self.loaded) :
    (self.region entry).length = entry.len := by
  have := h.bound hEntry
  rw [region, slice, List.length_take, List.length_drop]
  omega

/-- The cells of the adapters are those of the table. -/
theorem flatten_regions (h : Layout rank self) :
    (self.loaded.map self.region).flatten = self.a_loc := by
  have := flatten_slices h.starts (by rw [Nat.zero_add, h.length])
  rwa [List.drop_zero] at this

theorem add (h : Layout rank self) {loc : List Nat} (hRank : adapter.r = rank adapter.lora_dir)
    (hLoc : loc.length = adapter.size) (hNew : adapter.lora_dir ∉ self.adapter_dirs) :
    Layout rank (self.add adapter loc) where
  starts := by
    simp only [InferAdapter.add, List.map_append, List.map_cons, List.map_nil]
    rw [starts_append, h.starts, h.length]
    simp [Segments.starts]
  length := by simp [InferAdapter.add, h.length, hLoc]
  ranks entry hEntry := by
    rcases List.mem_append.mp hEntry with hEntry | hEntry
    · exact h.ranks entry hEntry
    · obtain rfl := List.mem_singleton.mp hEntry
      show adapter.r * 4 = rank adapter.lora_dir * 4
      rw [hRank]
  indexed dir := by
    have := h.indexed dir
    by_cases hDir : dir = adapter.lora_dir
    · simp [InferAdapter.add, adapter_dirs, hDir]
    · simp only [adapter_dirs] at this
      simp [InferAdapter.add, adapter_dirs, hDir, this]
  nodup := by
    have := h.nodup.append (List.nodup_singleton _) (List.disjoint_singleton.mpr hNew)
    simpa [InferAdapter.add, adapter_dirs] using this

/-- The cells of the other adapters stay the same. -/
theorem region_add (h : Layout rank self) {loc : List Nat} {entry : Loaded}
    (hEntry : entry ∈ self.loaded) : (self.add adapter loc).region entry = self.region entry :=
  slice_append_left (h.bound hEntry)

end Layout

variable {V : Type} {weights : String → List V} {buffer buffer' : Nat → V}
  {memory memory' : Memory V} {adapters news : List LoraAdapter} {others new_loc : List Nat}
  {self' : InferAdapter} {prefetch : Bool} {capacity tot_size : Nat}

/-- The cells of each adapter hold its weights. -/
structure Intact (rank : String → Nat) (weights : String → List V) (buffer : Nat → V)
    (infer : InferAdapter) : Prop extends Layout rank infer where
  content : ∀ entry ∈ infer.loaded, (infer.region entry).map buffer = weights entry.lora_dir

theorem Intact.congr (h : Intact rank weights buffer self)
    (hSame : ∀ c ∈ self.a_loc, buffer' c = buffer c) : Intact rank weights buffer' self where
  toLayout := h.toLayout
  content entry hEntry := by
    rw [← h.content entry hEntry]
    refine List.map_congr_left fun c hc => hSame c ?_
    exact List.drop_subset _ _ (List.take_subset _ _ hc)

/-- The adapters are what the server offers, each once. -/
structure Offered (rank : String → Nat) (adapters : List LoraAdapter) : Prop where
  rank_eq : ∀ adapter ∈ adapters, adapter.r = rank adapter.lora_dir
  nodup : (adapters.map (·.lora_dir)).Nodup

theorem Offered.sublist (h : Offered rank adapters) (hSub : news.Sublist adapters) :
    Offered rank news :=
  ⟨fun adapter hAdapter => h.rank_eq adapter (hSub.subset hAdapter), h.nodup.sublist (hSub.map _)⟩

theorem Intact.install (h : Intact rank weights buffer self) (hOffered : Offered rank news)
    (hNew : ∀ adapter ∈ news, adapter.lora_dir ∉ self.adapter_dirs)
    (hWeights : ∀ dir, (weights dir).length = rank dir * 4)
    (hContent : new_loc.map buffer = news.flatMap fun adapter => weights adapter.lora_dir) :
    Intact rank weights buffer (self.install news new_loc) ∧
      (self.install news new_loc).a_loc = self.a_loc ++ new_loc ∧
      (self.install news new_loc).adapter_dirs =
        self.adapter_dirs ++ news.map (·.lora_dir) := by
  induction news generalizing self new_loc with
  | nil =>
      obtain rfl := List.map_eq_nil_iff.mp hContent
      simpa [InferAdapter.install] using h
  | cons adapter news ih =>
      rw [List.flatMap_cons] at hContent
      have hSize : (weights adapter.lora_dir).length = adapter.size := by
        rw [hWeights, LoraAdapter.size, hOffered.rank_eq adapter List.mem_cons_self]
      have hLength := congrArg List.length hContent
      rw [List.length_map, List.length_append, hSize] at hLength
      have hFirst : (new_loc.take adapter.size).map buffer = weights adapter.lora_dir := by
        rw [List.map_take, hContent, ← hSize, List.take_left]
      have hRest : (new_loc.drop adapter.size).map buffer =
          news.flatMap fun adapter => weights adapter.lora_dir := by
        rw [List.map_drop, hContent, ← hSize, List.drop_left]
      have hTake : (new_loc.take adapter.size).length = adapter.size := by
        rw [List.length_take]
        omega
      have hNodup := List.nodup_cons.mp hOffered.nodup
      have hAdd : Intact rank weights buffer (self.add adapter (new_loc.take adapter.size)) := by
        refine ⟨h.toLayout.add (hOffered.rank_eq adapter List.mem_cons_self) hTake
          (hNew adapter List.mem_cons_self), fun entry hEntry => ?_⟩
        rcases List.mem_append.mp hEntry with hEntry | hEntry
        · rw [h.toLayout.region_add hEntry]
          exact h.content entry hEntry
        · obtain rfl := List.mem_singleton.mp hEntry
          rw [← hFirst]
          congr 1
          have := slice_append_right self.a_loc (new_loc.take adapter.size)
          rwa [hTake] at this
      obtain ⟨hIntact, hLoc, hDirs⟩ := ih hAdd (hOffered.sublist (List.sublist_cons_self _ _))
        (by
          intro other hOther
          simp only [InferAdapter.add, adapter_dirs, List.map_append, List.map_cons, List.map_nil,
            List.mem_append, List.mem_singleton, not_or]
          refine ⟨hNew other (List.mem_cons_of_mem _ hOther), ?_⟩
          rintro hSame
          exact hNodup.1 (List.mem_map.mpr ⟨other, hOther, hSame⟩)) hRest
      refine ⟨hIntact, ?_, ?_⟩
      · rw [InferAdapter.install, hLoc]
        simp [InferAdapter.add]
      · rw [InferAdapter.install, hDirs]
        simp [InferAdapter.add, adapter_dirs]

/-- Only tags differ. -/
structure SameTable (infer infer' : InferAdapter) : Prop where
  loaded : infer'.loaded = infer.loaded
  a_loc : infer'.a_loc = infer.a_loc
  idx_map : infer'.idx_map = infer.idx_map

theorem SameTable.intact (h : SameTable self self') (hIntact : Intact rank weights buffer self) :
    Intact rank weights buffer self' := by
  obtain ⟨hLoaded, hLoc, hIdx⟩ := h
  obtain ⟨⟨h1, h2, h3, h4, h5⟩, h6⟩ := hIntact
  exact ⟨⟨by rwa [hLoaded], by rwa [hLoaded, hLoc], by rwa [hLoaded],
    by rwa [hIdx, adapter_dirs, hLoaded], by rwa [adapter_dirs, hLoaded]⟩, by
      rw [hLoaded]
      intro entry hEntry
      rw [region, hLoc]
      exact h6 entry hEntry⟩

theorem prefetch_scan_spec (capacity : Nat) (adapters : List LoraAdapter) (self : InferAdapter)
    (tot_size : Nat) :
    SameTable self (prefetch_scan capacity self tot_size adapters).1 ∧
      (prefetch_scan capacity self tot_size adapters).2.Sublist adapters ∧
      ∀ adapter ∈ (prefetch_scan capacity self tot_size adapters).2,
        self.idx_map adapter.lora_dir = none := by
  induction adapters generalizing self tot_size with
  | nil => exact ⟨⟨rfl, rfl, rfl⟩, List.Sublist.refl _, by simp [prefetch_scan]⟩
  | cons adapter rest ih =>
      rw [prefetch_scan]
      split
      · obtain ⟨⟨h1, h2, h3⟩, hSub, hNone⟩ := ih { self with
          prefetch_tag := Function.update self.prefetch_tag adapter.lora_dir (some self.cur_tag) }
          tot_size
        exact ⟨⟨h1, h2, h3⟩, hSub.cons _, hNone⟩
      · rename_i hNew
        split
        · exact ⟨⟨rfl, rfl, rfl⟩, List.nil_sublist _, by simp⟩
        · obtain ⟨⟨h1, h2, h3⟩, hSub, hNone⟩ := ih { self with
            prefetch_tag := Function.update self.prefetch_tag adapter.lora_dir
              (some self.cur_tag) } (tot_size + adapter.size)
          refine ⟨⟨h1, h2, h3⟩, hSub.cons_cons _, fun other hOther => ?_⟩
          rcases List.mem_cons.mp hOther with rfl | hOther
          · simpa using hNew
          · exact hNone other hOther

theorem new_adapters_spec (self : InferAdapter) (adapters : List LoraAdapter) (prefetch : Bool)
    (capacity : Nat) :
    SameTable self (self.new_adapters adapters prefetch capacity).1 ∧
      (self.new_adapters adapters prefetch capacity).2.Sublist adapters ∧
      (∀ adapter ∈ (self.new_adapters adapters prefetch capacity).2,
        self.idx_map adapter.lora_dir = none) ∧
      (prefetch = false → ∀ adapter ∈ adapters, self.idx_map adapter.lora_dir = none →
        adapter ∈ (self.new_adapters adapters prefetch capacity).2) := by
  unfold new_adapters
  cases prefetch with
  | true =>
      obtain ⟨⟨h1, h2, h3⟩, hSub, hNone⟩ :=
        prefetch_scan_spec capacity adapters { self with cur_tag := !self.cur_tag } 0
      exact ⟨⟨h1, h2, h3⟩, hSub, hNone, by simp⟩
  | false =>
      refine ⟨⟨rfl, rfl, rfl⟩, List.filter_sublist, ?_, ?_⟩
      · intro adapter hAdapter
        simpa using List.of_mem_filter hAdapter
      · intro _ adapter hAdapter hNone
        simpa [hNone] using hAdapter

/-- Loading leaves the other cells of the pool alone, and the adapters hold their weights. -/
theorem Intact.load (h : Intact rank weights memory.buffer self)
    (hHolds : memory.mem_manager.Holds (self.a_loc ++ others)) (hOffered : Offered rank adapters)
    (hWeights : ∀ dir, (weights dir).length = rank dir * 4)
    (hLoad : self.load_adapters weights memory adapters prefetch = .ok (self', memory')) :
    Intact rank weights memory'.buffer self' ∧
      memory'.mem_manager.Holds (self'.a_loc ++ others) ∧
      (∀ c ∈ others, memory'.buffer c = memory.buffer c) ∧
      memory'.mem_manager.tot_size = memory.mem_manager.tot_size ∧
      self.adapter_dirs ⊆ self'.adapter_dirs ∧
      self'.adapter_dirs ⊆ self.adapter_dirs ++ adapters.map (·.lora_dir) ∧
      (prefetch = false → adapters.map (·.lora_dir) ⊆ self'.adapter_dirs) := by
  unfold load_adapters at hLoad
  split at hLoad
  · rename_i hNone
    obtain ⟨rfl, rfl⟩ := Prod.mk.inj (Except.ok.inj hLoad)
    exact ⟨h, hHolds, fun _ _ => rfl, rfl, fun _ hDir => hDir, by simp, by simp [hNone]⟩
  · obtain ⟨hSame, hSub, hFresh, hAll⟩ :=
      new_adapters_spec self adapters prefetch memory.mem_manager.can_use_mem_size
    generalize self.new_adapters adapters prefetch memory.mem_manager.can_use_mem_size = result
      at hLoad hSame hSub hFresh hAll
    obtain ⟨middle, news⟩ := result
    simp only at hLoad hSame hSub hFresh hAll
    cases hAlloc : memory.mem_manager.alloc (news.map (·.size)).sum with
    | error message => simp [hAlloc, Except.map] at hLoad
    | ok result =>
        obtain ⟨new_loc, mem_manager⟩ := result
        simp only [hAlloc, Except.map] at hLoad
        obtain ⟨rfl, rfl⟩ := Prod.mk.inj (Except.ok.inj hLoad)
        obtain ⟨hHolds', hLength, hTot⟩ := hHolds.alloc hAlloc
        obtain ⟨hNodup, -, hApart⟩ := List.nodup_append'.mp hHolds'.nodup
        have hSizes : (news.map (·.size)).sum =
            (news.flatMap fun adapter => weights adapter.lora_dir).length := by
          rw [List.length_flatMap]
          congr 1
          refine List.map_congr_left fun adapter hAdapter => ?_
          rw [hWeights, LoraAdapter.size, hOffered.rank_eq adapter (hSub.subset hAdapter)]
        have hKeeps : ∀ c ∈ self.a_loc ++ others, write memory.buffer new_loc
            (news.flatMap fun adapter => weights adapter.lora_dir) c = memory.buffer c :=
          fun c hc => write_of_notMem fun hNew => hApart hNew hc
        have hMiddle : Intact rank weights (write memory.buffer new_loc
            (news.flatMap fun adapter => weights adapter.lora_dir)) middle :=
          (hSame.intact h).congr fun c hc => hKeeps c (List.mem_append_left _ (hSame.a_loc ▸ hc))
        have hDirsSame : middle.adapter_dirs = self.adapter_dirs := by
          rw [adapter_dirs, hSame.loaded, adapter_dirs]
        have hNotThere : ∀ adapter ∈ news, adapter.lora_dir ∉ middle.adapter_dirs := by
          intro adapter hAdapter hThere
          have := (h.indexed adapter.lora_dir).mpr (hDirsSame ▸ hThere)
          rw [hFresh adapter hAdapter] at this
          exact Bool.noConfusion this
        obtain ⟨hIntact, hLoc, hDirs⟩ := hMiddle.install (hOffered.sublist hSub) hNotThere hWeights
          (map_write hNodup (hLength.trans hSizes))
        rw [hDirsSame] at hDirs
        rw [hSame.a_loc] at hLoc
        refine ⟨hIntact, ?_, fun c hc => hKeeps c (List.mem_append_right _ hc), hTot, ?_, ?_, ?_⟩
        · rw [hLoc]
          refine hHolds'.perm ?_
          rw [← List.append_assoc]
          exact List.perm_append_comm.append_right _
        · exact hDirs ▸ List.subset_append_left _ _
        · rw [hDirs]
          exact List.append_subset.mpr ⟨List.subset_append_left _ _,
            List.subset_append_of_subset_right _ (hSub.map _).subset⟩
        · rintro hNow dir hDir
          obtain ⟨adapter, hAdapter, rfl⟩ := List.mem_map.mp hDir
          rw [hDirs, List.mem_append]
          by_cases hThere : adapter.lora_dir ∈ self.adapter_dirs
          · exact .inl hThere
          · refine .inr (List.mem_map_of_mem (hAll hNow adapter hAdapter ?_))
            rw [← Option.not_isSome_iff_eq_none]
            exact fun hSome => hThere ((h.indexed _).mp hSome)

/-- Loading succeeds if there is room for the new adapters. -/
theorem load_ok (weights : String → List V)
    (hHolds : memory.mem_manager.Holds (self.a_loc ++ others))
    (hRoom : ((self.new_adapters adapters prefetch memory.mem_manager.can_use_mem_size).2.map
      (·.size)).sum + (self.a_loc ++ others).length ≤ memory.mem_manager.tot_size) :
    ∃ result, self.load_adapters weights memory adapters prefetch = .ok result := by
  unfold load_adapters
  split
  · exact ⟨_, rfl⟩
  · obtain ⟨result, hAlloc⟩ := hHolds.alloc_ok_iff.mpr hRoom
    simp only [hAlloc, Except.map]
    exact ⟨_, rfl⟩

/-- What is loaded ahead fits what is free. -/
theorem prefetch_scan_fits (capacity : Nat) (adapters : List LoraAdapter) (self : InferAdapter)
    (hFits : tot_size ≤ capacity) :
    tot_size + ((prefetch_scan capacity self tot_size adapters).2.map (·.size)).sum ≤
      capacity := by
  induction adapters generalizing self tot_size with
  | nil => simpa [prefetch_scan] using hFits
  | cons adapter rest ih =>
      rw [prefetch_scan]
      split
      · exact ih _ hFits
      · split
        · simpa using hFits
        · rename_i hRoom
          have hNow : tot_size + adapter.size ≤ capacity := by omega
          have := ih { self with
            prefetch_tag := Function.update self.prefetch_tag adapter.lora_dir
              (some self.cur_tag) } hNow
          simp only [List.map_cons, List.sum_cons]
          omega

theorem new_adapters_fit (self : InferAdapter) (adapters : List LoraAdapter) (capacity : Nat) :
    ((self.new_adapters adapters true capacity).2.map (·.size)).sum ≤ capacity := by
  have := prefetch_scan_fits capacity adapters { self with cur_tag := !self.cur_tag }
    (Nat.zero_le capacity)
  rwa [Nat.zero_add] at this

theorem Layout.length_a_loc (h : Layout rank self) :
    self.a_loc.length = (self.adapter_dirs.map fun dir => rank dir * 4).sum := by
  rw [h.length, adapter_dirs, List.map_map]
  exact congrArg List.sum (List.map_congr_left fun entry hEntry => h.ranks entry hEntry)

/-! ### The kernel -/

theorem filter_range_lt {n m : Nat} (h : m ≤ n) :
    (List.range n).filter (fun i => decide (i < m)) = List.range m := by
  induction n with
  | zero =>
      obtain rfl := Nat.le_zero.mp h
      rfl
  | succ n ih =>
      rw [List.range_succ, List.filter_append, List.filter_singleton]
      rcases Nat.lt_or_eq_of_le h with hlt | rfl
      · have hNot : ¬n < m := by omega
        rw [ih (by omega)]
        simp [hNot]
      · have hAll : (List.range n).filter (fun i => decide (i < n + 1)) = List.range n :=
          List.filter_eq_self.mpr fun i hi => by
            have := List.mem_range.mp hi
            exact decide_eq_true (by omega)
        rw [hAll]
        simp [List.range_succ]

/-- A program copies its segment and no more if the segment fits a block or is made of blocks. -/
theorem copied_eq {length : Nat} (h : length ≤ BLOCK_SIZE ∨ BLOCK_SIZE ∣ length) :
    copied length = List.range length := by
  unfold copied
  rcases Nat.eq_zero_or_pos length with rfl | hPos
  · rfl
  rcases h with hFits | ⟨k, rfl⟩
  · have hOne : (length + BLOCK_SIZE - 1) / BLOCK_SIZE = 1 := by
      unfold BLOCK_SIZE at hFits ⊢
      omega
    rw [hOne, filter_range_lt hFits]
    simp
  · have hBlocks : (BLOCK_SIZE * k + BLOCK_SIZE - 1) / BLOCK_SIZE = k := by
      unfold BLOCK_SIZE
      omega
    have hWhole : (List.range BLOCK_SIZE).filter (fun i => decide (i < BLOCK_SIZE * k)) =
        List.range BLOCK_SIZE := by
      refine List.filter_eq_self.mpr fun i hi => decide_eq_true ?_
      have := List.mem_range.mp hi
      unfold BLOCK_SIZE at *
      omega
    rw [hBlocks, hWhole]
    clear hPos hBlocks hWhole
    induction k with
    | zero => rfl
    | succ k ih =>
        rw [List.range_succ, List.flatMap_append, ih, Nat.mul_succ, List.range_add,
          Nat.mul_comm BLOCK_SIZE k]
        simp

/-- What all the programs write, as one write. -/
theorem var_len_copy_eq_write (a_loc : List Nat) (entries : List (Loaded × Nat))
    (new_a_loc : Nat → Nat) :
    var_len_copy a_loc entries new_a_loc =
      write new_a_loc (entries.flatMap fun p => (copied p.1.len).map (p.2 + ·))
        (entries.flatMap fun p => (copied p.1.len).map fun i => a_loc.getD (p.1.start + i) 0) := by
  induction entries generalizing new_a_loc with
  | nil => rfl
  | cons p entries ih =>
      obtain ⟨old, new_start⟩ := p
      rw [var_len_copy, ih, List.flatMap_cons, List.flatMap_cons, write_append (by simp)]

/-- The new table lists the cells of the entries that stay, one entry after the other. -/
theorem map_var_len_copy {left : List Loaded} (h : Layout rank self) (hBlocked : WellBlocked rank)
    (hLeft : left ⊆ self.loaded) (new_a_loc : Nat → Nat) :
    (List.range (left.map (·.len)).sum).map
        (var_len_copy self.a_loc (moved left) new_a_loc) = (left.map self.region).flatten := by
  have hCopied : ∀ entry ∈ left, copied entry.len = List.range entry.len := by
    intro entry hEntry
    rw [h.ranks entry (hLeft hEntry)]
    exact copied_eq (hBlocked entry.lora_dir)
  have hMoved : ∀ p ∈ moved left, p.1 ∈ left := fun p hp => (List.of_mem_zip hp).1
  have hPlaces : ((moved left).flatMap fun p => (copied p.1.len).map (p.2 + ·)) =
      List.range (left.map (·.len)).sum := by
    rw [List.range_eq_range', ← flatMap_range' left (·.len) 0]
    refine List.flatMap_congr fun p hp => ?_
    rw [hCopied p.1 (hMoved p hp), List.range_eq_range', List.map_add_range']
    rfl
  have hValues : ((moved left).flatMap fun p =>
      (copied p.1.len).map fun i => self.a_loc.getD (p.1.start + i) 0) =
        (left.map self.region).flatten := by
    have hFirst : (moved left).map (·.1) = left := by
      unfold moved
      rw [List.map_fst_zip (by simp)]
    conv_rhs => rw [← hFirst, List.map_map, ← List.flatMap_def]
    refine List.flatMap_congr fun p hp => ?_
    have hBound := h.bound (hLeft (hMoved p hp))
    rw [hCopied p.1 (hMoved p hp), Function.comp_apply, region,
      slice_eq_map _ _ _ 0 hBound]
  rw [var_len_copy_eq_write, hPlaces, hValues]
  refine map_write List.nodup_range ?_
  rw [List.length_range, List.length_flatten, List.map_map]
  congr 1
  exact (List.map_congr_left fun entry hEntry => h.length_region (hLeft hEntry)).symm

theorem index_of_isSome (dirs : List String) (dir : String) :
    (index_of dirs dir).isSome ↔ dir ∈ dirs := by
  rw [index_of, List.findIdx?_isSome, List.any_eq_true]
  constructor
  · rintro ⟨_, hMem, hSame⟩
    exact beq_iff_eq.mp hSame ▸ hMem
  · exact fun hMem => ⟨dir, hMem, beq_self_eq_true dir⟩

/-- Packing keeps the adapters that stay in their cells. -/
theorem Intact.packed {left : List Loaded} (h : Intact rank weights buffer self)
    (hBlocked : WellBlocked rank) (hLeft : left.Sublist self.loaded) :
    Intact rank weights buffer (self.packed left) ∧
      (self.packed left).a_loc = (left.map self.region).flatten ∧
      (self.packed left).adapter_dirs = left.map (·.lora_dir) := by
  have hLoc : (self.packed left).a_loc = (left.map self.region).flatten :=
    map_var_len_copy h.toLayout hBlocked hLeft.subset _
  have hLengths : (left.map self.region).map List.length = left.map (·.len) := by
    rw [List.map_map]
    exact List.map_congr_left fun entry hEntry => h.length_region (hLeft.subset hEntry)
  generalize hNew : self.packed left = new at hLoc ⊢
  have hLoaded : new.loaded =
      (moved left).map fun (entry, new_start) => { entry with start := new_start } := by
    rw [← hNew]
    rfl
  have hIdx : new.idx_map = index_of (left.map (·.lora_dir)) := by
    rw [← hNew]
    rfl
  have hZip : ((moved left).map (·.1) = left) ∧
      ((moved left).map (·.2) = starts 0 (left.map (·.len))) := by
    unfold moved
    exact ⟨List.map_fst_zip (by simp), List.map_snd_zip (by simp)⟩
  have hLens : new.loaded.map (·.len) = left.map (·.len) := by
    rw [hLoaded, List.map_map]
    conv_rhs => rw [← hZip.1, List.map_map]
    rfl
  have hDirs : new.adapter_dirs = left.map (·.lora_dir) := by
    rw [adapter_dirs, hLoaded, List.map_map]
    conv_rhs => rw [← hZip.1, List.map_map]
    rfl
  have hStarts : new.loaded.map (·.start) = starts 0 (new.loaded.map (·.len)) := by
    rw [hLens, ← hZip.2, hLoaded, List.map_map]
    rfl
  have hRegions : new.loaded.map new.region = left.map self.region := by
    have := map_slice_flatten hStarts (hLens.trans hLengths.symm)
    rwa [← hLoc] at this
  have hAt : ∀ entry ∈ new.loaded, ∃ old ∈ left,
      entry.lora_dir = old.lora_dir ∧ entry.len = old.len ∧ new.region entry = self.region old := by
    intro entry hEntry
    obtain ⟨i, hi, rfl⟩ := List.getElem_of_mem hEntry
    have hCount : new.loaded.length = left.length := by simpa using congrArg List.length hLens
    refine ⟨left[i], List.getElem_mem _, ?_, ?_, ?_⟩
    · have := List.getElem_of_eq hDirs (i := i) (by simpa [adapter_dirs] using hi)
      simpa [adapter_dirs] using this
    · have := List.getElem_of_eq hLens (i := i) (by simpa using hi)
      rwa [List.getElem_map, List.getElem_map] at this
    · have := List.getElem_of_eq hRegions (i := i) (by simpa using hi)
      rwa [List.getElem_map, List.getElem_map] at this
  refine ⟨⟨⟨hStarts, ?_, ?_, ?_, ?_⟩, ?_⟩, hLoc, hDirs⟩
  · rw [hLoc, List.length_flatten, hLengths, hLens]
  · intro entry hEntry
    obtain ⟨old, hOld, hDir, hLen, -⟩ := hAt entry hEntry
    rw [hDir, hLen]
    exact h.ranks old (hLeft.subset hOld)
  · intro dir
    rw [hIdx, hDirs]
    exact index_of_isSome _ dir
  · rw [hDirs]
    exact h.nodup.sublist (hLeft.map _)
  · intro entry hEntry
    obtain ⟨old, hOld, hDir, -, hRegion⟩ := hAt entry hEntry
    rw [hRegion, hDir]
    exact h.content old (hLeft.subset hOld)

/-- What stays and what goes is what there was. -/
theorem perm_regions (h : Layout rank self) (test : Loaded → Bool) :
    ((self.loaded.filter fun entry => !test entry).flatMap self.region ++
      ((self.loaded.filter test).map self.region).flatten).Perm self.a_loc := by
  rw [← h.flatten_regions, List.flatMap_def, ← List.flatten_append, ← List.map_append]
  refine (List.Perm.map _ ?_).flatten
  exact List.perm_append_comm.trans (List.filter_append_perm test self.loaded)

/-- Offloading keeps the adapters that are reserved, in their cells, and gives back those of the
adapters that go. -/
theorem Intact.offload {mem_manager mem_manager' : MemoryAllocator}
    {reserve_adapter_dirs : List (Option String)} (h : Intact rank weights buffer self)
    (hHolds : mem_manager.Holds (self.a_loc ++ others)) (hBlocked : WellBlocked rank)
    (hOffload : self.offload_adapters mem_manager reserve_adapter_dirs =
      .ok (self', mem_manager')) :
    Intact rank weights buffer self' ∧ mem_manager'.Holds (self'.a_loc ++ others) ∧
      mem_manager'.tot_size = mem_manager.tot_size ∧
      self'.adapter_dirs ⊆ self.adapter_dirs ∧
      ∀ dir ∈ self.adapter_dirs, some dir ∈ reserve_adapter_dirs → dir ∈ self'.adapter_dirs := by
  unfold offload_adapters at hOffload
  split at hOffload
  · obtain ⟨rfl, rfl⟩ := Prod.mk.inj (Except.ok.inj hOffload)
    exact ⟨h, hHolds, rfl, fun _ hDir => hDir, fun _ hDir _ => hDir⟩
  split at hOffload
  · rename_i hNone
    obtain ⟨rfl, rfl⟩ := Prod.mk.inj (Except.ok.inj hOffload)
    refine ⟨⟨⟨rfl, rfl, by simp, by simp [adapter_dirs], List.nodup_nil⟩, by simp⟩, hHolds.free,
      rfl, by simp [adapter_dirs], ?_⟩
    rintro dir - hReserved
    rw [hNone] at hReserved
    exact absurd hReserved List.not_mem_nil
  simp only at hOffload
  split at hOffload
  · rename_i hNone
    obtain ⟨rfl, rfl⟩ := Prod.mk.inj (Except.ok.inj hOffload)
    have hAll : (self.loaded.filter fun entry =>
        self.stays reserve_adapter_dirs entry.lora_dir) = self.loaded := by
      refine List.filter_eq_self.mpr fun entry hEntry => ?_
      simpa using List.filter_eq_nil_iff.mp hNone entry hEntry
    refine ⟨⟨⟨h.starts, h.length, h.ranks, fun dir => ?_, h.nodup⟩, h.content⟩, hHolds, rfl,
      fun _ hDir => hDir, fun _ hDir _ => hDir⟩
    rw [hAll]
    exact index_of_isSome _ dir
  split at hOffload
  · cases hOffload
  · obtain ⟨hSame, rfl⟩ := Prod.mk.inj (Except.ok.inj hOffload)
    obtain ⟨hIntact, hLoc, hDirs⟩ := h.packed hBlocked
      (List.filter_sublist (p := fun entry => self.stays reserve_adapter_dirs entry.lora_dir))
    rw [hSame] at hIntact hLoc hDirs
    refine ⟨hIntact, MemoryAllocator.Holds.free (hHolds.perm ?_), rfl, ?_, ?_⟩
    · rw [hLoc, ← List.append_assoc]
      exact (perm_regions h.toLayout _).symm.append_right _
    · rw [hDirs]
      exact List.map_subset _ List.filter_sublist.subset
    · intro dir hDir hReserved
      rw [hDirs]
      obtain ⟨entry, hEntry, rfl⟩ := List.mem_map.mp hDir
      refine List.mem_map_of_mem (List.mem_filter.mpr ⟨hEntry, ?_⟩)
      simp [stays, hReserved]

/-- Offloading succeeds if nothing is reserved or some adapter that is reserved is there. -/
theorem offload_ok (mem_manager : MemoryAllocator) {reserve_adapter_dirs : List (Option String)}
    (hReserve : reserve_adapter_dirs = [] ∨
      ∃ dir ∈ self.adapter_dirs, some dir ∈ reserve_adapter_dirs) :
    ∃ result, self.offload_adapters mem_manager reserve_adapter_dirs = .ok result := by
  unfold offload_adapters
  split
  · exact ⟨_, rfl⟩
  split
  · exact ⟨_, rfl⟩
  rename_i hSome
  obtain ⟨dir, hDir, hReserved⟩ := hReserve.resolve_left hSome
  obtain ⟨entry, hEntry, rfl⟩ := List.mem_map.mp hDir
  simp only
  split
  · exact ⟨_, rfl⟩
  · rw [if_neg]
    · exact ⟨_, rfl⟩
    · intro hNone
      refine List.filter_eq_nil_iff.mp hNone entry hEntry ?_
      simp [stays, hReserved]

end InferAdapter

end Slora
