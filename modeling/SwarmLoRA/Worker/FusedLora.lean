import SwarmLoRA.Worker.Deltas

namespace Worker.ModelBuilder

open Data HotSwap

abbrev LoraModule := FastLoRAModule Tensor

/-- `weights` has `fused_A` and `fused_B`, where `has_lora` is true. -/
structure FusedLoRA where
  out_dims : List Nat
  num_loras : Nat
  weights : Option (Tensor × Tensor)

namespace FusedLoRA

/-- `out_dims[i]`. -/
def out_dim (out_dims : List Nat) (i : Nat) : Except String Nat :=
  match out_dims[i]? with
  | some width => .ok width
  | none => .error "list index out of range"

/-- `A_weights` and `B_weights` from a module on, with zeros for those that are absent. -/
def weights_from (in_features rank : Nat) (out_dims : List Nat) :
    Nat → List (Option LoraModule) → Except String (List (Tensor × Tensor))
  | _, [] => .ok []
  | i, some module :: rest => do
      let later ← weights_from in_features rank out_dims (i + 1) rest
      return (module.lora_A.t.mul module.scaling, module.lora_B.t) :: later
  | i, none :: rest => do
      let width ← out_dim out_dims i
      let later ← weights_from in_features rank out_dims (i + 1) rest
      return (.zeros in_features rank, .zeros rank width) :: later

/-- The loop that writes the blocks into `fused_B`. -/
def write_blocks (rank : Nat) (out_dims : List Nat) :
    Nat → Nat → List Tensor → Tensor → Except String Tensor
  | _, _, [], fused_B => .ok fused_B
  | i, col_offset, B :: rest, fused_B => do
      let width ← out_dim out_dims i
      let fused_B ← fused_B.assign (i * rank) rank col_offset width B
      write_blocks rank out_dims (i + 1) (col_offset + width) rest fused_B

/-- `__init__`. -/
def init (lora_modules : List (Option LoraModule)) (out_dims : List Nat) :
    Except String FusedLoRA :=
  let num_loras := lora_modules.length
  match lora_modules.filterMap id with
  | [] => .ok { out_dims, num_loras, weights := none }
  | first :: _ => do
      let weights ← weights_from first.lora_A.cols first.lora_A.rows out_dims 0 lora_modules
      let fused_A ← Tensor.cat (weights.map (·.1))
      let rank := (weights.head?.map (·.1.cols)).getD 0
      let fused_B ← write_blocks rank out_dims 0 0 (weights.map (·.2))
        (.zeros (rank * num_loras) out_dims.sum)
      return { out_dims, num_loras, weights := some (fused_A, fused_B) }

/-- Without dropout. -/
def forward (fl : FusedLoRA) (x : Tensor) : Except String (List (Option Tensor)) :=
  match fl.weights with
  | none => .ok (List.replicate fl.num_loras none)
  | some (fused_A, fused_B) => do
      let y ← x.matmul fused_A
      let z ← y.matmul fused_B
      let deltas ← z.split fl.out_dims
      return deltas.map some

end FusedLoRA

/-- The delta of one module by itself, zeros where it is absent. -/
def separate (x : Tensor) : Option LoraModule × Nat → Except String Tensor
  | (none, width) => .ok (.zeros x.rows width)
  | (some module, _) => do
      let y ← x.matmul module.lora_A.t
      let z ← y.matmul module.lora_B.t
      return z.mul module.scaling

/-- The modules that are there have the rank and the input width, and there is an output width for
each of them all. -/
structure Fits (in_features rank : Nat) (lora_modules : List (Option LoraModule))
    (out_dims : List Nat) : Prop where
  modules : ∀ module, some module ∈ lora_modules → module.lora_A.rows = rank ∧
    module.lora_A.cols = in_features ∧ module.lora_B.cols = rank
  widths : List.Forall₂ (fun entry width => ∀ module ∈ entry, module.lora_B.rows = width)
    lora_modules out_dims

/-- The block of a module in `fused_A`, and the one in `fused_B` with its width. -/
def block (in_features rank : Nat) : Option LoraModule × Nat → Tensor × Nat × Tensor
  | (none, width) => (.zeros in_features rank, width, .zeros rank width)
  | (some module, width) => (module.lora_A.t.mul module.scaling, width, module.lora_B.t)

def blocks (in_features rank : Nat) (lora_modules : List (Option LoraModule))
    (out_dims : List Nat) : List (Tensor × Nat × Tensor) :=
  (lora_modules.zip out_dims).map (block in_features rank)

variable {in_features rank i col_offset width : Nat} {lora_modules : List (Option LoraModule)}
  {out_dims widths : List Nat} {x : Tensor}

namespace FusedLoRA

theorem out_dim_of_drop (hWidths : out_dims.drop i = width :: widths) :
    out_dim out_dims i = .ok width ∧ out_dims.drop (i + 1) = widths := by
  have hItem : out_dims[i]? = some width := by
    rw [← List.head?_drop, hWidths]
    rfl
  refine ⟨by simp only [out_dim, hItem], ?_⟩
  rw [← List.drop_drop, hWidths]
  rfl

theorem weights_from_eq (hWidths : out_dims.drop i = widths)
    (hLength : lora_modules.length = widths.length) :
    weights_from in_features rank out_dims i lora_modules =
      .ok ((blocks in_features rank lora_modules widths).map fun b => (b.1, b.2.2)) := by
  induction lora_modules generalizing i widths with
  | nil => rfl
  | cons entry rest ih =>
      obtain _ | ⟨width, widths⟩ := widths
      · cases hLength
      · obtain ⟨hDim, hRest⟩ := out_dim_of_drop hWidths
        have hLater := ih hRest (Nat.succ.inj hLength)
        cases entry with
        | none => simp [weights_from, hDim, hLater, blocks, block, bind, Except.bind, pure, Except.pure]
        | some module => simp [weights_from, hLater, blocks, block, bind, Except.bind, pure, Except.pure]

theorem write_blocks_eq {bs : List (Nat × Tensor)} (hWidths : out_dims.drop i = bs.map (·.1))
    (fused_B : Tensor) :
    write_blocks rank out_dims i col_offset (bs.map (·.2)) fused_B =
      Tensor.assign_blocks rank (i * rank) col_offset bs fused_B := by
  induction bs generalizing i col_offset fused_B with
  | nil => rfl
  | cons b bs ih =>
      obtain ⟨hDim, hRest⟩ := out_dim_of_drop hWidths
      simp only [List.map_cons, write_blocks, hDim, Tensor.assign_blocks, bind, Except.bind]
      cases fused_B.assign (i * rank) rank col_offset b.1 b.2 with
      | error e => rfl
      | ok fused_B => exact (ih hRest fused_B).trans (by rw [Nat.succ_mul])

end FusedLoRA

section Blocks

theorem block_width (p : Option LoraModule × Nat) : (block in_features rank p).2.1 = p.2 := by
  obtain ⟨_ | module, width⟩ := p
  · rfl
  · rfl

theorem Fits.length (h : Fits in_features rank lora_modules out_dims) :
    lora_modules.length = out_dims.length :=
  h.widths.length_eq

theorem length_blocks (hLength : lora_modules.length = out_dims.length) :
    (blocks in_features rank lora_modules out_dims).length = lora_modules.length := by
  rw [blocks, List.length_map, List.length_zip, ← hLength, Nat.min_self]

theorem blocks_widths (hLength : lora_modules.length = out_dims.length) :
    (blocks in_features rank lora_modules out_dims).map (·.2.1) = out_dims := by
  unfold blocks
  rw [List.map_map]
  refine Eq.trans (List.map_congr_left fun p _ => block_width p) ?_
  exact List.map_snd_zip hLength.ge

theorem Fits.block_shape (h : Fits in_features rank lora_modules out_dims)
    {b : Tensor × Nat × Tensor} (hMem : b ∈ blocks in_features rank lora_modules out_dims) :
    (b.1.rows = in_features ∧ b.1.cols = rank) ∧ b.2.2.rows = rank ∧ b.2.2.cols = b.2.1 := by
  obtain ⟨⟨entry, width⟩, hZip, rfl⟩ := List.mem_map.mp hMem
  cases entry with
  | none => exact ⟨⟨rfl, rfl⟩, rfl, rfl⟩
  | some module =>
      obtain ⟨hRank, hIn, hRank'⟩ := h.modules module (List.of_mem_zip hZip).1
      have hOut := (List.forall₂_iff_zip.mp h.widths).2 hZip module rfl
      exact ⟨⟨hIn, hRank⟩, hRank', hOut⟩

theorem write_blocks_blocks (hLength : lora_modules.length = out_dims.length) :
    FusedLoRA.write_blocks rank out_dims 0 0
        ((blocks in_features rank lora_modules out_dims).map (·.2.2))
        (.zeros (rank * lora_modules.length) out_dims.sum) =
      Tensor.block_diagonal rank ((blocks in_features rank lora_modules out_dims).map (·.2)) := by
  have hWidths : ((blocks in_features rank lora_modules out_dims).map (·.2)).map (·.1) = out_dims := by
    rw [List.map_map]
    exact blocks_widths hLength
  have hWrite : FusedLoRA.write_blocks rank out_dims 0 0
      (((blocks in_features rank lora_modules out_dims).map (·.2)).map (·.2))
      (.zeros (rank * lora_modules.length) out_dims.sum) =
        Tensor.assign_blocks rank (0 * rank) 0
          ((blocks in_features rank lora_modules out_dims).map (·.2))
          (.zeros (rank * lora_modules.length) out_dims.sum) :=
    FusedLoRA.write_blocks_eq (List.drop_zero.trans hWidths.symm) _
  rw [List.map_map, Nat.zero_mul] at hWrite
  rw [Tensor.block_diagonal, List.length_map, length_blocks hLength, hWidths]
  exact hWrite

/-- The delta of a module is what its blocks make of `x`. -/
theorem Fits.separate_eq (h : Fits in_features rank lora_modules out_dims)
    (hx : x.cols = in_features) {p : Option LoraModule × Nat} (hMem : p ∈ lora_modules.zip out_dims) :
    separate x p = .ok (x.weigh rank (block in_features rank p)) := by
  obtain ⟨entry, width⟩ := p
  cases entry with
  | none => exact congrArg Except.ok Tensor.weigh_zeros.symm
  | some module =>
      obtain ⟨hRank, hIn, hRank'⟩ := h.modules module (List.of_mem_zip hMem).1
      have hOut : module.lora_B.rows = width := (List.forall₂_iff_zip.mp h.widths).2 hMem module rfl
      have hProduct := Tensor.matmul_matmul_mul (x := x) (A := module.lora_A.t) (B := module.lora_B.t)
        module.scaling (hx.trans hIn.symm) (hRank.trans hRank'.symm)
      subst hOut hRank'
      exact hProduct

end Blocks

section Init

variable {first : LoraModule} {valid : List LoraModule}

/-- The first block has the rank of the first module that is there. -/
theorem head_rank (hValid : lora_modules.filterMap id = first :: valid)
    (hLength : lora_modules.length = out_dims.length) :
    (((blocks first.lora_A.cols first.lora_A.rows lora_modules out_dims).map
      fun b => (b.1, b.2.2)).head?.map (·.1.cols)).getD 0 = first.lora_A.rows := by
  obtain _ | ⟨entry, rest⟩ := lora_modules
  · cases hValid
  · obtain _ | ⟨width, widths⟩ := out_dims
    · cases hLength
    · cases entry with
      | none => rfl
      | some module =>
          obtain rfl : module = first := (List.cons.inj hValid).1
          rfl

/-- The fused tensors are made of the blocks. -/
theorem init_eq {A B : Tensor} (hValid : lora_modules.filterMap id = first :: valid)
    (hLength : lora_modules.length = out_dims.length)
    (hA : Tensor.cat ((blocks first.lora_A.cols first.lora_A.rows lora_modules out_dims).map
      (·.1)) = .ok A)
    (hB : Tensor.block_diagonal first.lora_A.rows
      ((blocks first.lora_A.cols first.lora_A.rows lora_modules out_dims).map (·.2)) = .ok B) :
    FusedLoRA.init lora_modules out_dims = .ok ⟨out_dims, lora_modules.length, some (A, B)⟩ := by
  have hWeights : FusedLoRA.weights_from first.lora_A.cols first.lora_A.rows out_dims 0
      lora_modules = .ok ((blocks first.lora_A.cols first.lora_A.rows lora_modules out_dims).map
        fun b => (b.1, b.2.2)) :=
    FusedLoRA.weights_from_eq List.drop_zero hLength
  unfold FusedLoRA.init
  rw [hValid]
  simp only [hWeights, head_rank hValid hLength, bind, Except.bind, pure, Except.pure,
    List.map_map, Function.comp_def, hA, write_blocks_blocks hLength, hB]

theorem Fits.init (h : Fits in_features rank lora_modules out_dims)
    (hSome : ∃ module, some module ∈ lora_modules) :
    ∃ A B, FusedLoRA.init lora_modules out_dims =
        .ok ⟨out_dims, lora_modules.length, some (A, B)⟩ ∧ A.rows = in_features ∧
      Tensor.cat ((blocks in_features rank lora_modules out_dims).map (·.1)) = .ok A ∧
        Tensor.block_diagonal rank ((blocks in_features rank lora_modules out_dims).map (·.2)) =
          .ok B := by
  obtain ⟨module, hModule⟩ := hSome
  have hValid : module ∈ lora_modules.filterMap id := List.mem_filterMap.mpr ⟨_, hModule, rfl⟩
  obtain ⟨first, valid, hValid⟩ := List.exists_cons_of_length_pos (List.length_pos_of_mem hValid)
  have hFirst : some first ∈ lora_modules := by
    obtain ⟨entry, hMem, rfl⟩ := List.mem_filterMap.mp (hValid ▸ List.mem_cons_self ..)
    exact hMem
  obtain ⟨rfl, rfl, -⟩ := h.modules first hFirst
  obtain ⟨A, hA, hRows⟩ : ∃ A, Tensor.cat ((blocks first.lora_A.cols first.lora_A.rows lora_modules
      out_dims).map (·.1)) = .ok A ∧ A.rows = first.lora_A.cols := by
    refine Tensor.cat_ok_iff.mpr ⟨?_, List.forall_mem_map.mpr fun b hb => (h.block_shape hb).1.1⟩
    refine List.ne_nil_of_length_pos ?_
    rw [List.length_map, length_blocks h.length]
    exact List.length_pos_of_mem hModule
  obtain ⟨B, hB⟩ : ∃ B, Tensor.block_diagonal first.lora_A.rows ((blocks first.lora_A.cols
      first.lora_A.rows lora_modules out_dims).map (·.2)) = .ok B :=
    Tensor.assign_blocks_ok_iff.mpr (List.forall_mem_map.mpr fun b hb => (h.block_shape hb).2)
  exact ⟨A, B, init_eq hValid h.length hA hB, hRows, hA, hB⟩

end Init

/-- The fused product, split by the output widths, is the delta of every module, with zeros for a
module that is absent. The modules share the rank and the input width, as those of one adapter at
one site do. -/
theorem forward_fused (h : Fits in_features rank lora_modules out_dims)
    (hSome : ∃ module, some module ∈ lora_modules) (hx : x.cols = in_features) :
    ∃ fl deltas, FusedLoRA.init lora_modules out_dims = .ok fl ∧
      fl.forward x = .ok (deltas.map some) ∧
        List.Forall₂ (fun p delta => separate x p = .ok delta) (lora_modules.zip out_dims) deltas := by
  obtain ⟨A, B, hInit, hRows, hA, hB⟩ := h.init hSome
  refine ⟨_, (blocks in_features rank lora_modules out_dims).map (x.weigh rank), hInit, ?_, ?_⟩
  · have hSplit := Tensor.split_mul_block_diagonal hA hB (fun b hb => (h.block_shape hb).1.2)
      (hx.trans hRows.symm)
    rw [blocks_widths h.length] at hSplit
    have hForward := congrArg (fun deltas => deltas >>= fun l => pure (l.map some)) hSplit
    simp only [bind_assoc] at hForward
    exact hForward
  · unfold blocks
    rw [List.map_map, List.forall₂_map_right_iff]
    refine List.forall₂_same.mpr fun p hp => ?_
    exact h.separate_eq hx hp

/-- A query and a key of rank one, and no value. -/
def query_and_key : List (Option LoraModule) :=
  [some ⟨⟨1, 2, fun _ _ => 1⟩, ⟨2, 1, fun _ _ => 3⟩, 2⟩,
    some ⟨⟨1, 2, fun _ j => j.val⟩, ⟨1, 1, fun _ _ => 1⟩, 1⟩, none]

theorem fits_query_and_key : Fits 2 1 query_and_key [2, 1, 3] where
  modules := by
    intro module hMem
    simp only [query_and_key, List.mem_cons, Option.some.injEq, List.not_mem_nil, or_false,
      reduceCtorEq] at hMem
    obtain rfl | rfl := hMem
    · exact ⟨rfl, rfl, rfl⟩
    · exact ⟨rfl, rfl, rfl⟩
  widths := by
    refine .cons ?_ (.cons ?_ (.cons nofun .nil))
    · rintro _ ⟨⟩
      rfl
    · rintro _ ⟨⟩
      rfl

theorem forward_fused_query_and_key :
    ∃ fl deltas, FusedLoRA.init query_and_key [2, 1, 3] = .ok fl ∧
      fl.forward ⟨1, 2, fun _ j => j.val⟩ = .ok (deltas.map some) ∧
        List.Forall₂ (fun p delta => separate ⟨1, 2, fun _ j => j.val⟩ p = .ok delta)
          (query_and_key.zip [2, 1, 3]) deltas :=
  forward_fused fits_query_and_key ⟨_, List.mem_cons_self ..⟩ rfl

section Site

variable {site : Site} {modules : Modules Tensor} {dims : ModuleName → Nat}

theorem zip_site : (site.module_names.map modules).zip (site.module_names.map dims) =
    site.module_names.map fun name => (modules name, dims name) := by
  exact List.zip_map' ..

theorem A_weights_site : (blocks in_features rank (site.module_names.map modules)
    (site.module_names.map dims)).map (·.1) =
      AdapterManager.A_weights site modules (·.scaling) in_features rank := by
  unfold blocks AdapterManager.A_weights
  rw [zip_site, List.map_map, List.map_map]
  refine List.map_congr_left fun name _ => ?_
  simp only [Function.comp_apply]
  cases modules name <;> rfl

theorem B_weights_site : (blocks in_features rank (site.module_names.map modules)
    (site.module_names.map dims)).map (·.2) =
      AdapterManager.B_weights site modules dims rank := by
  unfold blocks AdapterManager.B_weights
  rw [zip_site, List.map_map, List.map_map]
  refine List.map_congr_left fun name _ => ?_
  simp only [Function.comp_apply]
  cases modules name <;> rfl

/-- What the adapter manager fuses at a site is what `FusedLoRA` makes of the modules there. -/
theorem init_site {info : AdapterManager.Info} {object : Nat} {first : LoraModule}
    {valid : List LoraModule} {fl : AdapterManager.FusedLoRA}
    (hValid : AdapterManager.valid_modules site modules = first :: valid)
    (hNew : AdapterManager.FusedLoRA.new site modules object info.out_dims first = .ok fl) :
    FusedLoRA.init (site.module_names.map modules) (site.module_names.map info.out_dims) =
      .ok ⟨site.module_names.map info.out_dims, site.module_names.length,
        some (fl.fused_A, fl.fused_B)⟩ := by
  have hLength : (site.module_names.map modules).length =
      (site.module_names.map info.out_dims).length := by
    rw [List.length_map, List.length_map]
  obtain ⟨-, -, hA, hB⟩ := AdapterManager.FusedLoRA.of_new hNew
  have hFirst : (site.module_names.map modules).filterMap id = first :: valid := by
    rw [List.filterMap_map]
    exact hValid
  have hInit := init_eq hFirst hLength (A_weights_site.symm ▸ hA) (B_weights_site.symm ▸ hB)
  rwa [List.length_map] at hInit

end Site

end Worker.ModelBuilder
