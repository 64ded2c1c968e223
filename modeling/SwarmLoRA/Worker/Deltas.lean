import Mathlib.Tactic.Ring
import SwarmLoRA.Data.Product
import SwarmLoRA.Worker.FailedSwap

namespace Worker.AdapterManager

open Data HotSwap Machine Finset

def Info.in_features (info : Info) : Site → Nat
  | .fused_qkv | .fused_gate_up | .o_proj => info.hidden_size
  | .down_proj => info.intermediate_size

/-- The modules of a site have the rank and the sizes of the model. -/
def Shaped (info : Info) (rank : Nat) (site : Site) (modules : Modules) : Prop :=
  ∀ name ∈ site.module_names, ∀ m ∈ modules name,
    (m.lora_A.rows = rank ∧ m.lora_A.cols = info.in_features site) ∧
      m.lora_B.rows = info.out_dims name ∧ m.lora_B.cols = rank

/-- An adapter for the models of an aggregator: it has a rank, and its tensors have the shapes that
the rank and the sizes of the model ask for. -/
structure LoRAAdapter (info : Info) extends HotSwap.Adapter Tensor where
  rank_pos : 0 < r
  shaped : ∀ layer_idx site, Shaped info r site (toAdapter.get_lora_module layer_idx)

/-- `__init__`. -/
def SyncRemoteLoRALinear.new (id : Nat) (m : FastLoRAModule Tensor) : SyncRemoteLoRALinear where
  lora_A := ⟨id, m.lora_A⟩
  lora_B := ⟨id, m.lora_B⟩
  scaling := m.scaling

/-- A site in `build_hollow_model`. The fused sites are made as where the rank changes. -/
def build_site (new : Adapter) (info : Info) : Update Entry String
  | (layer_idx, .fused_qkv), entry =>
      recreate_fused info 0 .fused_qkv (new.get_lora_module layer_idx) entry
  | (layer_idx, .fused_gate_up), entry =>
      recreate_fused info 0 .fused_gate_up (new.get_lora_module layer_idx) entry
  | (layer_idx, .o_proj), _ =>
      ((new.get_lora_module layer_idx .o_proj).map (SyncRemoteLoRALinear.new 0), none)
  | (layer_idx, .down_proj), _ =>
      ((new.get_lora_module layer_idx .down_proj).map (SyncRemoteLoRALinear.new 0), none)

/-- The LoRA part of `build_hollow_model`. -/
def build_hollow_model (info : Info) (files : AdapterId → Except String Adapter)
    (lora_id : AdapterId) : Except String Model := do
  let new ← load_lora_fast files lora_id
  match walk (build_site new info) (sites info.num_layers) fun _ => none with
  | (_, some error) => throw error
  | (model, none) => return model

/-- The adapter manager with the adapter that the model was built for. -/
def set_adapter (model : Model) (adapter_id : AdapterId) (new : Adapter) : State where
  model := model
  current_adapter_id := some adapter_id
  current_rank := new.r
  current_config := some ⟨new.r, new.lora_alpha⟩

def Linear.forward (linear : Linear) (x : Tensor) : Except String Tensor :=
  x.matmul linear.weight.t

/-- With the split into the deltas of the modules. -/
def FusedLoRA.forward (site : Site) (fused_lora : FusedLoRA) (x : Tensor) :
    Except String (List Tensor) := do
  let y ← x.matmul fused_lora.fused_A
  let z ← y.matmul fused_lora.fused_B
  z.split (site.module_names.map fused_lora.out_dims)

/-- The delta of `o_proj_submit_all` and `down_proj_submit_all`. -/
def SyncRemoteLoRALinear.delta (sync_lora : SyncRemoteLoRALinear) (x : Tensor) :
    Except String (List Tensor) := do
  let y ← sync_lora.lora_A.forward x
  let z ← sync_lora.lora_B.forward y
  return [z.mul sync_lora.scaling]

/-- The deltas of the modules of a site. Where there is no LoRA module nothing is added to the
outputs, which is to add zeros. -/
def deltas (info : Info) (x : Tensor) : (p : Nat × Site) → Entry p → Except String (List Tensor)
  | (_, .fused_qkv), some (fl : FusedLoRA) => fl.forward .fused_qkv x
  | (_, .fused_gate_up), some (fl : FusedLoRA) => fl.forward .fused_gate_up x
  | (_, .o_proj), some (l : SyncRemoteLoRALinear)
  | (_, .down_proj), some (l : SyncRemoteLoRALinear) => l.delta x
  | (_, site), none => .ok (site.module_names.map fun name => .zeros x.rows (info.out_dims name))

section Contributions

/-- An entry of the scaled product of the tensors of a module. -/
def product : Option (FastLoRAModule Tensor) → Nat → Nat → ℚ
  | none, _, _ => 0
  | some m, l, j => ∑ k ∈ range m.lora_A.rows, m.lora_A.get k l * m.scaling * m.lora_B.get j k

/-- What a module is there for. -/
def contribution (x : Tensor) (out_features : Nat) (m : Option (FastLoRAModule Tensor)) : Tensor :=
  ⟨x.rows, out_features, fun i j => ∑ l ∈ range x.cols, x.get i l * product m l j⟩

def contributions (info : Info) (site : Site) (modules : Modules) (x : Tensor) : List Tensor :=
  site.module_names.map fun name => contribution x (info.out_dims name) (modules name)

variable {info : Info} {rank : Nat} {site : Site} {modules : Modules} {x : Tensor}

/-- A block of `fused_A` and its block of `fused_B`. -/
def block (info : Info) (rank : Nat) (site : Site) (modules : Modules) (name : ModuleName) :
    Tensor × Nat × Tensor :=
  match modules name with
  | some m => (m.lora_A.t.mul m.scaling, info.out_dims name, m.lora_B.t)
  | none => (.zeros (info.in_features site) rank, info.out_dims name,
      .zeros rank (info.out_dims name))

theorem A_weights_eq :
    A_weights site modules (·.scaling) (info.in_features site) rank =
      (site.module_names.map (block info rank site modules)).map (·.1) := by
  unfold A_weights
  rw [List.map_map]
  refine List.map_congr_left fun name _ => ?_
  simp only [Function.comp_apply, block]
  cases modules name <;> rfl

theorem B_weights_eq :
    B_weights site modules info.out_dims rank =
      (site.module_names.map (block info rank site modules)).map (·.2) := by
  unfold B_weights
  rw [List.map_map]
  refine List.map_congr_left fun name _ => ?_
  simp only [Function.comp_apply, block]
  cases modules name <;> rfl

theorem block_shape (hShaped : Shaped info rank site modules) {name : ModuleName}
    (hName : name ∈ site.module_names) :
    let b := block info rank site modules name
    (b.1.rows = info.in_features site ∧ b.1.cols = rank) ∧
      b.2.1 = info.out_dims name ∧ b.2.2.rows = rank ∧ b.2.2.cols = info.out_dims name := by
  simp only [block]
  cases hModule : modules name with
  | none => exact ⟨⟨rfl, rfl⟩, rfl, rfl, rfl⟩
  | some m =>
      obtain ⟨⟨hRank, hIn⟩, hOut, hRank'⟩ := hShaped name hName m hModule
      exact ⟨⟨hIn, hRank⟩, rfl, hRank', hOut⟩

theorem weigh_block (hShaped : Shaped info rank site modules) {name : ModuleName}
    (hName : name ∈ site.module_names) :
    x.weigh rank (block info rank site modules name) =
      contribution x (info.out_dims name) (modules name) := by
  simp only [block]
  cases hModule : modules name with
  | none => simp [Tensor.weigh, contribution, product]
  | some m =>
      obtain ⟨⟨hRank, -⟩, -⟩ := hShaped name hName m hModule
      simp [Tensor.weigh, contribution, product, hRank]

/-- The fused tensors are those of the modules, as the builder and the swap concatenate them. -/
structure Carries (info : Info) (rank : Nat) (site : Site) (modules : Modules) (fl : FusedLoRA) :
    Prop where
  out_dims : fl.out_dims = info.out_dims
  fused_A : Tensor.cat (A_weights site modules (·.scaling) (info.in_features site) rank) =
    .ok fl.fused_A
  fused_B : Tensor.block_diagonal rank (B_weights site modules info.out_dims rank) = .ok fl.fused_B

theorem A_weights_rows (hShaped : Shaped info rank site modules) :
    ∀ A ∈ A_weights site modules (·.scaling) (info.in_features site) rank,
      A.rows = info.in_features site := by
  rw [A_weights_eq, List.map_map, List.forall_mem_map]
  exact fun name hName => (block_shape hShaped hName).1.1

theorem block_cols (hShaped : Shaped info rank site modules) :
    ∀ b ∈ site.module_names.map (block info rank site modules), b.1.cols = rank := by
  rw [List.forall_mem_map]
  exact fun name hName => (block_shape hShaped hName).1.2

theorem A_weights_cols (hShaped : Shaped info rank site modules) :
    ((A_weights site modules (·.scaling) (info.in_features site) rank).map Tensor.cols).sum =
      rank * site.module_names.length := by
  rw [A_weights_eq, Tensor.cols_eq_of_blocks (block_cols hShaped), List.length_map]

theorem B_weights_shape (hShaped : Shaped info rank site modules) :
    ∀ b ∈ B_weights site modules info.out_dims rank, b.2.rows = rank ∧ b.2.cols = b.1 := by
  rw [B_weights_eq, List.map_map, List.forall_mem_map]
  intro name hName
  obtain ⟨-, hWidth, hRows, hCols⟩ := block_shape hShaped hName
  exact ⟨hRows, hCols.trans hWidth.symm⟩

theorem B_weights_widths :
    (B_weights site modules info.out_dims rank).map (·.1) = site.module_names.map info.out_dims := by
  unfold B_weights
  rw [List.map_map]
  refine List.map_congr_left fun name _ => ?_
  simp only [Function.comp_apply]
  cases modules name <;> rfl

theorem length_B_weights :
    (B_weights site modules info.out_dims rank).length = site.module_names.length :=
  List.length_map _

theorem Carries.rows {fl : FusedLoRA} (h : Carries info rank site modules fl)
    (hShaped : Shaped info rank site modules) : fl.fused_A.rows = info.in_features site := by
  obtain ⟨hSome, hRows⟩ := Tensor.cat_ok_iff.mp ⟨_, h.fused_A, rfl⟩
  obtain ⟨A, hMem⟩ := List.exists_mem_of_ne_nil _ hSome
  rw [← hRows A hMem, A_weights_rows hShaped A hMem]

/-- The deltas of a fused site are those of its modules. -/
theorem Carries.forward {fl : FusedLoRA} (h : Carries info rank site modules fl)
    (hShaped : Shaped info rank site modules) (hx : x.cols = info.in_features site) :
    fl.forward site x = .ok (contributions info site modules x) := by
  have hA := h.fused_A
  have hB := h.fused_B
  rw [A_weights_eq] at hA
  rw [B_weights_eq] at hB
  have hSplit := Tensor.split_mul_block_diagonal hA hB (block_cols hShaped)
    (hx.trans (h.rows hShaped).symm)
  have hSizes : (site.module_names.map (block info rank site modules)).map (·.2.1) =
      site.module_names.map fl.out_dims := by
    rw [List.map_map, h.out_dims]
    exact List.map_congr_left fun name hName => (block_shape hShaped hName).2.1
  rw [hSizes, List.map_map] at hSplit
  refine hSplit.trans (congrArg Except.ok (List.map_congr_left fun name hName => ?_))
  exact weigh_block hShaped hName

theorem get_contribution {out_features i j : Nat} {m : Option (FastLoRAModule Tensor)}
    (hi : i < x.rows) (hj : j < out_features) :
    (contribution x out_features m).get i j = ∑ l ∈ range x.cols, x.get i l * product m l j :=
  dif_pos ⟨hi, hj⟩

/-- The delta of a site that is not fused is that of its module. -/
theorem delta_eq {l : SyncRemoteLoRALinear} {m : FastLoRAModule Tensor} {out_features : Nat}
    (hA : l.lora_A.weight = m.lora_A) (hB : l.lora_B.weight = m.lora_B)
    (hScaling : l.scaling = m.scaling) (hx : x.cols = m.lora_A.cols)
    (hRank : m.lora_B.cols = m.lora_A.rows) (hOut : m.lora_B.rows = out_features) :
    l.delta x = .ok [contribution x out_features (some m)] := by
  obtain ⟨y, hy, hRowsY, hColsY, hGetY⟩ := Tensor.matmul_ok (y := m.lora_A.t) hx
  obtain ⟨z, hz, hRowsZ, hColsZ, hGetZ⟩ := Tensor.matmul_ok (x := y) (y := m.lora_B.t)
    (hColsY.trans hRank.symm)
  unfold SyncRemoteLoRALinear.delta Linear.forward
  rw [hA, hB, hScaling]
  simp only [hy, hz, bind, Except.bind, pure, Except.pure]
  congr 2
  refine Tensor.ext_get (hRowsZ.trans hRowsY) (hColsZ.trans hOut) fun i hi j hj => ?_
  have hi : i < x.rows := hi.trans_eq (hRowsZ.trans hRowsY)
  have hj : j < out_features := hj.trans_eq (hColsZ.trans hOut)
  rw [get_contribution hi hj, Tensor.get_mul, hGetZ, hColsY]
  simp only [hGetY, Tensor.get_t, product, sum_mul, mul_sum]
  rw [sum_comm]
  refine sum_congr rfl fun l _ => sum_congr rfl fun k _ => ?_
  ring

end Contributions

end Worker.AdapterManager
