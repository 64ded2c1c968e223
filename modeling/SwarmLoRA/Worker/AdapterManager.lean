import SwarmLoRA.Data.Tensor
import SwarmLoRA.Machine.Walk
import SwarmLoRA.Worker.HotSwap

namespace Worker.AdapterManager

open Data HotSwap Machine

abbrev Modules := HotSwap.Modules Tensor

abbrev Adapter := HotSwap.Adapter Tensor

/-- An `nn.Linear`. `id` is its identity as an object. -/
structure Linear where
  id : Nat
  weight : Tensor

structure SyncRemoteLoRALinear where
  lora_A : Linear
  lora_B : Linear
  scaling : ℚ

/-- One is only made where there is a module for it, so `has_lora` is always true. -/
structure FusedLoRA where
  id : Nat
  out_dims : ModuleName → Nat
  fused_A : Tensor
  fused_B : Tensor

/-- The sizes in the info of the aggregator. -/
structure Info where
  num_layers : Nat
  hidden_size : Nat
  num_heads : Nat
  num_kv_heads : Nat
  intermediate_size : Nat

/-- `qkv_dims` and `gate_up_dims`, and the sizes of the outputs that are not fused. -/
def Info.out_dims (info : Info) : ModuleName → Nat
  | .q_proj | .o_proj | .down_proj => info.hidden_size
  | .k_proj | .v_proj => info.hidden_size / info.num_heads * info.num_kv_heads
  | .gate_proj | .up_proj => info.intermediate_size

section Fused

variable (site : Site) (modules : Modules)

def valid_modules : List (FastLoRAModule Tensor) := site.module_names.filterMap modules

/-- The blocks of `fused_A`, zeros for a module that is not there. -/
def A_weights (scaling : FastLoRAModule Tensor → ℚ) (in_features rank : Nat) : List Tensor :=
  site.module_names.map fun name =>
    match modules name with
    | some m => m.lora_A.t.mul (scaling m)
    | none => .zeros in_features rank

/-- The blocks of `fused_B` with their widths. -/
def B_weights (out_dims : ModuleName → Nat) (rank : Nat) : List (Nat × Tensor) :=
  site.module_names.map fun name =>
    match modules name with
    | some m => (out_dims name, m.lora_B.t)
    | none => (out_dims name, .zeros rank (out_dims name))

namespace FusedLoRA

/-- `__init__`. -/
def new (id : Nat) (out_dims : ModuleName → Nat) (first : FastLoRAModule Tensor) :
    Except String FusedLoRA := do
  let rank := first.lora_A.rows
  let in_features := first.lora_A.cols
  let fused_A ← Tensor.cat (A_weights site modules (·.scaling) in_features rank)
  let fused_B ← Tensor.block_diagonal rank (B_weights site modules out_dims rank)
  return { id, out_dims, fused_A, fused_B }

variable (new_scaling : ℚ) (fused_lora : FusedLoRA)

/-- `_update_fused_lora`. The first tensor is written before the second one is put together. -/
def update : FusedLoRA × Option String :=
  match valid_modules site modules with
  | [] => (fused_lora, none)
  | first :: _ =>
      let rank := first.lora_A.rows
      let in_features := fused_lora.fused_A.rows
      match Tensor.cat (A_weights site modules (fun _ => new_scaling) in_features rank) >>=
          fused_lora.fused_A.copy_ with
      | .error error => (fused_lora, some error)
      | .ok fused_A =>
          let fused_lora := { fused_lora with fused_A }
          match Tensor.block_diagonal rank (B_weights site modules fused_lora.out_dims rank) >>=
              fused_lora.fused_B.copy_ with
          | .error error => (fused_lora, some error)
          | .ok fused_B => ({ fused_lora with fused_B }, none)

def zero_ : FusedLoRA :=
  { fused_lora with
    fused_A := fused_lora.fused_A.zero_
    fused_B := fused_lora.fused_B.zero_ }

end FusedLoRA

end Fused

namespace SyncRemoteLoRALinear

variable (sync_lora : SyncRemoteLoRALinear)

/-- `_update_single_lora`. -/
def update (new_module : Option (FastLoRAModule Tensor)) (new_scaling : ℚ) :
    SyncRemoteLoRALinear × Option String :=
  match new_module with
  | none => (sync_lora, none)
  | some m =>
      match sync_lora.lora_A.weight.copy_ m.lora_A with
      | .error error => (sync_lora, some error)
      | .ok weight =>
          let sync_lora := { sync_lora with lora_A := { sync_lora.lora_A with weight } }
          match sync_lora.lora_B.weight.copy_ m.lora_B with
          | .error error => (sync_lora, some error)
          | .ok weight =>
              ({ sync_lora with
                lora_B := { sync_lora.lora_B with weight }
                scaling := new_scaling }, none)

def zero_ : SyncRemoteLoRALinear where
  lora_A := { sync_lora.lora_A with weight := sync_lora.lora_A.weight.zero_ }
  lora_B := { sync_lora.lora_B with weight := sync_lora.lora_B.weight.zero_ }
  scaling := sync_lora.scaling

/-- The module of the new adapter takes the place of the one that is there. -/
def recreate (id : Nat) (new_module : Option (FastLoRAModule Tensor)) (new_scaling : ℚ) :
    SyncRemoteLoRALinear :=
  match new_module with
  | none => sync_lora
  | some m => { lora_A := ⟨id, m.lora_A⟩, lora_B := ⟨id, m.lora_B⟩, scaling := new_scaling }

end SyncRemoteLoRALinear

/-- What a site holds that has LoRA weights. -/
def Held : Site → Type
  | .fused_qkv | .fused_gate_up => FusedLoRA
  | .o_proj | .down_proj => SyncRemoteLoRALinear

abbrev Entry (p : Nat × Site) : Type := Option (Held p.2)

abbrev Model : Type := (p : Nat × Site) → Entry p

/-- The objects of an entry. -/
def ids : (p : Nat × Site) → Entry p → List Nat
  | (_, .fused_qkv), some (fl : FusedLoRA) | (_, .fused_gate_up), some (fl : FusedLoRA) => [fl.id]
  | (_, .o_proj), some (l : SyncRemoteLoRALinear)
  | (_, .down_proj), some (l : SyncRemoteLoRALinear) => [l.lora_A.id, l.lora_B.id]
  | _, none => []

/-- An object that is new has none of the identities in use. -/
def fresh_id (num_layers : Nat) (model : Model) : Nat :=
  ((sites num_layers).flatMap fun p => ids p (model p)).foldr max 0 + 1

section Sites

variable (new : Adapter)

/-- A site in `_update_lora_weights`. -/
def update_site : Update Entry String
  | (layer_idx, .fused_qkv), some (fl : FusedLoRA) =>
      (fl.update .fused_qkv (new.get_lora_module layer_idx) new.scaling).map some id
  | (layer_idx, .fused_gate_up), some (fl : FusedLoRA) =>
      (fl.update .fused_gate_up (new.get_lora_module layer_idx) new.scaling).map some id
  | (layer_idx, .o_proj), some (l : SyncRemoteLoRALinear) =>
      (l.update (new.get_lora_module layer_idx .o_proj) new.scaling).map some id
  | (layer_idx, .down_proj), some (l : SyncRemoteLoRALinear) =>
      (l.update (new.get_lora_module layer_idx .down_proj) new.scaling).map some id
  | _, none => (none, none)

/-- A site in `_zero_lora_modules`. -/
def zero_site : Update Entry String
  | (_, .fused_qkv), some (fl : FusedLoRA) | (_, .fused_gate_up), some (fl : FusedLoRA) =>
      (some fl.zero_, none)
  | (_, .o_proj), some (l : SyncRemoteLoRALinear)
  | (_, .down_proj), some (l : SyncRemoteLoRALinear) => (some l.zero_, none)
  | _, none => (none, none)

/-- A fused site in `_recreate_lora_modules`. -/
def recreate_fused (info : Info) (id : Nat) (site : Site) (modules : Modules)
    (entry : Option FusedLoRA) : Option FusedLoRA × Option String :=
  match valid_modules site modules with
  | [] => (none, none)
  | first :: _ =>
      match FusedLoRA.new site modules id info.out_dims first with
      | .error error => (entry, some error)
      | .ok fused_lora => (some fused_lora, none)

/-- A site in `_recreate_lora_modules`. -/
def recreate_site (info : Info) (id : Nat) : Update Entry String
  | (layer_idx, .fused_qkv), entry =>
      recreate_fused info id .fused_qkv (new.get_lora_module layer_idx) entry
  | (layer_idx, .fused_gate_up), entry =>
      recreate_fused info id .fused_gate_up (new.get_lora_module layer_idx) entry
  | (layer_idx, .o_proj), some (l : SyncRemoteLoRALinear) =>
      (some (l.recreate id (new.get_lora_module layer_idx .o_proj) new.scaling), none)
  | (layer_idx, .down_proj), some (l : SyncRemoteLoRALinear) =>
      (some (l.recreate id (new.get_lora_module layer_idx .down_proj) new.scaling), none)
  | (_, .o_proj), none | (_, .down_proj), none => (none, none)

end Sites

structure LoRAConfig where
  r : Nat
  lora_alpha : Option ℚ

/-- The adapter manager and the LoRA part of its model. What a swap of another adapter has done
before it raises stays done. -/
structure State where
  model : Model
  current_adapter_id : Option AdapterId := none
  current_rank : Nat := 0
  current_config : Option LoRAConfig := none

/-- The files of an adapter may be missing or malformed, and a rank of zero raises as well. -/
def load_lora_fast (files : AdapterId → Except String Adapter) (lora_path : AdapterId) :
    Except String Adapter := do
  let adapter ← files lora_path
  if adapter.r = 0 then throw "division by zero" else return adapter

section Swap

variable (info : Info) (new : Adapter) (model : Model)

def update_lora_weights : Model × Option String :=
  walk (update_site new) (sites info.num_layers) model

def zero_lora_modules : Model := (walk zero_site (sites info.num_layers) model).1

def recreate_lora_modules : Model × Option String :=
  walk (recreate_site new info (fresh_id info.num_layers model)) (sites info.num_layers)
    (zero_lora_modules info model)

/-- The rest of `swap_adapter`, from what the update of the modules leaves. -/
def conclude (new_adapter_id : AdapterId) (s : State) : Model × Option String →
    State × Option String
  | (model, some error) => ({ s with model }, some error)
  | (model, none) =>
      ({ model
         current_adapter_id := some new_adapter_id
         current_rank := new.r
         current_config := some ⟨new.r, new.lora_alpha⟩ }, none)

/-- The state after `swap_adapter`, and the error if it returns `success = False`. -/
def swap_adapter (files : AdapterId → Except String Adapter) (new_adapter_id : AdapterId)
    (s : State) : State × Option String :=
  match load_lora_fast files new_adapter_id with
  | .error error => (s, some error)
  | .ok new =>
      let rank_changed := s.current_rank ≠ new.r ∧ s.current_rank ≠ 0
      conclude new new_adapter_id s
        (if rank_changed then recreate_lora_modules info new s.model
        else update_lora_weights info new s.model)

end Swap

end Worker.AdapterManager
