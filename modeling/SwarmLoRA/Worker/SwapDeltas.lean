import SwarmLoRA.Worker.Deltas

namespace Worker.AdapterManager

open Data HotSwap Machine Finset

section Contributions

variable {info : Info} {site : Site} {x : Tensor}

/-- Without a module there is no contribution. -/
theorem contribution_none (out_features : Nat) :
    contribution x out_features none = .zeros x.rows out_features := by
  simp [contribution, product, Tensor.zeros]

/-- The contribution depends on the product of the weights only. -/
theorem contribution_congr {out_features : Nat} {m m' : Option (FastLoRAModule Tensor)}
    (h : ∀ l < x.cols, ∀ j < out_features, product m l j = product m' l j) :
    contribution x out_features m = contribution x out_features m' := by
  unfold contribution
  congr
  funext i j
  exact sum_congr rfl fun l hl => by rw [h l (mem_range.mp hl) j j.isLt]

/-- An input that reads one row of a product off. -/
def unit_row (cols l : Nat) : Tensor := ⟨1, cols, fun _ j => if (j : Nat) = l then 1 else 0⟩

/-- A one at one place, zeros elsewhere. -/
theorem get_unit_row {cols l j : Nat} (hj : j < cols) :
    (unit_row cols l).get 0 j = if j = l then 1 else 0 :=
  Tensor.get_of_lt (x := unit_row cols l) Nat.one_pos hj

/-- The input that is one at a place reads off a row of the product. -/
theorem contribution_unit_row {cols out_features l j : Nat} (hl : l < cols) (hj : j < out_features)
    (m : Option (FastLoRAModule Tensor)) :
    (contribution (unit_row cols l) out_features m).get 0 j = product m l j := by
  rw [get_contribution Nat.one_pos hj]
  change ∑ k ∈ range cols, _ = _
  have hTerm : ∀ k ∈ range cols, (unit_row cols l).get 0 k * product m k j =
      if k = l then product m l j else 0 := by
    intro k hk
    rw [get_unit_row (mem_range.mp hk)]
    split
    · rename_i hSame
      rw [one_mul, hSame]
    · rw [zero_mul]
  rw [sum_congr rfl hTerm, sum_ite_eq' (range cols) l, if_pos (mem_range.mpr hl)]

/-- The modules make the same of every input of the site. -/
def SameProducts (info : Info) (site : Site) (modules modules' : Modules) : Prop :=
  ∀ name ∈ site.module_names, ∀ l < info.in_features site, ∀ j < info.out_dims name,
    product (modules name) l j = product (modules' name) l j

/-- Two sets of modules contribute the same to every input if their products are the same. -/
theorem contributions_eq_iff {modules modules' : Modules} :
    (∀ x : Tensor, x.cols = info.in_features site →
        contributions info site modules x = contributions info site modules' x) ↔
      SameProducts info site modules modules' := by
  constructor
  · intro hSame name hName l hl j hj
    have hRow := List.map_inj_left.mp (hSame (unit_row (info.in_features site) l) rfl) name hName
    rw [← contribution_unit_row hl hj, ← contribution_unit_row hl hj, hRow]
  · intro hSame x hx
    refine List.map_congr_left fun name hName => contribution_congr ?_
    rw [hx]
    exact hSame name hName

/-- What there is has its own products. -/
theorem SameProducts.refl {modules : Modules} : SameProducts info site modules modules :=
  fun _ _ _ _ _ _ => rfl

/-- What a model is built with has the products of the adapter, also where nothing is built. -/
theorem same_products_build {modules : Modules} :
    SameProducts info site ((Container.build modules site).getD fun _ => none) modules := by
  intro name hName l _ j _
  have hSame : (Container.build modules site).getD (fun _ => none) name = modules name :=
    List.map_inj_left.mp Container.weights_build name hName
  rw [hSame]

end Contributions

section Sites

variable {info : Info} {rank : Nat} {site : Site} {modules new : Modules}

/-- A site without valid modules is one that the adapter does not have. -/
theorem valid_modules_eq_nil_iff : valid_modules site modules = [] ↔ modules.any site = false := by
  unfold valid_modules Modules.any
  rw [List.filterMap_eq_nil_iff, List.any_eq_false]
  exact forall₂_congr fun name _ => Option.not_isSome_iff_eq_none.symm

/-- The shape of a valid module is that of the site. -/
theorem Shaped.of_valid {first : FastLoRAModule Tensor} {rest : List (FastLoRAModule Tensor)}
    (hShaped : Shaped info rank site modules) (hValid : valid_modules site modules = first :: rest) :
    first.lora_A.rows = rank ∧ first.lora_A.cols = info.in_features site := by
  have hMem : first ∈ valid_modules site modules := hValid ▸ List.mem_cons_self ..
  obtain ⟨name, hName, hModule⟩ := List.mem_filterMap.mp hMem
  exact (hShaped name hName first hModule).1

/-- Modules of the right shapes fit the site. -/
theorem Shaped.fits (hShaped : Shaped info rank site modules) : ModulesFit info site modules := by
  intro first hFirst
  obtain ⟨rest, hValid⟩ := List.head?_eq_some_iff.mp hFirst
  obtain ⟨hRank, hIn⟩ := hShaped.of_valid hValid
  rw [hRank, hIn]
  exact ⟨A_weights_rows hShaped, B_weights_shape hShaped⟩

/-- The new B weights fit the blocks. -/
theorem B_weights_fit {fl : FusedLoRA} (hCarries : Carries info rank site modules fl)
    (hShaped : Shaped info rank site new) :
    fl.fused_B.BlocksFit rank (B_weights site new info.out_dims rank) := by
  obtain ⟨hRows, hCols⟩ := Tensor.shape_of_block_diagonal hCarries.fused_B
  refine ⟨B_weights_shape hShaped, ?_, ?_⟩
  · rw [hRows, length_B_weights, length_B_weights]
  · rw [hCols, B_weights_widths, B_weights_widths]

/-- The new A weights fit the rows. -/
theorem A_weights_fit {fl : FusedLoRA} (hCarries : Carries info rank site modules fl)
    (hOld : Shaped info rank site modules) (hShaped : Shaped info rank site new) :
    fl.fused_A.CatFits (A_weights site new (·.scaling) (info.in_features site) rank) := by
  refine ⟨fun A hA => ?_, ?_⟩
  · rw [A_weights_rows hShaped A hA, hCarries.rows hOld]
  · rw [A_weights_cols hShaped, Tensor.cols_eq_of_cat hCarries.fused_A, A_weights_cols hOld]

/-- Scalings that agree on the modules give the same weights. -/
theorem A_weights_congr {scaling : FastLoRAModule Tensor → ℚ} {in_features : Nat}
    (hScaling : ∀ name, ∀ m ∈ modules name, m.scaling = scaling m) :
    A_weights site modules (·.scaling) in_features rank =
      A_weights site modules scaling in_features rank := by
  unfold A_weights
  refine List.map_congr_left fun name _ => ?_
  cases hModule : modules name with
  | none => rfl
  | some m =>
      dsimp only
      rw [hScaling name m hModule]

/-- The fused tensors are those of modules of the rank. -/
structure FusedLoRA.Holds (info : Info) (rank : Nat) (site : Site) (fl : FusedLoRA)
    (modules : Modules) : Prop where
  shaped : Shaped info rank site modules
  carries : Carries info rank site modules fl

/-- A fused site that is made again for the new adapter holds it. -/
theorem FusedLoRA.holds_recreate {object : Nat} {entry : Option FusedLoRA}
    (hShaped : Shaped info rank site new) :
    (recreate_fused info object site new entry).2 = none ∧
      Option.Rel (FusedLoRA.Holds info rank site) (recreate_fused info object site new entry).1
        (Container.build new site) := by
  unfold recreate_fused Container.build
  cases hValid : valid_modules site new with
  | nil =>
      rw [valid_modules_eq_nil_iff.mp hValid]
      exact ⟨rfl, .none⟩
  | cons first rest =>
      obtain ⟨fl, hNew⟩ : ∃ fl, FusedLoRA.new site new object info.out_dims first = .ok fl :=
        (FusedLoRA.new_ok_iff hValid).mpr hShaped.fits
      obtain ⟨-, hDims, hA, hB⟩ := FusedLoRA.of_new hNew
      obtain ⟨hRank, hIn⟩ := hShaped.of_valid hValid
      rw [hRank, hIn] at hA
      rw [hRank] at hB
      have hAny : new.any site = true := by
        rw [← Bool.not_eq_false, ← valid_modules_eq_nil_iff, hValid]
        exact List.cons_ne_nil _ _
      dsimp only
      rw [hNew, hAny]
      exact ⟨rfl, .some ⟨hShaped, hDims, hA, hB⟩⟩

/-- An update keeps what is there where the new adapter has no module for the site. -/
theorem FusedLoRA.Holds.update {new_scaling : ℚ} {fl : FusedLoRA}
    (h : fl.Holds info rank site modules) (hShaped : Shaped info rank site new)
    (hScaling : ∀ name, ∀ m ∈ new name, m.scaling = new_scaling) :
    (fl.update site new new_scaling).2 = none ∧
      (fl.update site new new_scaling).1.Holds info rank site
        (if new.any site then new else modules) := by
  unfold FusedLoRA.update
  cases hValid : valid_modules site new with
  | nil =>
      rw [valid_modules_eq_nil_iff.mp hValid]
      exact ⟨rfl, h⟩
  | cons first rest =>
      have hAny : new.any site = true := by
        rw [← Bool.not_eq_false, ← valid_modules_eq_nil_iff, hValid]
        exact List.cons_ne_nil _ _
      obtain ⟨hRank, -⟩ := hShaped.of_valid hValid
      obtain ⟨fused_A, hCat, hCopyA⟩ := Tensor.exists_copy_cat (A_weights_ne_nil _ _ _ _ _)
        (A_weights_fit h.carries h.shaped hShaped)
      obtain ⟨fused_B, hBlocks, hCopyB⟩ := Tensor.exists_copy_block_diagonal
        (B_weights_fit h.carries hShaped)
      rw [A_weights_congr hScaling] at hCopyA
      dsimp only
      rw [hRank, h.carries.rows h.shaped, h.carries.out_dims, hCopyA]
      dsimp only
      rw [hCopyB, hAny]
      exact ⟨rfl, hShaped, rfl, hCat, hBlocks⟩

variable {name : ModuleName} {l : SyncRemoteLoRALinear}

/-- The weights of a site that is not fused make what the module makes. -/
structure SyncRemoteLoRALinear.Holds (info : Info) (rank : Nat) (site : Site) (name : ModuleName)
    (l : SyncRemoteLoRALinear) (modules : Modules) : Prop where
  shaped : Shaped info rank site fun _ => some ⟨l.lora_A.weight, l.lora_B.weight, l.scaling⟩
  product : ∀ i j, product (some ⟨l.lora_A.weight, l.lora_B.weight, l.scaling⟩) i j =
    product (modules name) i j

/-- A single site whose tensors are those of a module holds it. -/
theorem SyncRemoteLoRALinear.holds_of_module {m : FastLoRAModule Tensor}
    (hNames : site.module_names = [name]) (hShaped : Shaped info rank site modules)
    (hModule : modules name = some m) (hA : l.lora_A.weight = m.lora_A)
    (hB : l.lora_B.weight = m.lora_B) (hScaling : l.scaling = m.scaling) :
    l.Holds info rank site name modules := by
  constructor
  · intro name' hName _ hEntry
    obtain rfl := Option.some.inj hEntry
    rw [hNames, List.mem_singleton] at hName
    subst hName
    rw [hA, hB]
    exact hShaped name' (hNames ▸ List.mem_singleton_self _) m hModule
  · intro i j
    rw [hModule, hA, hB, hScaling]

/-- A single site that is built holds what it was built from. -/
theorem SyncRemoteLoRALinear.holds_build (hNames : site.module_names = [name])
    (hShaped : Shaped info rank site new) :
    Option.Rel (SyncRemoteLoRALinear.Holds info rank site name)
      ((new name).map (SyncRemoteLoRALinear.new 0)) (Container.build new site) := by
  unfold Container.build Modules.any
  rw [hNames, List.any_cons, List.any_nil, Bool.or_false]
  cases hModule : new name with
  | none => exact .none
  | some m => exact .some (holds_of_module hNames hShaped hModule rfl rfl rfl)

/-- An update of a single site raises nothing and leaves the new weights, or those it had where
the adapter has none. -/
theorem SyncRemoteLoRALinear.Holds.update {new_scaling : ℚ}
    (hNames : site.module_names = [name]) (h : l.Holds info rank site name modules)
    (hShaped : Shaped info rank site new)
    (hScaling : ∀ name, ∀ m ∈ new name, m.scaling = new_scaling) :
    (l.update (new name) new_scaling).2 = none ∧
      (l.update (new name) new_scaling).1.Holds info rank site name
        (if new.any site then new else modules) := by
  unfold SyncRemoteLoRALinear.update Modules.any
  rw [hNames, List.any_cons, List.any_nil, Bool.or_false]
  cases hModule : new name with
  | none => exact ⟨rfl, h⟩
  | some m =>
      have hName : name ∈ site.module_names := hNames ▸ List.mem_singleton_self _
      obtain ⟨⟨hRowsA, hColsA⟩, hRowsB, hColsB⟩ := hShaped name hName m hModule
      obtain ⟨⟨hRowsA', hColsA'⟩, hRowsB', hColsB'⟩ := h.shaped name hName _ rfl
      have hCopyA : l.lora_A.weight.copy_ m.lora_A = .ok m.lora_A :=
        copy_of_sameShape ⟨hRowsA'.trans hRowsA.symm, hColsA'.trans hColsA.symm⟩
      have hCopyB : l.lora_B.weight.copy_ m.lora_B = .ok m.lora_B :=
        copy_of_sameShape ⟨hRowsB'.trans hRowsB.symm, hColsB'.trans hColsB.symm⟩
      dsimp only
      rw [hCopyA]
      dsimp only
      rw [hCopyB]
      exact ⟨rfl, holds_of_module hNames hShaped hModule rfl rfl (hScaling name m hModule).symm⟩

/-- What a change of the rank leaves: the module of the new adapter, or zeros in the old shape. -/
theorem SyncRemoteLoRALinear.Holds.recreate {old_rank object : Nat} {new_scaling : ℚ}
    (hNames : site.module_names = [name]) (h : l.Holds info old_rank site name modules)
    (hShaped : Shaped info rank site new)
    (hScaling : ∀ name, ∀ m ∈ new name, m.scaling = new_scaling) :
    ∃ rank, (l.zero_.recreate object (new name) new_scaling).Holds info rank site name
      (if new.any site then new else fun _ => none) := by
  unfold SyncRemoteLoRALinear.recreate Modules.any
  rw [hNames, List.any_cons, List.any_nil, Bool.or_false]
  cases hModule : new name with
  | some m =>
      exact ⟨rank, holds_of_module hNames hShaped hModule rfl rfl (hScaling name m hModule).symm⟩
  | none =>
      refine ⟨old_rank, fun name' hName _ hEntry => ?_, fun i j => ?_⟩
      · obtain rfl := Option.some.inj hEntry
        -- Zeroing keeps the shapes.
        have hOld := h.shaped name' hName _ rfl
        exact hOld
      · refine sum_eq_zero fun k _ => ?_
        change l.lora_A.weight.zero_.get k i * _ * _ = 0
        rw [Tensor.get_zero_, zero_mul, zero_mul]

/-- The delta of a single site is the contribution of its module. -/
theorem SyncRemoteLoRALinear.Holds.delta {x : Tensor} (h : l.Holds info rank site name modules)
    (hNames : site.module_names = [name]) (hx : x.cols = info.in_features site) :
    l.delta x = .ok (contributions info site modules x) := by
  have hName : name ∈ site.module_names := hNames ▸ List.mem_singleton_self _
  obtain ⟨⟨hRowsA, hColsA⟩, hRowsB, hColsB⟩ := h.shaped name hName _ rfl
  rw [delta_eq rfl rfl rfl (hx.trans hColsA.symm) (hColsB.trans hRowsA.symm) hRowsB]
  unfold contributions
  rw [hNames, List.map_cons, List.map_nil]
  exact congrArg (fun t => Except.ok [t]) (contribution_congr fun i _ j _ => h.product i j)

end Sites

section Entries

/-- The entry of a site in terms of the modules that it stands for. -/
def Holds (info : Info) (rank : Nat) : (p : Nat × Site) → Entry p → Container Tensor → Prop
  | (_, .fused_qkv), entry, c => Option.Rel (FusedLoRA.Holds info rank .fused_qkv) entry c
  | (_, .fused_gate_up), entry, c => Option.Rel (FusedLoRA.Holds info rank .fused_gate_up) entry c
  | (_, .o_proj), entry, c => Option.Rel (SyncRemoteLoRALinear.Holds info rank .o_proj .o_proj) entry c
  | (_, .down_proj), entry, c =>
      Option.Rel (SyncRemoteLoRALinear.Holds info rank .down_proj .down_proj) entry c

variable {info : Info} {rank : Nat} {x : Tensor}

/-- All modules of an adapter have its scaling. -/
theorem scaling_of_get_lora_module (new : Adapter) (layer_idx : Nat) :
    ∀ name, ∀ m ∈ new.get_lora_module layer_idx name, m.scaling = new.scaling := by
  intro name m hModule
  obtain ⟨tensors, -, rfl⟩ := Option.map_eq_some_iff.mp hModule
  rfl

/-- Without modules every output is zero. -/
theorem contributions_none (site : Site) :
    contributions info site (fun _ => none) x =
      site.module_names.map fun name => .zeros x.rows (info.out_dims name) :=
  List.map_congr_left fun _ _ => contribution_none _

/-- The deltas that a site computes are the contributions of what it holds. -/
theorem Holds.deltas {p : Nat × Site} {entry : Entry p} {c : Container Tensor}
    (h : Holds info rank p entry c) (hx : x.cols = info.in_features p.2) :
    deltas info x p entry = .ok (contributions info p.2 (c.getD fun _ => none) x) := by
  obtain ⟨layer_idx, site⟩ := p
  cases site with
  | fused_qkv =>
      cases h with
      | none => exact congrArg Except.ok (contributions_none .fused_qkv).symm
      | some hHolds => exact hHolds.carries.forward hHolds.shaped hx
  | fused_gate_up =>
      cases h with
      | none => exact congrArg Except.ok (contributions_none .fused_gate_up).symm
      | some hHolds => exact hHolds.carries.forward hHolds.shaped hx
  | o_proj =>
      cases h with
      | none => exact congrArg Except.ok (contributions_none .o_proj).symm
      | some hHolds => exact hHolds.delta rfl hx
  | down_proj =>
      cases h with
      | none => exact congrArg Except.ok (contributions_none .down_proj).symm
      | some hHolds => exact hHolds.delta rfl hx

/-- A site that is built raises nothing and holds the adapter's modules. -/
theorem build_site_holds (new : LoRAAdapter info) (p : Nat × Site) (entry : Entry p) :
    (build_site new.toAdapter info p entry).2 = none ∧
      Holds info new.r p (build_site new.toAdapter info p entry).1
        (.build (new.get_lora_module p.1) p.2) := by
  obtain ⟨layer_idx, site⟩ := p
  have hShaped := new.shaped layer_idx site
  cases site with
  | fused_qkv => exact FusedLoRA.holds_recreate hShaped
  | fused_gate_up => exact FusedLoRA.holds_recreate hShaped
  | o_proj => exact ⟨rfl, SyncRemoteLoRALinear.holds_build rfl hShaped⟩
  | down_proj => exact ⟨rfl, SyncRemoteLoRALinear.holds_build rfl hShaped⟩

/-- A site that is updated raises nothing and holds what the container holds after the update. -/
theorem update_site_holds (new : LoRAAdapter info) {p : Nat × Site} {entry : Entry p}
    {c : Container Tensor} (h : Holds info new.r p entry c) :
    (update_site new.toAdapter p entry).2 = none ∧
      Holds info new.r p (update_site new.toAdapter p entry).1
        (c.update (new.get_lora_module p.1) p.2) := by
  obtain ⟨layer_idx, site⟩ := p
  have hShaped := new.shaped layer_idx site
  have hScaling := scaling_of_get_lora_module new.toAdapter layer_idx
  cases site with
  | fused_qkv =>
      cases h with
      | none => exact ⟨rfl, .none⟩
      | some hHolds =>
          obtain ⟨hOk, hNew⟩ := hHolds.update hShaped hScaling
          exact ⟨hOk, .some hNew⟩
  | fused_gate_up =>
      cases h with
      | none => exact ⟨rfl, .none⟩
      | some hHolds =>
          obtain ⟨hOk, hNew⟩ := hHolds.update hShaped hScaling
          exact ⟨hOk, .some hNew⟩
  | o_proj =>
      cases h with
      | none => exact ⟨rfl, .none⟩
      | some hHolds =>
          obtain ⟨hOk, hNew⟩ := hHolds.update rfl hShaped hScaling
          exact ⟨hOk, .some hNew⟩
  | down_proj =>
      cases h with
      | none => exact ⟨rfl, .none⟩
      | some hHolds =>
          obtain ⟨hOk, hNew⟩ := hHolds.update rfl hShaped hScaling
          exact ⟨hOk, .some hNew⟩

/-- A site that is made again raises nothing and holds what the container holds then. -/
theorem recreate_site_holds (new : LoRAAdapter info) (object : Nat) {p : Nat × Site}
    {entry : Entry p} {c : Container Tensor} (h : Holds info rank p entry c) :
    let recreated := recreate_site new.toAdapter info object p (zero_site p entry).1
    recreated.2 = none ∧
      ∃ rank, Holds info rank p recreated.1 (c.zero.recreate (new.get_lora_module p.1) p.2) := by
  obtain ⟨layer_idx, site⟩ := p
  have hShaped := new.shaped layer_idx site
  have hScaling := scaling_of_get_lora_module new.toAdapter layer_idx
  cases site with
  | fused_qkv =>
      obtain ⟨hOk, hNew⟩ := FusedLoRA.holds_recreate hShaped
      exact ⟨hOk, new.r, hNew⟩
  | fused_gate_up =>
      obtain ⟨hOk, hNew⟩ := FusedLoRA.holds_recreate hShaped
      exact ⟨hOk, new.r, hNew⟩
  | o_proj =>
      cases h with
      | none => exact ⟨rfl, rank, .none⟩
      | some hHolds =>
          obtain ⟨rank, hNew⟩ := hHolds.recreate rfl hShaped hScaling
          exact ⟨rfl, rank, .some hNew⟩
  | down_proj =>
      cases h with
      | none => exact ⟨rfl, rank, .none⟩
      | some hHolds =>
          obtain ⟨rank, hNew⟩ := hHolds.recreate rfl hShaped hScaling
          exact ⟨rfl, rank, .some hNew⟩

end Entries

/-- What a swap makes of the modules of a site. -/
def swapped (old new : Adapter) (p : Nat × Site) : Container Tensor :=
  let c := Container.build (old.get_lora_module p.1) p.2
  if old.r = new.r then c.update (new.get_lora_module p.1) p.2
  else c.zero.recreate (new.get_lora_module p.1) p.2

/-- After a swap that succeeds, the model has the deltas of one that is built for the new
adapter. -/
def SwapLikeBuild (info : Info) (a b : LoRAAdapter info) : Prop :=
  ∀ files id_a id_b, files id_a = .ok a.toAdapter → files id_b = .ok b.toAdapter →
    ∀ model built s, build_hollow_model info files id_a = .ok model →
      build_hollow_model info files id_b = .ok built →
        swap_adapter info files id_b (set_adapter model id_a a.toAdapter) = (s, none) →
          ∀ p ∈ sites info.num_layers, ∀ x : Tensor, x.cols = info.in_features p.2 →
            deltas info x p (s.model p) = deltas info x p (built p)

section Swap

variable {info : Info} {files : AdapterId → Except String Adapter} {id_a id_b : AdapterId}

/-- The adapter is read as it is in its file. -/
theorem load_ok (new : LoRAAdapter info) (hFile : files id_a = .ok new.toAdapter) :
    load_lora_fast files id_a = .ok new.toAdapter := by
  unfold load_lora_fast
  rw [hFile]
  exact if_neg new.rank_pos.ne'

/-- Building a model succeeds, and every site of it holds the adapter. -/
theorem build_hollow_model_ok (new : LoRAAdapter info) (hFile : files id_a = .ok new.toAdapter) :
    ∃ model, build_hollow_model info files id_a = .ok model ∧ ∀ p ∈ sites info.num_layers,
      Holds info new.r p (model p) (.build (new.get_lora_module p.1) p.2) := by
  have hSite := fun p => build_site_holds new p none
  obtain ⟨model, hWalk, hModel⟩ := exists_walk (sites_nodup info.num_layers)
    fun p (_ : p ∈ sites info.num_layers) => (hSite p).1
  refine ⟨model, ?_, fun p hMem => ?_⟩
  · unfold build_hollow_model
    rw [load_ok new hFile]
    simp only [bind, Except.bind, hWalk]
    rfl
  · rw [hModel p hMem]
    exact (hSite p).2

/-- A swap of well-formed adapters succeeds. -/
theorem swap_adapter_ok (old_id : AdapterId) {a b : LoRAAdapter info} {model : Model}
    (hModel : ∀ p ∈ sites info.num_layers,
      Holds info a.r p (model p) (.build (a.get_lora_module p.1) p.2))
    (hFile : files id_b = .ok b.toAdapter) :
    ∃ s, swap_adapter info files id_b (set_adapter model old_id a.toAdapter) = (s, none) ∧
      ∀ p ∈ sites info.num_layers,
        ∃ rank, Holds info rank p (s.model p) (swapped a.toAdapter b.toAdapter p) := by
  unfold swap_adapter swapped
  rw [load_ok b hFile]
  dsimp only [set_adapter]
  by_cases hRank : a.r = b.r
  · rw [hRank] at hModel
    have hSite := fun p hMem => update_site_holds b (hModel p hMem)
    obtain ⟨t, hWalk, hNew⟩ := exists_walk (sites_nodup _) fun p hMem => (hSite p hMem).1
    simp only [hRank, ne_eq, not_true_eq_false, false_and, if_false, if_true, update_lora_weights,
      hWalk]
    refine ⟨_, rfl, fun p hMem => ⟨b.r, ?_⟩⟩
    change Holds info b.r p (t p) _
    rw [hNew p hMem]
    exact (hSite p hMem).2
  · have hSite : ∀ p ∈ sites info.num_layers,
        let recreated := recreate_site b.toAdapter info (fresh_id info.num_layers model) p
          (zero_lora_modules info model p)
        recreated.2 = none ∧ ∃ rank, Holds info rank p recreated.1
          ((Container.build (a.get_lora_module p.1) p.2).zero.recreate (b.get_lora_module p.1)
            p.2) := by
      intro p hMem
      rw [zero_lora_modules_apply hMem]
      exact recreate_site_holds b _ (hModel p hMem)
    obtain ⟨t, hWalk, hNew⟩ := exists_walk (sites_nodup _) fun p hMem => (hSite p hMem).1
    simp only [hRank, ne_eq, not_false_eq_true, a.rank_pos.ne', true_and, if_false, if_true,
      recreate_lora_modules, hWalk]
    refine ⟨_, rfl, fun p hMem => ?_⟩
    change ∃ rank, Holds info rank p (t p) _
    rw [hNew p hMem]
    exact (hSite p hMem).2

/-- A swap is like a build if at every site the products are the same. -/
theorem swap_like_build_iff_products {a b : LoRAAdapter info} :
    SwapLikeBuild info a b ↔ ∀ p ∈ sites info.num_layers,
      SameProducts info p.2 ((swapped a.toAdapter b.toAdapter p).getD fun _ => none)
        (b.get_lora_module p.1) := by
  have hSite : ∀ {p : Nat × Site} {rank : Nat} {entry entry' : Entry p},
      Holds info rank p entry (swapped a.toAdapter b.toAdapter p) →
      Holds info b.r p entry' (.build (b.get_lora_module p.1) p.2) →
      ((∀ x : Tensor, x.cols = info.in_features p.2 →
          deltas info x p entry = deltas info x p entry') ↔
        SameProducts info p.2 ((swapped a.toAdapter b.toAdapter p).getD fun _ => none)
          (b.get_lora_module p.1)) := by
    intro p rank entry entry' hSwapped hBuilt
    rw [← contributions_eq_iff]
    refine forall₂_congr fun x hx => ?_
    rw [hSwapped.deltas hx, hBuilt.deltas hx, contributions_eq_iff.mpr same_products_build x hx,
      Except.ok.injEq]
  constructor
  · intro hSwap p hMem
    let files : AdapterId → Except String Adapter := fun adapter_id =>
      if adapter_id = "a" then .ok a.toAdapter else .ok b.toAdapter
    have hFileA : files "a" = .ok a.toAdapter := if_pos rfl
    have hFileB : files "b" = .ok b.toAdapter := if_neg (by decide)
    obtain ⟨model, hBuildA, hModel⟩ := build_hollow_model_ok a hFileA
    obtain ⟨built, hBuildB, hBuilt⟩ := build_hollow_model_ok b hFileB
    obtain ⟨s, hOk, hSwapped⟩ := swap_adapter_ok "a" hModel hFileB
    obtain ⟨rank, hHolds⟩ := hSwapped p hMem
    exact (hSite hHolds (hBuilt p hMem)).mp
      (hSwap files "a" "b" hFileA hFileB model built s hBuildA hBuildB hOk p hMem)
  · intro hProducts files id_a id_b hFileA hFileB model built s hBuildA hBuildB hOk p hMem
    obtain ⟨model', hBuildA', hModel⟩ := build_hollow_model_ok a hFileA
    obtain ⟨built', hBuildB', hBuilt⟩ := build_hollow_model_ok b hFileB
    obtain rfl : model' = model := Except.ok.inj (hBuildA'.symm.trans hBuildA)
    obtain rfl : built' = built := Except.ok.inj (hBuildB'.symm.trans hBuildB)
    obtain ⟨s', hOk', hSwapped⟩ := swap_adapter_ok id_a hModel hFileB
    obtain rfl : s' = s := congrArg Prod.fst (hOk'.symm.trans hOk)
    obtain ⟨rank, hHolds⟩ := hSwapped p hMem
    exact (hSite hHolds (hBuilt p hMem)).mpr (hProducts p hMem)

end Swap

/-- The modules of a site add nothing but zeros. -/
def NoEffect (info : Info) (site : Site) (modules : Modules) : Prop :=
  ∀ name ∈ site.module_names, ∀ l < info.in_features site, ∀ j < info.out_dims name,
    product (modules name) l j = 0

/-- Modules that only the new adapter has are in place: the site is fused and the rank changes.
Modules that only the old adapter has are gone: the rank changes. There may also be modules that
make no difference. -/
structure Replaced (info : Info) (a b : LoRAAdapter info) (p : Nat × Site) : Prop where
  added : (a.get_lora_module p.1).any p.2 = false → (b.get_lora_module p.1).any p.2 = true →
    (a.r ≠ b.r ∧ p.2.fused = true) ∨ NoEffect info p.2 (b.get_lora_module p.1)
  removed : (a.get_lora_module p.1).any p.2 = true → (b.get_lora_module p.1).any p.2 = false →
    a.r ≠ b.r ∨ NoEffect info p.2 (a.get_lora_module p.1)

section Replaced

variable {info : Info} {site : Site} {modules modules' : Modules}

/-- An adapter without the site has no products there. -/
theorem product_of_not_any (h : modules.any site = false) :
    ∀ name ∈ site.module_names, ∀ l j, product (modules name) l j = 0 := by
  intro name hName l j
  have hNone : modules name = none :=
    List.map_inj_left.mp (Container.map_none_of_not_any h) name hName
  rw [hNone]
  rfl

/-- Where the new adapter lacks the site, the old one must have had no effect. -/
theorem same_products_of_not_any (h : modules'.any site = false) :
    SameProducts info site modules modules' ↔ NoEffect info site modules := by
  refine forall₂_congr fun name hName => forall₂_congr fun l _ => forall₂_congr fun j _ => ?_
  rw [product_of_not_any h name hName]

/-- A site that holds nothing has the products of modules without effect. -/
theorem same_products_none :
    SameProducts info site (fun _ => none) modules ↔ NoEffect info site modules :=
  forall₂_congr fun _ _ => forall₂_congr fun _ _ => forall₂_congr fun _ _ => eq_comm

/-- What is not there has no effect. -/
theorem no_effect_of_not_any (h : modules.any site = false) : NoEffect info site modules :=
  fun name hName l _ j _ => product_of_not_any h name hName l j

variable {a b : LoRAAdapter info} {p : Nat × Site}

/-- A site that the old adapter lacks is made only if it is fused and the ranks differ. -/
theorem swapped_of_absent (hOld : (a.get_lora_module p.1).any p.2 = false) :
    swapped a.toAdapter b.toAdapter p =
      if a.r ≠ b.r ∧ p.2.fused = true then Container.build (b.get_lora_module p.1) p.2
      else none := by
  have hBuild : Container.build (a.get_lora_module p.1) p.2 = none := by
    unfold Container.build
    rw [hOld]
    rfl
  unfold swapped
  rw [hBuild]
  by_cases hRank : a.r = b.r
  · simp only [hRank, if_true, ne_eq, not_true_eq_false, false_and, if_false]
    rfl
  · simp only [hRank, if_false, ne_eq, not_false_eq_true, true_and]
    rfl

/-- At a site that the old adapter has, the new modules replace the old ones, unless they are
missing and the rank is the same. -/
theorem swapped_of_present (hOld : (a.get_lora_module p.1).any p.2 = true) :
    SameProducts info p.2 ((swapped a.toAdapter b.toAdapter p).getD fun _ => none)
        (b.get_lora_module p.1) ↔
      SameProducts info p.2
        (if (b.get_lora_module p.1).any p.2 then b.get_lora_module p.1
          else if a.r = b.r then a.get_lora_module p.1 else fun _ => none)
        (b.get_lora_module p.1) := by
  have hBuild : Container.build (a.get_lora_module p.1) p.2 = some (a.get_lora_module p.1) := by
    unfold Container.build
    rw [hOld]
    rfl
  unfold swapped
  rw [hBuild]
  by_cases hRank : a.r = b.r
  · simp only [hRank, if_true]
    rfl
  · simp only [hRank, if_false]
    unfold Container.recreate
    cases hFused : p.2.fused with
    | false => exact Iff.rfl
    | true =>
        refine iff_of_true same_products_build ?_
        cases hNew : (b.get_lora_module p.1).any p.2 with
        | true => exact SameProducts.refl
        | false => exact same_products_none.mpr (no_effect_of_not_any hNew)

/-- What has to hold at a site, in terms of the two adapters. -/
theorem same_products_swapped_iff :
    SameProducts info p.2 ((swapped a.toAdapter b.toAdapter p).getD fun _ => none)
        (b.get_lora_module p.1) ↔ Replaced info a b p := by
  cases hOld : (a.get_lora_module p.1).any p.2 with
  | false =>
      rw [swapped_of_absent hOld]
      have hRemoved : (a.get_lora_module p.1).any p.2 = true →
          (b.get_lora_module p.1).any p.2 = false →
            a.r ≠ b.r ∨ NoEffect info p.2 (a.get_lora_module p.1) := by
        intro hAny
        rw [hOld] at hAny
        cases hAny
      split
      · rename_i hMade
        exact iff_of_true same_products_build ⟨fun _ _ => .inl hMade, hRemoved⟩
      · rename_i hMade
        refine same_products_none.trans ⟨fun hNone => ⟨fun _ _ => .inr hNone, hRemoved⟩, ?_⟩
        intro hReplaced
        cases hNew : (b.get_lora_module p.1).any p.2 with
        | false => exact no_effect_of_not_any hNew
        | true => exact (hReplaced.added hOld hNew).resolve_left hMade
  | true =>
      rw [swapped_of_present hOld]
      have hAdded : (a.get_lora_module p.1).any p.2 = false →
          (b.get_lora_module p.1).any p.2 = true →
            (a.r ≠ b.r ∧ p.2.fused = true) ∨ NoEffect info p.2 (b.get_lora_module p.1) := by
        intro hAny
        rw [hOld] at hAny
        cases hAny
      cases hNew : (b.get_lora_module p.1).any p.2 with
      | true =>
          refine iff_of_true SameProducts.refl ⟨hAdded, fun _ hAny => ?_⟩
          rw [hNew] at hAny
          cases hAny
      | false =>
          rw [if_neg Bool.false_ne_true, same_products_of_not_any hNew]
          split
          · rename_i hRank
            refine ⟨fun hNone => ⟨hAdded, fun _ _ => .inr hNone⟩, fun hReplaced => ?_⟩
            exact (hReplaced.removed hOld hNew).resolve_left fun hNe => hNe hRank
          · rename_i hRank
            exact iff_of_true (fun _ _ _ _ _ _ => rfl) ⟨hAdded, fun _ _ => .inl hRank⟩

/-- A swap is like building the model with the new adapter if and only if, at every site, no module
of the new adapter is ignored and none of the old one stays, except for modules that add nothing but
zeros. Only a fused site whose rank changes is built anew; elsewhere the update fills the places
there are. -/
theorem swap_like_build_iff :
    SwapLikeBuild info a b ↔ ∀ p ∈ sites info.num_layers, Replaced info a b p := by
  rw [swap_like_build_iff_products]
  exact forall₂_congr fun p _ => same_products_swapped_iff

end Replaced

/-- One layer with a module of rank 1 and nothing else. -/
def one_module (name : ModuleName) : LoRAAdapter one_info where
  r := 1
  lora_alpha := none
  lora_layers _ name' := if name' = name then some (one_by_one 1, one_by_one 1) else none
  rank_pos := Nat.one_pos
  shaped := by
    intro layer_idx site name' _ m hModule
    simp only [Adapter.get_lora_module] at hModule
    obtain ⟨tensors, hTensors, rfl⟩ := Option.map_eq_some_iff.mp hModule
    obtain ⟨-, hSome⟩ := Option.ite_none_right_eq_some.mp hTensors
    obtain rfl := Option.some.inj hSome
    refine ⟨⟨rfl, ?_⟩, ?_, rfl⟩
    · cases site <;> rfl
    · cases name' <;> rfl

/-- There is no place for the only module of the new adapter. -/
theorem module_ignored : ¬ SwapLikeBuild one_info (one_module .o_proj) (one_module .down_proj) := by
  rw [swap_like_build_iff_products]
  intro hProducts
  have hDown := hProducts (0, .down_proj) (by decide) .down_proj (by decide) 0 (by decide) 0
    (by decide)
  exact absurd hDown (by decide +kernel)

end Worker.AdapterManager
