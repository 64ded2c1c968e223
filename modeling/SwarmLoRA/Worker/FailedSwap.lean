import SwarmLoRA.Worker.AdapterManager

namespace Worker.AdapterManager

open Data HotSwap Machine

section Fused

variable (site : Site) (modules : Modules) (new_scaling : ℚ) (fused_lora : FusedLoRA)

/-- The new tensors have the shapes of the ones that are there. -/
def FusedLoRA.Fits : Prop :=
  match valid_modules site modules with
  | [] => True
  | first :: _ =>
      fused_lora.fused_A.CatFits
          (A_weights site modules (fun _ => new_scaling) fused_lora.fused_A.rows
            first.lora_A.rows) ∧
        fused_lora.fused_B.BlocksFit first.lora_A.rows
          (B_weights site modules fused_lora.out_dims first.lora_A.rows)

/-- As far as the new tensors fit, they are the ones that are there. -/
def FusedLoRA.Spared : Prop :=
  match valid_modules site modules with
  | [] => True
  | first :: _ =>
      let A := A_weights site modules (fun _ => new_scaling) fused_lora.fused_A.rows
        first.lora_A.rows
      let B := B_weights site modules fused_lora.out_dims first.lora_A.rows
      fused_lora.fused_A.CatFits A →
        Tensor.cat A = .ok fused_lora.fused_A ∧
          (fused_lora.fused_B.BlocksFit first.lora_A.rows B →
            Tensor.block_diagonal first.lora_A.rows B = .ok fused_lora.fused_B)

/-- There is a weight for every module of the site, zeros where the adapter has none. -/
theorem A_weights_ne_nil (scaling : FastLoRAModule Tensor → ℚ) (in_features rank : Nat) :
    A_weights site modules scaling in_features rank ≠ [] := by
  cases site <;> exact List.cons_ne_nil _ _

variable {site modules new_scaling fused_lora}

/-- An update of a fused site raises nothing exactly if the tensors fit. -/
theorem FusedLoRA.update_ok_iff :
    (fused_lora.update site modules new_scaling).2 = none ↔
      fused_lora.Fits site modules new_scaling := by
  unfold FusedLoRA.update FusedLoRA.Fits
  cases valid_modules site modules with
  | nil => simp
  | cons first rest =>
      dsimp only
      cases hA : Tensor.cat (A_weights site modules (fun _ => new_scaling) fused_lora.fused_A.rows
          first.lora_A.rows) >>= fused_lora.fused_A.copy_ with
      | error e =>
          refine iff_of_false (by simp) ?_
          rintro ⟨hFits, -⟩
          obtain ⟨z, -, hOk⟩ := Tensor.exists_copy_cat (A_weights_ne_nil _ _ _ _ _) hFits
          rw [hA] at hOk
          cases hOk
      | ok fused_A =>
          have hFitsA := ((Tensor.copy_cat_ok_iff (A_weights_ne_nil _ _ _ _ _)).mp hA).1
          dsimp only
          cases hB : Tensor.block_diagonal first.lora_A.rows
              (B_weights site modules fused_lora.out_dims first.lora_A.rows) >>=
                fused_lora.fused_B.copy_ with
          | error e =>
              refine iff_of_false (by simp) ?_
              rintro ⟨-, hFits⟩
              obtain ⟨z, -, hOk⟩ := Tensor.exists_copy_block_diagonal hFits
              rw [hB] at hOk
              cases hOk
          | ok fused_B =>
              exact iff_of_true rfl ⟨hFitsA, (Tensor.copy_block_diagonal_ok_iff.mp hB).1⟩

/-- And it leaves the site as it was exactly if it comes to nothing. -/
theorem FusedLoRA.update_eq_self_iff :
    (fused_lora.update site modules new_scaling).1 = fused_lora ↔
      fused_lora.Spared site modules new_scaling := by
  unfold FusedLoRA.update FusedLoRA.Spared
  cases valid_modules site modules with
  | nil => simp
  | cons first rest =>
      dsimp only
      cases hA : Tensor.cat (A_weights site modules (fun _ => new_scaling) fused_lora.fused_A.rows
          first.lora_A.rows) >>= fused_lora.fused_A.copy_ with
      | error e =>
          refine iff_of_true rfl fun hFits => ?_
          obtain ⟨z, -, hOk⟩ := Tensor.exists_copy_cat (A_weights_ne_nil _ _ _ _ _) hFits
          rw [hA] at hOk
          cases hOk
      | ok fused_A =>
          obtain ⟨hFitsA, hCat⟩ := (Tensor.copy_cat_ok_iff (A_weights_ne_nil _ _ _ _ _)).mp hA
          rw [hCat]
          dsimp only
          cases hB : Tensor.block_diagonal first.lora_A.rows
              (B_weights site modules fused_lora.out_dims first.lora_A.rows) >>=
                fused_lora.fused_B.copy_ with
          | error e =>
              constructor
              · intro hSame _
                refine ⟨congrArg (fun fl => Except.ok fl.fused_A) hSame, fun hFits => ?_⟩
                obtain ⟨z, -, hOk⟩ := Tensor.exists_copy_block_diagonal hFits
                rw [hB] at hOk
                cases hOk
              · intro hSpared
                have hSame := Except.ok.inj (hSpared hFitsA).1
                rw [hSame]
          | ok fused_B =>
              obtain ⟨hFitsB, hBlocks⟩ := Tensor.copy_block_diagonal_ok_iff.mp hB
              rw [hBlocks]
              constructor
              · intro hSame _
                exact ⟨congrArg (fun fl => Except.ok fl.fused_A) hSame,
                  fun _ => congrArg (fun fl => Except.ok fl.fused_B) hSame⟩
              · intro hSpared
                obtain ⟨hSameA, hSameB⟩ := hSpared hFitsA
                have hSameB := Except.ok.inj (hSameB hFitsB)
                rw [Except.ok.inj hSameA, hSameB]

end Fused

section Single

variable (sync_lora : SyncRemoteLoRALinear) (new_module : Option (FastLoRAModule Tensor))
  (new_scaling : ℚ)

/-- The two tensors have the same number of rows and of columns. -/
def SameShape (x y : Tensor) : Prop := x.rows = y.rows ∧ x.cols = y.cols

/-- The tensors of the new module have the shapes of those that are there. -/
def SyncRemoteLoRALinear.Fits : Prop :=
  ∀ m ∈ new_module, SameShape sync_lora.lora_A.weight m.lora_A ∧
    SameShape sync_lora.lora_B.weight m.lora_B

/-- As far as it gets, the update writes what is there already. -/
def SyncRemoteLoRALinear.Spared : Prop :=
  ∀ m ∈ new_module, SameShape sync_lora.lora_A.weight m.lora_A →
    m.lora_A = sync_lora.lora_A.weight ∧
      (SameShape sync_lora.lora_B.weight m.lora_B →
        m.lora_B = sync_lora.lora_B.weight ∧ new_scaling = sync_lora.scaling)

variable {sync_lora new_module new_scaling}

/-- A copy between tensors of one shape succeeds. -/
theorem copy_of_sameShape {x y : Tensor} (h : SameShape x y) : x.copy_ y = .ok y :=
  Tensor.ok_of_copy_iff.mpr ⟨h, rfl⟩

/-- Between others it raises. -/
theorem copy_of_not_sameShape {x y : Tensor} (h : ¬ SameShape x y) : ∃ e, x.copy_ y = .error e := by
  cases hCopy : x.copy_ y with
  | error e => exact ⟨e, rfl⟩
  | ok z => exact absurd (Tensor.ok_of_copy_iff.mp hCopy).1 h

/-- An update of a single site raises nothing exactly if the tensors fit. -/
theorem SyncRemoteLoRALinear.update_ok_iff :
    (sync_lora.update new_module new_scaling).2 = none ↔ sync_lora.Fits new_module := by
  unfold SyncRemoteLoRALinear.update SyncRemoteLoRALinear.Fits
  cases new_module with
  | none => simp
  | some m =>
      simp only [Option.mem_some_iff, forall_eq']
      by_cases hA : SameShape sync_lora.lora_A.weight m.lora_A
      · rw [copy_of_sameShape hA]
        by_cases hB : SameShape sync_lora.lora_B.weight m.lora_B
        · simp [copy_of_sameShape hB, hA, hB]
        · obtain ⟨e, hError⟩ := copy_of_not_sameShape hB
          simp [hError, hB]
      · obtain ⟨e, hError⟩ := copy_of_not_sameShape hA
        simp [hError, hA]

/-- And it leaves the site as it was exactly if it comes to nothing. -/
theorem SyncRemoteLoRALinear.update_eq_self_iff :
    (sync_lora.update new_module new_scaling).1 = sync_lora ↔
      sync_lora.Spared new_module new_scaling := by
  obtain ⟨⟨id_A, A⟩, ⟨id_B, B⟩, scaling⟩ := sync_lora
  unfold SyncRemoteLoRALinear.update SyncRemoteLoRALinear.Spared
  cases new_module with
  | none => simp
  | some m =>
      simp only [Option.mem_some_iff, forall_eq']
      by_cases hA : SameShape A m.lora_A
      · rw [copy_of_sameShape hA]
        by_cases hB : SameShape B m.lora_B
        · simp [copy_of_sameShape hB, hA, hB]
        · obtain ⟨e, hError⟩ := copy_of_not_sameShape hB
          simp [hError, hA, hB]
      · obtain ⟨e, hError⟩ := copy_of_not_sameShape hA
        simp [hError, hA]

end Single

section Sites

variable (info : Info) (new : Adapter)

/-- A site where an update in place does not raise. -/
def UpdateFits : (p : Nat × Site) → Entry p → Prop
  | (layer_idx, .fused_qkv), some (fl : FusedLoRA) =>
      fl.Fits .fused_qkv (new.get_lora_module layer_idx) new.scaling
  | (layer_idx, .fused_gate_up), some (fl : FusedLoRA) =>
      fl.Fits .fused_gate_up (new.get_lora_module layer_idx) new.scaling
  | (layer_idx, .o_proj), some (l : SyncRemoteLoRALinear) =>
      l.Fits (new.get_lora_module layer_idx .o_proj)
  | (layer_idx, .down_proj), some (l : SyncRemoteLoRALinear) =>
      l.Fits (new.get_lora_module layer_idx .down_proj)
  | _, none => True

/-- A site where an update in place writes, as far as it gets, what is there. -/
def UpdateSpares : (p : Nat × Site) → Entry p → Prop
  | (layer_idx, .fused_qkv), some (fl : FusedLoRA) =>
      fl.Spared .fused_qkv (new.get_lora_module layer_idx) new.scaling
  | (layer_idx, .fused_gate_up), some (fl : FusedLoRA) =>
      fl.Spared .fused_gate_up (new.get_lora_module layer_idx) new.scaling
  | (layer_idx, .o_proj), some (l : SyncRemoteLoRALinear) =>
      l.Spared (new.get_lora_module layer_idx .o_proj) new.scaling
  | (layer_idx, .down_proj), some (l : SyncRemoteLoRALinear) =>
      l.Spared (new.get_lora_module layer_idx .down_proj) new.scaling
  | _, none => True

/-- The tensors of a site fit each other and the sizes of the model. -/
def ModulesFit (site : Site) (modules : Modules) : Prop :=
  ∀ first ∈ (valid_modules site modules).head?,
    (∀ A ∈ A_weights site modules (·.scaling) first.lora_A.cols first.lora_A.rows,
      A.rows = first.lora_A.cols) ∧
    ∀ b ∈ B_weights site modules info.out_dims first.lora_A.rows,
      b.2.rows = first.lora_A.rows ∧ b.2.cols = b.1

/-- A site that is made anew without an error. -/
def RecreateFits (p : Nat × Site) : Prop :=
  p.2.fused = true → ModulesFit info p.2 (new.get_lora_module p.1)

/-- Nothing at the site gives way to the new adapter: there is no module in either, or the
modules of a fused site do not fit. -/
def RecreateSpares : (p : Nat × Site) → Entry p → Prop
  | (layer_idx, .fused_qkv), entry =>
      (valid_modules .fused_qkv (new.get_lora_module layer_idx) = [] → entry = none) ∧
        (ModulesFit info .fused_qkv (new.get_lora_module layer_idx) →
          valid_modules .fused_qkv (new.get_lora_module layer_idx) = [])
  | (layer_idx, .fused_gate_up), entry =>
      (valid_modules .fused_gate_up (new.get_lora_module layer_idx) = [] → entry = none) ∧
        (ModulesFit info .fused_gate_up (new.get_lora_module layer_idx) →
          valid_modules .fused_gate_up (new.get_lora_module layer_idx) = [])
  | (layer_idx, .o_proj), entry =>
      entry = none ∨ new.get_lora_module layer_idx .o_proj = none
  | (layer_idx, .down_proj), entry =>
      entry = none ∨ new.get_lora_module layer_idx .down_proj = none

variable {info new}

/-- An update of a site raises nothing exactly if what is there fits. -/
theorem update_site_ok_iff (p : Nat × Site) (entry : Entry p) :
    (update_site new p entry).2 = none ↔ UpdateFits new p entry := by
  obtain ⟨layer_idx, site⟩ := p
  cases entry with
  | none => cases site <;> exact iff_of_true rfl trivial
  | some held =>
      cases site with
      | fused_qkv => exact FusedLoRA.update_ok_iff
      | fused_gate_up => exact FusedLoRA.update_ok_iff
      | o_proj => exact SyncRemoteLoRALinear.update_ok_iff
      | down_proj => exact SyncRemoteLoRALinear.update_ok_iff

/-- It leaves the site as it was exactly if it comes to nothing. -/
theorem update_site_eq_self_iff (p : Nat × Site) (entry : Entry p) :
    (update_site new p entry).1 = entry ↔ UpdateSpares new p entry := by
  obtain ⟨layer_idx, site⟩ := p
  cases entry with
  | none => cases site <;> exact iff_of_true rfl trivial
  | some held =>
      cases site with
      | fused_qkv => exact Option.some_inj.trans FusedLoRA.update_eq_self_iff
      | fused_gate_up => exact Option.some_inj.trans FusedLoRA.update_eq_self_iff
      | o_proj => exact Option.some_inj.trans SyncRemoteLoRALinear.update_eq_self_iff
      | down_proj => exact Option.some_inj.trans SyncRemoteLoRALinear.update_eq_self_iff

/-- What a fused site is made of. -/
theorem FusedLoRA.of_new {site : Site} {modules : Modules} {object : Nat}
    {first : FastLoRAModule Tensor} {fl : FusedLoRA}
    (hNew : FusedLoRA.new site modules object info.out_dims first = .ok fl) :
    fl.id = object ∧ fl.out_dims = info.out_dims ∧
      Tensor.cat (A_weights site modules (·.scaling) first.lora_A.cols first.lora_A.rows) =
        .ok fl.fused_A ∧
      Tensor.block_diagonal first.lora_A.rows
        (B_weights site modules info.out_dims first.lora_A.rows) = .ok fl.fused_B := by
  simp only [FusedLoRA.new] at hNew
  cases hCat : Tensor.cat
      (A_weights site modules (·.scaling) first.lora_A.cols first.lora_A.rows) with
  | error e =>
      rw [hCat] at hNew
      cases hNew
  | ok fused_A =>
      rw [hCat] at hNew
      cases hBlocks : Tensor.block_diagonal first.lora_A.rows
          (B_weights site modules info.out_dims first.lora_A.rows) with
      | error e =>
          simp only [hBlocks] at hNew
          cases hNew
      | ok fused_B =>
          simp only [hBlocks] at hNew
          obtain rfl := Except.ok.inj hNew
          exact ⟨rfl, rfl, rfl, rfl⟩

/-- A fused site can be made exactly if its modules fit together. -/
theorem FusedLoRA.new_ok_iff {site : Site} {modules : Modules} {object : Nat}
    {first : FastLoRAModule Tensor} {rest : List (FastLoRAModule Tensor)}
    (hValid : valid_modules site modules = first :: rest) :
    (∃ fl, FusedLoRA.new site modules object info.out_dims first = .ok fl) ↔
      ModulesFit info site modules := by
  have hFirst : ∃ A ∈ A_weights site modules (·.scaling) first.lora_A.cols first.lora_A.rows,
      A.rows = first.lora_A.cols := by
    have hMem : first ∈ valid_modules site modules := hValid ▸ List.mem_cons_self ..
    obtain ⟨name, hName, hModule⟩ := List.mem_filterMap.mp hMem
    refine ⟨first.lora_A.t.mul first.scaling, List.mem_map.mpr ⟨name, hName, ?_⟩, rfl⟩
    rw [hModule]
  unfold ModulesFit
  rw [hValid]
  simp only [List.head?_cons, Option.mem_some_iff, forall_eq']
  constructor
  · rintro ⟨fl, hNew⟩
    obtain ⟨-, -, hCat, hBlocks⟩ := FusedLoRA.of_new hNew
    obtain ⟨-, hRows⟩ := Tensor.cat_ok_iff.mp ⟨_, hCat, rfl⟩
    obtain ⟨A, hMem, hA⟩ := hFirst
    refine ⟨fun y hy => ?_, Tensor.assign_blocks_ok_iff.mp ⟨_, hBlocks⟩⟩
    rw [hRows y hy, ← hRows A hMem, hA]
  · rintro ⟨hRows, hFits⟩
    obtain ⟨fused_A, hCat, -⟩ := Tensor.cat_ok_iff.mpr ⟨A_weights_ne_nil _ _ _ _ _, hRows⟩
    obtain ⟨fused_B, hBlocks⟩ : ∃ z, Tensor.block_diagonal first.lora_A.rows
        (B_weights site modules info.out_dims first.lora_A.rows) = .ok z :=
      Tensor.assign_blocks_ok_iff.mpr hFits
    refine ⟨{ id := object, out_dims := info.out_dims, fused_A, fused_B }, ?_⟩
    simp only [FusedLoRA.new, hCat, hBlocks]
    rfl

/-- A fused site either raises and stays, or is replaced. -/
theorem recreate_fused_cases (info : Info) (object : Nat) (site : Site) (modules : Modules)
    (entry : Option FusedLoRA) :
    (valid_modules site modules = [] ∧
        recreate_fused info object site modules entry = (none, none)) ∨
      (valid_modules site modules ≠ [] ∧ ¬ ModulesFit info site modules ∧
        ∃ e, recreate_fused info object site modules entry = (entry, some e)) ∨
      (valid_modules site modules ≠ [] ∧ ModulesFit info site modules ∧
        ∃ fl, fl.id = object ∧
          recreate_fused info object site modules entry = (some fl, none)) := by
  unfold recreate_fused
  cases hValid : valid_modules site modules with
  | nil => exact .inl ⟨rfl, rfl⟩
  | cons first rest =>
        dsimp only
        cases hNew : FusedLoRA.new site modules object info.out_dims first with
        | error e =>
            refine .inr (.inl ⟨List.cons_ne_nil _ _, fun hFits => ?_, e, rfl⟩)
            obtain ⟨fl, hOk⟩ := (FusedLoRA.new_ok_iff hValid).mpr hFits
            rw [hNew] at hOk
            cases hOk
        | ok fl =>
            exact .inr (.inr ⟨List.cons_ne_nil _ _, (FusedLoRA.new_ok_iff hValid).mp ⟨fl, hNew⟩, fl,
              (FusedLoRA.of_new hNew).1, rfl⟩)

variable {object : Nat} {site : Site} {modules : Modules} {entry : Option FusedLoRA}

/-- Making a fused site again raises nothing exactly if the modules fit. -/
theorem recreate_fused_ok_iff :
    (recreate_fused info object site modules entry).2 = none ↔ ModulesFit info site modules := by
  rcases recreate_fused_cases info object site modules entry with
    ⟨hNil, hEq⟩ | ⟨-, hMisfit, e, hEq⟩ | ⟨-, hFits, fl, -, hEq⟩
  · rw [hEq]
    refine iff_of_true rfl ?_
    unfold ModulesFit
    rw [hNil]
    simp
  · rw [hEq]
    exact iff_of_false (by simp) hMisfit
  · rw [hEq]
    exact iff_of_true rfl hFits

/-- It leaves the site as it was if there is nothing to make and nothing there, or if it raises. -/
theorem recreate_fused_eq_self_iff (hFresh : ∀ fl ∈ entry, fl.id ≠ object) :
    (recreate_fused info object site modules entry).1 = entry ↔
      (valid_modules site modules = [] → entry = none) ∧
        (ModulesFit info site modules → valid_modules site modules = []) := by
  rcases recreate_fused_cases info object site modules entry with
    ⟨hNil, hEq⟩ | ⟨hSome, hMisfit, e, hEq⟩ | ⟨hSome, hFits, fl, hId, hEq⟩
  · rw [hEq]
    constructor
    · exact fun hSame => ⟨fun _ => hSame.symm, fun _ => hNil⟩
    · exact fun h => (h.1 hNil).symm
  · rw [hEq]
    exact iff_of_true rfl ⟨fun hNil => absurd hNil hSome, fun hFits => absurd hFits hMisfit⟩
  · rw [hEq]
    refine iff_of_false ?_ fun h => hSome (h.2 hFits)
    intro hSame
    exact hFresh fl hSame.symm hId

/-- Making a site again raises nothing exactly if the modules of the new adapter fit. -/
theorem recreate_site_ok_iff (p : Nat × Site) (entry : Entry p) :
    (recreate_site new info object p entry).2 = none ↔ RecreateFits info new p := by
  obtain ⟨layer_idx, site⟩ := p
  cases site with
  | fused_qkv =>
      exact recreate_fused_ok_iff.trans ⟨fun hFits _ => hFits, fun hFits => hFits rfl⟩
  | fused_gate_up =>
      exact recreate_fused_ok_iff.trans ⟨fun hFits _ => hFits, fun hFits => hFits rfl⟩
  | o_proj => cases entry <;> exact iff_of_true rfl fun h => by cases h
  | down_proj => cases entry <;> exact iff_of_true rfl fun h => by cases h

/-- A single site that is made again is a new object. -/
theorem recreate_eq_self_iff {l : SyncRemoteLoRALinear} {m : Option (FastLoRAModule Tensor)}
    {new_scaling : ℚ} (hFresh : object ≠ l.lora_A.id) :
    l.recreate object m new_scaling = l ↔ m = none := by
  cases m with
  | none => exact iff_of_true rfl rfl
  | some m =>
      refine iff_of_false (fun hSame => hFresh ?_) (by simp)
      exact congrArg (fun l : SyncRemoteLoRALinear => l.lora_A.id) hSame

/-- Making a site again leaves it as it was exactly if it comes to nothing. -/
theorem recreate_site_eq_self_iff (p : Nat × Site) (entry : Entry p)
    (hFresh : object ∉ ids p entry) :
    (recreate_site new info object p entry).1 = entry ↔ RecreateSpares info new p entry := by
  obtain ⟨layer_idx, site⟩ := p
  cases site with
  | fused_qkv =>
      refine recreate_fused_eq_self_iff ?_
      rintro fl rfl hId
      exact hFresh (hId ▸ List.mem_singleton_self _)
  | fused_gate_up =>
      refine recreate_fused_eq_self_iff ?_
      rintro fl rfl hId
      exact hFresh (hId ▸ List.mem_singleton_self _)
  | o_proj =>
      cases entry with
      | none => exact iff_of_true rfl (.inl rfl)
      | some l =>
          refine Option.some_inj.trans ((recreate_eq_self_iff ?_).trans (by simp [RecreateSpares]))
          exact fun hId => hFresh (hId ▸ List.mem_cons_self ..)
  | down_proj =>
      cases entry with
      | none => exact iff_of_true rfl (.inl rfl)
      | some l =>
          refine Option.some_inj.trans ((recreate_eq_self_iff ?_).trans (by simp [RecreateSpares]))
          exact fun hId => hFresh (hId ▸ List.mem_cons_self ..)

/-- What zeroing and making anew leave as it was, the zeroing alone does. -/
theorem zero_of_recreate (p : Nat × Site) (entry : Entry p) (hFresh : object ∉ ids p entry)
    (hSame : (recreate_site new info object p (zero_site p entry).1).1 = entry) :
    (zero_site p entry).1 = entry := by
  obtain ⟨layer_idx, site⟩ := p
  have hFused : ∀ (site : Site) (entry : Option FusedLoRA),
      (∀ fl ∈ entry, fl.id ≠ object) →
      (recreate_fused info object site (new.get_lora_module layer_idx)
        (entry.map FusedLoRA.zero_)).1 = entry → entry.map FusedLoRA.zero_ = entry := by
    intro site entry hFresh hSame
    rcases recreate_fused_cases info object site (new.get_lora_module layer_idx)
      (entry.map FusedLoRA.zero_) with ⟨-, hEq⟩ | ⟨-, -, e, hEq⟩ | ⟨-, -, fl, hId, hEq⟩
    · rw [hEq] at hSame
      rw [← hSame]
      rfl
    · rw [hEq] at hSame
      exact hSame
    · rw [hEq] at hSame
      exact absurd hId (hFresh fl hSame.symm)
  have hSingle : ∀ (l : SyncRemoteLoRALinear) (m : Option (FastLoRAModule Tensor)),
      object ≠ l.lora_A.id → l.zero_.recreate object m new.scaling = l → l.zero_ = l := by
    intro l m hFresh hSame
    cases m with
    | none => exact hSame
    | some m =>
        exact absurd (congrArg (fun l : SyncRemoteLoRALinear => l.lora_A.id) hSame) hFresh
  cases site with
  | fused_qkv =>
      cases entry with
      | none => rfl
      | some fl =>
          refine hFused .fused_qkv (some fl) ?_ hSame
          rintro _ ⟨⟩ hId
          exact hFresh (hId ▸ List.mem_singleton_self _)
  | fused_gate_up =>
      cases entry with
      | none => rfl
      | some fl =>
          refine hFused .fused_gate_up (some fl) ?_ hSame
          rintro _ ⟨⟩ hId
          exact hFresh (hId ▸ List.mem_singleton_self _)
  | o_proj =>
      cases entry with
      | none => rfl
      | some l =>
          refine congrArg some (hSingle l _ ?_ (Option.some_inj.mp hSame))
          exact fun hId => hFresh (hId ▸ List.mem_cons_self ..)
  | down_proj =>
      cases entry with
      | none => rfl
      | some l =>
          refine congrArg some (hSingle l _ ?_ (Option.some_inj.mp hSame))
          exact fun hId => hFresh (hId ▸ List.mem_cons_self ..)

end Sites

/-- There is nothing but zeros in the tensors of a site. -/
def Zeroed : (p : Nat × Site) → Entry p → Prop
  | (_, .fused_qkv), some (fl : FusedLoRA) | (_, .fused_gate_up), some (fl : FusedLoRA) =>
      fl.fused_A.IsZero ∧ fl.fused_B.IsZero
  | (_, .o_proj), some (l : SyncRemoteLoRALinear)
  | (_, .down_proj), some (l : SyncRemoteLoRALinear) =>
      l.lora_A.weight.IsZero ∧ l.lora_B.weight.IsZero
  | _, none => True

/-- Zeroing leaves a site as it was exactly if it is zero already. -/
theorem zero_site_eq_self_iff (p : Nat × Site) (entry : Entry p) :
    (zero_site p entry).1 = entry ↔ Zeroed p entry := by
  obtain ⟨layer_idx, site⟩ := p
  have hFused : ∀ fl : FusedLoRA, fl.zero_ = fl ↔ fl.fused_A.IsZero ∧ fl.fused_B.IsZero := by
    intro fl
    rw [← Tensor.zero_eq_self_iff, ← Tensor.zero_eq_self_iff]
    exact ⟨fun h => ⟨congrArg FusedLoRA.fused_A h, congrArg FusedLoRA.fused_B h⟩,
      fun h => by unfold FusedLoRA.zero_; rw [h.1, h.2]⟩
  have hSingle : ∀ l : SyncRemoteLoRALinear,
      l.zero_ = l ↔ l.lora_A.weight.IsZero ∧ l.lora_B.weight.IsZero := by
    intro l
    rw [← Tensor.zero_eq_self_iff, ← Tensor.zero_eq_self_iff]
    exact ⟨fun h => ⟨congrArg (fun l : SyncRemoteLoRALinear => l.lora_A.weight) h,
        congrArg (fun l : SyncRemoteLoRALinear => l.lora_B.weight) h⟩,
      fun h => by unfold SyncRemoteLoRALinear.zero_; rw [h.1, h.2]⟩
  cases entry with
  | none => cases site <;> exact iff_of_true rfl trivial
  | some held =>
      cases site with
      | fused_qkv => exact Option.some_inj.trans (hFused held)
      | fused_gate_up => exact Option.some_inj.trans (hFused held)
      | o_proj => exact Option.some_inj.trans (hSingle held)
      | down_proj => exact Option.some_inj.trans (hSingle held)

/-- Every site occurs once. -/
theorem sites_nodup (num_layers : Nat) : (sites num_layers).Nodup := by
  unfold sites
  rw [List.nodup_flatMap]
  refine ⟨fun layer_idx _ => by simp, ?_⟩
  refine List.Pairwise.imp ?_ (List.nodup_range (n := num_layers))
  intro i j hNe p hi hj
  simp only [List.mem_cons, List.not_mem_nil, or_false] at hi hj
  apply hNe
  rcases hi with rfl | rfl | rfl | rfl <;> rcases hj with hj | hj | hj | hj <;>
    exact congrArg Prod.fst hj

theorem le_foldr_max {l : List Nat} {n : Nat} (hMem : n ∈ l) : n ≤ l.foldr max 0 := by
  induction l with
  | nil => exact absurd hMem List.not_mem_nil
  | cons m l ih =>
      rw [List.foldr_cons]
      rcases List.mem_cons.mp hMem with rfl | hMem
      · exact Nat.le_max_left _ _
      · exact Nat.le_trans (ih hMem) (Nat.le_max_right _ _)

/-- A new object is none of those in the model. -/
theorem fresh_id_not_mem {num_layers : Nat} {model : Model} {p : Nat × Site}
    (hMem : p ∈ sites num_layers) : fresh_id num_layers model ∉ ids p (model p) := by
  intro hId
  have hLe := le_foldr_max (List.mem_flatMap.mpr ⟨p, hMem, hId⟩ :
    fresh_id num_layers model ∈ (sites num_layers).flatMap fun p => ids p (model p))
  unfold fresh_id at hLe
  omega

section Swap

variable (info : Info) (new : Adapter) (model : Model)

/-- No tensor of the new adapter has a wrong shape. -/
def Fits (rank_changed : Prop) : Prop :=
  ∀ p ∈ sites info.num_layers,
    (rank_changed → RecreateFits info new p) ∧ (¬ rank_changed → UpdateFits new p (model p))

/-- With the same rank, whatever the update writes up to the first tensor of a wrong shape is what
is there. With another rank, there is nothing but zeros in the model, and up to the first fused
site whose modules do not fit there is no module in its place, neither in the model nor in the
adapter. -/
def Spares (rank_changed : Prop) : Prop :=
  (rank_changed → ∀ p ∈ sites info.num_layers, Zeroed p (model p)) ∧
    ∀ before p after, sites info.num_layers = before ++ p :: after →
      (rank_changed → (∀ q ∈ before, RecreateFits info new q) →
        RecreateSpares info new p (model p)) ∧
      (¬ rank_changed → (∀ q ∈ before, UpdateFits new q (model q)) →
        UpdateSpares new p (model p))

variable {info new model}

/-- The update of a whole model raises nothing exactly if every site fits. -/
theorem update_lora_weights_ok_iff :
    (update_lora_weights info new model).2 = none ↔ Fits info new model False := by
  unfold update_lora_weights Fits
  rw [walk_ok_iff (sites_nodup _)]
  simp only [update_site_ok_iff, false_imp_iff, true_and, not_false_iff, true_imp_iff]

/-- It leaves the model as it was exactly if every site is spared up to the one that raises. -/
theorem update_lora_weights_eq_self_iff :
    (update_lora_weights info new model).1 = model ↔ Spares info new model False := by
  unfold update_lora_weights Spares
  rw [walk_eq_self_iff (sites_nodup _)]
  simp only [Spared, update_site_ok_iff, update_site_eq_self_iff, false_imp_iff, true_and,
    not_false_iff, true_imp_iff]

/-- Zeroing a site raises nothing. -/
theorem zero_site_ok (p : Nat × Site) (entry : Entry p) : (zero_site p entry).2 = none := by
  obtain ⟨layer_idx, site⟩ := p
  cases entry <;> cases site <;> rfl

/-- Zeroing a model zeroes each of its sites. -/
theorem zero_lora_modules_apply {p : Nat × Site} (hMem : p ∈ sites info.num_layers) :
    zero_lora_modules info model p = (zero_site p (model p)).1 :=
  walk_apply (sites_nodup _) hMem fun q _ => zero_site_ok q _

/-- It leaves the model as it was exactly if every site is zero already. -/
theorem zero_lora_modules_eq_self_iff :
    zero_lora_modules info model = model ↔ ∀ p ∈ sites info.num_layers, Zeroed p (model p) := by
  unfold zero_lora_modules
  rw [walk_eq_self_iff (sites_nodup _)]
  simp only [← zero_site_eq_self_iff]
  constructor
  · intro h p hMem
    obtain ⟨before, after, hSplit⟩ := List.append_of_mem hMem
    exact h before p after hSplit fun q _ => zero_site_ok q _
  · intro h before p after hSplit _
    exact h p (hSplit ▸ List.mem_append_right _ (List.mem_cons_self ..))

/-- Making all the sites again raises nothing exactly if each of them fits. -/
theorem recreate_lora_modules_ok_iff :
    (recreate_lora_modules info new model).2 = none ↔ Fits info new model True := by
  unfold recreate_lora_modules Fits
  rw [walk_ok_iff (sites_nodup _)]
  simp only [recreate_site_ok_iff, true_imp_iff, not_true_eq_false, false_imp_iff, and_true]

/-- The zeroing is never undone, so there must have been nothing to zero. -/
theorem zeroed_of_recreate (hSame : (recreate_lora_modules info new model).1 = model) :
    zero_lora_modules info model = model := by
  rw [zero_lora_modules_eq_self_iff]
  intro p hMem
  rw [← zero_site_eq_self_iff]
  have hp := congrFun hSame p
  unfold recreate_lora_modules at hp
  rcases walk_cases (sites_nodup _) hMem with hCases | hCases
  · rw [hCases, zero_lora_modules_apply hMem] at hp
    exact hp
  · rw [hCases, zero_lora_modules_apply hMem] at hp
    exact zero_of_recreate p (model p) (fresh_id_not_mem hMem) hp

/-- It leaves the model as it was exactly if every site is spared up to the one that raises. -/
theorem recreate_lora_modules_eq_self_iff :
    (recreate_lora_modules info new model).1 = model ↔ Spares info new model True := by
  unfold Spares
  simp only [true_imp_iff, not_true_eq_false, false_imp_iff, and_true]
  rw [← zero_lora_modules_eq_self_iff]
  have hSpared : zero_lora_modules info model = model →
      ((recreate_lora_modules info new model).1 = model ↔
        ∀ before p after, sites info.num_layers = before ++ p :: after →
          (∀ q ∈ before, RecreateFits info new q) → RecreateSpares info new p (model p)) := by
    intro hZero
    unfold recreate_lora_modules
    rw [hZero, walk_eq_self_iff (sites_nodup _)]
    simp only [Spared, recreate_site_ok_iff]
    refine forall₄_congr fun before p after hSplit => imp_congr_right fun _ => ?_
    have hMem : p ∈ sites info.num_layers :=
      hSplit ▸ List.mem_append_right _ (List.mem_cons_self ..)
    exact recreate_site_eq_self_iff p (model p) (fresh_id_not_mem hMem)
  constructor
  · intro hSame
    exact ⟨zeroed_of_recreate hSame, (hSpared (zeroed_of_recreate hSame)).mp hSame⟩
  · rintro ⟨hZero, h⟩
    exact (hSpared hZero).mpr h

variable {s : State} {files : AdapterId → Except String Adapter} {new_adapter_id : AdapterId}

/-- A swap that fails has changed nothing exactly if its update has raised nothing or left the
model alone. -/
theorem conclude_unchanged_iff {updated : Model × Option String} :
    ((conclude new new_adapter_id s updated).2 ≠ none →
        (conclude new new_adapter_id s updated).1 = s) ↔
      updated.2 = none ∨ updated.1 = s.model := by
  obtain ⟨model, error⟩ := updated
  cases error with
  | none => simp [conclude]
  | some error =>
      simp only [conclude, ne_eq, reduceCtorEq, not_false_eq_true, forall_true_left, false_or]
      constructor
      · exact fun hSame => congrArg State.model hSame
      · rintro rfl
        rfl

/-- A swap of an adapter that loads and fails leaves everything as it was if and only if it meets
nothing to change before the tensor that it fails at. -/
theorem failed_swap_unchanged_iff :
    ((swap_adapter info files new_adapter_id s).2 ≠ none →
        (swap_adapter info files new_adapter_id s).1 = s) ↔
      ∀ new, load_lora_fast files new_adapter_id = .ok new →
        Fits info new s.model (s.current_rank ≠ new.r ∧ s.current_rank ≠ 0) ∨
          Spares info new s.model (s.current_rank ≠ new.r ∧ s.current_rank ≠ 0) := by
  unfold swap_adapter
  cases hLoad : load_lora_fast files new_adapter_id with
  | error error => simp
  | ok new =>
      simp only [Except.ok.injEq, forall_eq', conclude_unchanged_iff]
      by_cases hRank : s.current_rank ≠ new.r ∧ s.current_rank ≠ 0
      · rw [if_pos hRank, eq_true hRank, recreate_lora_modules_ok_iff,
          recreate_lora_modules_eq_self_iff]
      · rw [if_neg hRank, eq_false hRank, update_lora_weights_ok_iff,
          update_lora_weights_eq_self_iff]

end Swap

/-- One layer with sizes of one. -/
def one_info : Info := ⟨1, 1, 1, 1, 1⟩

/-- A tensor with one entry. -/
def one_by_one (x : ℚ) : Tensor := ⟨1, 1, fun _ _ => x⟩

/-- Weights for the output projection alone. -/
def o_proj_state : State where
  model
    | (0, .o_proj) => some (show SyncRemoteLoRALinear from ⟨⟨0, one_by_one 1⟩, ⟨1, one_by_one 1⟩, 1⟩)
    | _ => none
  current_adapter_id := some "old"
  current_rank := 1
  current_config := some ⟨1, none⟩

/-- The second tensor has a row too many. -/
def tall_adapter : Adapter where
  r := 1
  lora_alpha := none
  lora_layers
    | 0, .o_proj => some (one_by_one 2, .zeros 2 1)
    | _, _ => none

/-- The first tensor of a malformed adapter is in place when the second one raises. -/
theorem half_updated :
    (swap_adapter one_info (fun _ => .ok tall_adapter) "new" o_proj_state).2 ≠ none ∧
      (swap_adapter one_info (fun _ => .ok tall_adapter) "new" o_proj_state).1 ≠ o_proj_state := by
  have hFails :
      (swap_adapter one_info (fun _ => .ok tall_adapter) "new" o_proj_state).2.isSome = true := by
    decide +kernel
  refine ⟨fun hNone => ?_, fun hSame => ?_⟩
  · rw [hNone] at hFails
    cases hFails
  · have hWeight : ((swap_adapter one_info (fun _ => .ok tall_adapter) "new" o_proj_state).1.model
        (0, .o_proj)).map (fun l : SyncRemoteLoRALinear => l.lora_A.weight) =
          some (one_by_one 2) := by decide +kernel
    rw [hSame] at hWeight
    exact absurd hWeight (by decide +kernel)

end Worker.AdapterManager
