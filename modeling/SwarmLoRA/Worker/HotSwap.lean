import Mathlib.Data.Rat.Defs
import SwarmLoRA.Worker.Residence
import SwarmLoRA.Worker.SingleSlot

/-! Swapping the LoRA adapter of a worker while its engine makes tokens. The lock of the adapter
manager is held by a swap and by whoever reads the id of the adapter. The engine does not take
it, and computes each delta from what the modules hold at that time. -/
namespace Worker.HotSwap

open Machine

/-- Adapters go by their names. -/
abbrev AdapterId := String

/-- The seven modules of a layer that an adapter may have. -/
inductive ModuleName where
  | q_proj
  | k_proj
  | v_proj
  | o_proj
  | gate_proj
  | up_proj
  | down_proj
  deriving DecidableEq

/-- The places in a layer that can hold LoRA weights. -/
inductive Site where
  | fused_qkv
  | fused_gate_up
  | o_proj
  | down_proj
  deriving DecidableEq

namespace Site

/-- The modules that a site applies, in the order of its outputs. -/
def module_names : Site → List ModuleName
  | .fused_qkv => [.q_proj, .k_proj, .v_proj]
  | .fused_gate_up => [.gate_proj, .up_proj]
  | .o_proj => [.o_proj]
  | .down_proj => [.down_proj]

/-- The site applies its modules in one product. -/
def fused : Site → Bool
  | .fused_qkv | .fused_gate_up => true
  | .o_proj | .down_proj => false

end Site

/-- Where the delta of an op comes from. -/
def site : Op → Option Site
  | .qkv_fused => some .fused_qkv
  | .o_proj => some .o_proj
  | .gate_up_fused => some .fused_gate_up
  | .down_proj => some .down_proj
  | .embed | .lm_head => none

/-- All sites of a model, in the order in which a swap goes through them. -/
def sites (num_layers : Nat) : List (Nat × Site) :=
  (List.range num_layers).flatMap fun layer_idx =>
    [(layer_idx, .fused_qkv), (layer_idx, .fused_gate_up), (layer_idx, .o_proj),
      (layer_idx, .down_proj)]

variable {T : Type}

/-- The tensors of one module of an adapter, with its scaling. -/
structure FastLoRAModule (T : Type) where
  lora_A : T
  lora_B : T
  scaling : ℚ

/-- An adapter as its files have it: the tensors of each layer and module. -/
structure Adapter (T : Type) where
  r : Nat
  lora_alpha : Option ℚ
  lora_layers : Nat → ModuleName → Option (T × T)

/-- The weights by module, `none` where there are none. For a fused site these are the blocks
of `fused_A` and `fused_B`, and `none` is a block of zeros. -/
abbrev Modules (T : Type) := ModuleName → Option (FastLoRAModule T)

namespace Adapter

variable (a : Adapter T)

/-- `lora_alpha / r`, where a missing `lora_alpha` counts as `r`. -/
def scaling : ℚ := a.lora_alpha.getD a.r / a.r

/-- The modules of a layer. -/
def get_lora_module (layer_idx : Nat) : Modules T := fun name =>
  (a.lora_layers layer_idx name).map fun tensors =>
    { lora_A := tensors.1, lora_B := tensors.2, scaling := a.scaling }

end Adapter

/-- The adapter has a module of the site. -/
def Modules.any (modules : Modules T) (site : Site) : Bool :=
  site.module_names.any fun name => (modules name).isSome

/-- What a site holds. There is no LoRA module at a site that was built without weights. -/
abbrev Container (T : Type) := Option (Modules T)

namespace Container

/-- `build_hollow_model`, and the fused sites when the rank changes. -/
def build (new : Modules T) (site : Site) : Container T :=
  if new.any site then some new else none

/-- `_update_fused_lora` and `_update_single_lora`: without weights for the site in the new
adapter, what is there stays there. -/
def update (new : Modules T) (site : Site) (c : Container T) : Container T :=
  c.map fun old => if new.any site then new else old

/-- The delta of the site becomes zero. -/
def zero (c : Container T) : Container T := c.map fun _ _ => none

/-- A site in `_recreate_lora_modules`. -/
def recreate (new : Modules T) (site : Site) (c : Container T) : Container T :=
  if site.fused then build new site else update new site c

/-- The weights that make up the delta of the site. -/
def weights (site : Site) (c : Container T) : List (Option (FastLoRAModule T)) :=
  site.module_names.map (c.getD fun _ => none)

end Container

/-- Where a swap stands that holds the lock. `zeroing` and `updating` have the sites that are
still to come; sites are zeroed first if the rank changes. -/
inductive Swap where
  | idle
  | loading (new_adapter_id : AdapterId)
  | zeroing (new_adapter_id : AdapterId) (rest : List (Nat × Site))
  | updating (new_adapter_id : AdapterId) (rank_changed : Bool) (rest : List (Nat × Site))

/-- No site has been touched yet. -/
def Swap.settled : Swap → Bool
  | .idle | .loading _ => true
  | .zeroing _ _ | .updating _ _ _ => false

/-- The weights that the delta of an op was computed from. -/
structure Delta (T : Type) where
  call : Nat
  request : RequestId
  layer_idx : Nat
  site : Site
  weights : List (Option (FastLoRAModule T))

/-- What the worker answers a request with. -/
structure Response where
  request : RequestId
  adapter_id : AdapterId
  deriving DecidableEq

/-- The configuration of the worker, with the adapters that can be loaded. -/
structure Config (T : Type) where
  worker : Worker.Config
  adapters : AdapterId → Adapter T

/-- The modules of a layer in the adapter of this name. -/
def Config.modules (cfg : Config T) (adapter_id : AdapterId) (layer_idx : Nat) : Modules T :=
  (cfg.adapters adapter_id).get_lora_module layer_idx

/-- The weights of an adapter for a site. -/
def Config.weights (cfg : Config T) (adapter_id : AdapterId) (layer_idx : Nat) (site : Site) :
    List (Option (FastLoRAModule T)) :=
  site.module_names.map (cfg.modules adapter_id layer_idx)

/-- The worker with its model, the swap in progress and what its engine has computed so far, each
delta with the weights that it was computed from. -/
structure State (T : Type) where
  worker : Worker.State
  model : Nat → Site → Container T
  current_adapter_id : AdapterId
  current_rank : Nat
  swap : Swap := .idle
  deltas : List (Delta T) := []
  responses : List Response := []

/-- A response with a result has the id of the adapter in it, and the thread waits for the lock
to get it. A response with an error is a step of the worker alone. `swap` is for any id: the
thread has looked whether it is the current one before it waited for the lock. -/
inductive Label where
  | worker (l : Worker.Label)
  | respond (r : RequestId)
  | swap (new_adapter_id : AdapterId)
  | load
  | update
  | commit
  /-- The adapter does not load, or an update raises. -/
  | raise

namespace State

variable (s : State T)

/-- What the next submit computes beside its command. -/
def delta : Option (Delta T) :=
  match s.worker.pc with
  | .submit ((_, r) :: _) (op, layer_idx) _ =>
      (HotSwap.site op).map fun site =>
        { call := s.worker.calls, request := r, layer_idx, site
          weights := (s.model layer_idx site).weights site }
  | _ => none

/-- One site of the model is written. -/
def set_site (layer_idx : Nat) (site : Site) (c : Container T) : State T :=
  { s with model := Function.update s.model layer_idx (Function.update (s.model layer_idx) site c) }

end State

/-- A step of the worker, or of the swap. -/
def step (cfg : Config T) (s : State T) : Label → Option (State T)
  | .worker l =>
      (Worker.step cfg.worker s.worker l).map fun worker =>
        match l with
        | .engine .submit => { s with worker, deltas := s.deltas ++ s.delta.toList }
        | _ => { s with worker }
  | .respond r =>
      match s.swap with
      | .idle =>
          (Worker.step cfg.worker s.worker (.answer r)).map fun worker =>
            { s with
              worker
              responses := s.responses ++ [{ request := r, adapter_id := s.current_adapter_id }] }
      | _ => none
  | .swap new_adapter_id =>
      match s.swap with
      | .idle => some { s with swap := .loading new_adapter_id }
      | _ => none
  | .load =>
      match s.swap with
      | .loading new_adapter_id =>
          let rank_changed := s.current_rank ≠ (cfg.adapters new_adapter_id).r ∧ s.current_rank ≠ 0
          some { s with
            swap :=
              if rank_changed then .zeroing new_adapter_id (sites cfg.worker.num_layers)
              else .updating new_adapter_id false (sites cfg.worker.num_layers) }
      | _ => none
  | .update =>
      match s.swap with
      | .zeroing new_adapter_id ((layer_idx, site) :: rest) =>
          some { s.set_site layer_idx site (s.model layer_idx site).zero with
            swap := .zeroing new_adapter_id rest }
      | .zeroing new_adapter_id [] =>
          some { s with swap := .updating new_adapter_id true (sites cfg.worker.num_layers) }
      | .updating new_adapter_id rank_changed ((layer_idx, site) :: rest) =>
          let new := cfg.modules new_adapter_id layer_idx
          let c := s.model layer_idx site
          some { s.set_site layer_idx site
              (if rank_changed then c.recreate new site else c.update new site) with
            swap := .updating new_adapter_id rank_changed rest }
      | _ => none
  | .commit =>
      match s.swap with
      | .updating new_adapter_id _ [] =>
          some { s with
            current_adapter_id := new_adapter_id
            current_rank := (cfg.adapters new_adapter_id).r
            swap := .idle }
      | _ => none
  | .raise =>
      match s.swap with
      | .idle => none
      | _ => some { s with swap := .idle }

/-- A worker that has just started, with the adapter that its model was built for. -/
structure Initial (cfg : Config T) (s : State T) : Prop where
  worker : Worker.Initial s.worker
  model : ∀ layer_idx site,
    s.model layer_idx site = .build (cfg.modules s.current_adapter_id layer_idx) site
  rank : s.current_rank = (cfg.adapters s.current_adapter_id).r
  swap : s.swap = .idle
  deltas : s.deltas = []
  responses : s.responses = []

/-- The worker starts with a model built for its first adapter. -/
def machine (cfg : Config T) : System (State T) Label := ⟨Initial cfg, step cfg⟩

/-- Every call of the engine uses the weights of one adapter at all sites, and so do all calls
for a request, and that is the adapter in its response. -/
structure Atomic (cfg : Config T) (s : State T) : Prop where
  call : ∀ n, ∃ adapter_id, ∀ d ∈ s.deltas, d.call = n →
    d.weights = cfg.weights adapter_id d.layer_idx d.site
  request : ∀ r, ∃ adapter_id,
    (∀ d ∈ s.deltas, d.request = r → d.weights = cfg.weights adapter_id d.layer_idx d.site) ∧
      ∀ p ∈ s.responses, p.request = r → p.adapter_id = adapter_id

/-- The next update leaves the site with the weights of the new adapter and no others: a LoRA
module is there for them, or nothing is left of the earlier ones. Fused sites are built anew when
the rank changes. -/
def Container.fits (new : Modules T) (site : Site) (rank_changed : Bool) (c : Container T) : Bool :=
  (rank_changed && site.fused) ||
    if new.any site then c.isSome else (c.weights site).all Option.isNone

/-- Every request that the engine has computed a delta for, or that has its response, is done. -/
def State.at_rest (s : State T) : Bool :=
  (s.deltas.all fun d => s.worker.finished d.request) &&
    s.responses.all fun p => s.worker.finished p.request

/-- A swap begins its updates when the requests that the engine has worked on are done, it goes
through to its end, and the engine computes no delta meanwhile. -/
def Separate (cfg : Config T) (s : State T) : Label → Bool
  | .worker (.engine .submit) => s.delta.isNone || s.swap.settled
  | .load => s.at_rest
  | .update =>
      match s.swap with
      | .updating new_adapter_id rank_changed ((layer_idx, site) :: _) =>
          (s.model layer_idx site).fits (cfg.modules new_adapter_id layer_idx) site rank_changed
      | _ => true
  | .raise => s.swap.settled
  | _ => true

namespace Container

variable {new : Modules T} {site : Site} {c : Container T}

/-- An adapter without the site has none of its modules. -/
theorem map_none_of_not_any {modules : Modules T} (h : modules.any site = false) :
    site.module_names.map modules = site.module_names.map fun _ => none := by
  apply List.map_congr_left
  intro name hName
  unfold Modules.any at h
  rw [List.any_eq_false] at h
  exact Option.not_isSome_iff_eq_none.mp (h name hName)

/-- A site that is built holds the modules of the adapter. -/
theorem weights_build : (build new site).weights site = site.module_names.map new := by
  unfold build
  split
  · rfl
  · rename_i hNone
    exact (map_none_of_not_any ((Bool.not_eq_true _).mp hNone)).symm

/-- An update leaves the new modules exactly if the shapes let it. -/
theorem weights_update :
    (c.update new site).weights site = site.module_names.map new ↔ c.fits new site false = true := by
  unfold fits
  rw [Bool.false_and, Bool.false_or]
  cases hAny : new.any site with
  | true =>
      cases c with
      | none =>
          refine iff_of_false ?_ (by simp)
          intro hSame
          unfold Modules.any at hAny
          obtain ⟨name, hName, hSome⟩ := List.any_eq_true.mp hAny
          have hNone := (List.map_inj_left.mp hSame) name hName
          rw [← hNone] at hSome
          cases hSome
      | some old =>
          refine iff_of_true ?_ rfl
          simp only [update, Option.map_some, hAny]
          rfl
  | false =>
      have hKept : (c.update new site).weights site = c.weights site := by
        cases c with
        | none => rfl
        | some old =>
            simp only [update, Option.map_some, hAny]
            rfl
      rw [hKept, map_none_of_not_any hAny, if_neg Bool.false_ne_true, List.all_eq_true]
      constructor
      · intro hSame m hMem
        rw [hSame] at hMem
        obtain ⟨name, _, rfl⟩ := List.mem_map.mp hMem
        rfl
      · intro hNone
        apply List.map_congr_left
        intro name hName
        exact Option.isNone_iff_eq_none.mp (hNone _ (List.mem_map_of_mem hName))

/-- Exactly when an update is right for its site. -/
theorem weights_updated {rank_changed : Bool} :
    (if rank_changed then c.recreate new site else c.update new site).weights site =
      site.module_names.map new ↔ c.fits new site rank_changed = true := by
  cases rank_changed with
  | false => exact weights_update
  | true =>
      rw [if_pos rfl]
      unfold recreate
      cases hFused : site.fused with
      | true =>
          refine iff_of_true weights_build ?_
          unfold fits
          rw [hFused]
          rfl
      | false =>
          have hSame : c.fits new site true = c.fits new site false := by
            unfold fits
            rw [hFused]
            rfl
          rw [hSame]
          exact weights_update

end Container

/-- The sites of an operation are sites of the model. -/
theorem mem_sites {num_layers layer_idx : Nat} {op : Op} {x : Site}
    (hOp : (op, layer_idx) ∈ ops num_layers) (hSite : site op = some x) :
    (layer_idx, x) ∈ sites num_layers := by
  simp only [ops, List.mem_append, List.mem_cons, List.mem_flatMap, List.mem_range,
    List.not_mem_nil, or_false, Prod.mk.injEq] at hOp
  simp only [sites, List.mem_flatMap, List.mem_range, List.mem_cons, List.not_mem_nil, or_false,
    Prod.mk.injEq]
  rcases hOp with (⟨rfl, _⟩ | ⟨layer, hLayer, hOp⟩) | ⟨rfl, _⟩
  · cases hSite
  · refine ⟨layer, hLayer, ?_⟩
    rcases hOp with ⟨rfl, rfl⟩ | ⟨rfl, rfl⟩ | ⟨rfl, rfl⟩ | ⟨rfl, rfl⟩ <;> cases hSite <;> simp
  · cases hSite

/-- The written site holds what was written. -/
theorem State.set_site_same {s : State T} {layer_idx : Nat} {x : Site} {c : Container T} :
    (s.set_site layer_idx x c).model layer_idx x = c := by
  show Function.update s.model layer_idx (Function.update (s.model layer_idx) x c) layer_idx x = c
  rw [Function.update_self, Function.update_self]

/-- The other sites hold what they held. -/
theorem State.set_site_other {s : State T} {layer_idx layer : Nat} {x y : Site} {c : Container T}
    (h : (layer, y) ≠ (layer_idx, x)) :
    (s.set_site layer_idx x c).model layer y = s.model layer y := by
  show Function.update s.model layer_idx (Function.update (s.model layer_idx) x c) layer y = _
  by_cases hLayer : layer = layer_idx
  · subst hLayer
    have hSite : y ≠ x := fun hSame => h (by rw [hSame])
    rw [Function.update_self, Function.update_of_ne hSite]
  · rw [Function.update_of_ne hLayer]

/-- A delta is computed for the slot of a call that is under way. -/
theorem State.of_delta {s : State T} {d : Delta T} (h : s.delta = some d) :
    ∃ slot_id slots op rest,
      s.worker.pc = .submit ((slot_id, d.request) :: slots) (op, d.layer_idx) rest ∧
        site op = some d.site ∧ d.call = s.worker.calls ∧
          d.weights = (s.model d.layer_idx d.site).weights d.site := by
  unfold delta at h
  split at h
  · rename_i slot_id r slots op layer_idx rest hPc
    obtain ⟨x, hSite, rfl⟩ := Option.map_eq_some_iff.mp h
    exact ⟨slot_id, slots, op, rest, hPc, hSite, rfl, rfl⟩
  · cases h

/-- What is so of the model and of the deltas in every run whose swaps are kept separate: the sites
that the update has passed have the new weights, and the requests in progress have seen one adapter
only. -/
structure Invariant (cfg : Config T) (s : State T) : Prop where
  born : ∀ r, (s.worker.requests r).handler ≠ .refused → r < s.worker.nextRequest
  commands : s.worker.pc.commands ⊆ ops cfg.worker.num_layers
  loaded : s.swap.settled = true → ∀ x ∈ sites cfg.worker.num_layers,
    (s.model x.1 x.2).weights x.2 = cfg.weights s.current_adapter_id x.1 x.2
  updated : ∀ adapter_id rank_changed rest, s.swap = .updating adapter_id rank_changed rest →
    ∀ x ∈ sites cfg.worker.num_layers, x ∉ rest →
      (s.model x.1 x.2).weights x.2 = cfg.weights adapter_id x.1 x.2
  begun : ∀ d ∈ s.deltas, s.worker.finished d.request = false →
    s.swap.settled = true ∧ d.weights = cfg.weights s.current_adapter_id d.layer_idx d.site
  answered : ∀ p ∈ s.responses, s.worker.finished p.request = false →
    s.swap.settled = true ∧ p.adapter_id = s.current_adapter_id
  running : ∀ d ∈ s.deltas, d.call ≤ s.worker.calls ∧ (d.call = s.worker.calls →
    ∀ slots ∈ s.worker.pc.running, ∃ slot_id, (slot_id, d.request) ∈ slots)
  atomic : Atomic cfg s

namespace Invariant

variable {cfg : Config T} {s s' : State T}

/-- At the start every site holds the first adapter. -/
theorem initial (h : Initial cfg s) : Invariant cfg s where
  born r hHandler := by
    rw [h.worker.requests r] at hHandler
    exact (hHandler rfl).elim
  commands := by
    rw [h.worker.pc]
    exact List.nil_subset _
  loaded _ x _ := by
    rw [h.model x.1 x.2]
    exact Container.weights_build
  updated adapter_id rank_changed rest hSwap := by
    rw [h.swap] at hSwap
    cases hSwap
  begun d hMem := by
    rw [h.deltas] at hMem
    cases hMem
  answered p hMem := by
    rw [h.responses] at hMem
    cases hMem
  running d hMem := by
    rw [h.deltas] at hMem
    cases hMem
  atomic := by
    constructor
    · refine fun n => ⟨s.current_adapter_id, ?_⟩
      intro d hMem
      rw [h.deltas] at hMem
      cases hMem
    · refine fun r => ⟨s.current_adapter_id, ?_, ?_⟩
      · intro d hMem
        rw [h.deltas] at hMem
        cases hMem
      · intro p hMem
        rw [h.responses] at hMem
        cases hMem

/-- What is not finished after a step of the worker was not finished before. -/
theorem unfinished (h : Invariant cfg s) {worker : Worker.State} {r : RequestId}
    (hOn : Continues cfg.worker s.worker worker) (hFinished : worker.finished r = false) :
    s.worker.finished r = false := by
  cases hBefore : s.worker.finished r with
  | false => rfl
  | true =>
      have hHandler : (s.worker.requests r).handler ≠ .refused := by
        simp only [Worker.State.finished, decide_eq_true_eq] at hBefore
        rcases hBefore.1 with hSame | hSame
        · simp [hSame]
        · simp [hSame]
      rw [hOn.finished (h.born r hHandler) hBefore] at hFinished
      cases hFinished

/-- A step of the worker in which the engine computes no delta. -/
theorem worker (h : Invariant cfg s) {worker : Worker.State}
    (hOn : Continues cfg.worker s.worker worker) : Invariant cfg { s with worker := worker } where
  born r hHandler := hOn.born_of_handler h.born hHandler
  commands := by
    rcases hOn.onward with ⟨_, _, hCommands⟩ | ⟨_, hCommands⟩
    · exact List.Subset.trans hCommands h.commands
    · exact hCommands
  loaded := h.loaded
  updated := h.updated
  begun d hMem hFinished := h.begun d hMem (h.unfinished hOn hFinished)
  answered p hMem hFinished := h.answered p hMem (h.unfinished hOn hFinished)
  running d hMem := by
    obtain ⟨hCall, hSlots⟩ := h.running d hMem
    rcases hOn.onward with ⟨hSame, hRunning, _⟩ | ⟨hNext, _⟩
    · constructor
      · show d.call ≤ worker.calls
        omega
      · intro hNow slots hMem
        exact hSlots (hNow.trans hSame) slots (hRunning slots hMem)
    · constructor
      · show d.call ≤ worker.calls
        omega
      · intro hNow
        replace hNow : d.call = worker.calls := hNow
        omega
  atomic := ⟨h.atomic.call, h.atomic.request⟩

/-- A request that the engine still has is not finished. -/
theorem unfinished_of_inside {r : RequestId} (hInside : r ∈ s.worker.inside) :
    s.worker.finished r = false := by
  simp [Worker.State.finished, hInside]

/-- The call that is under way is for requests that are not finished. -/
theorem unfinished_of_running (h : Invariant cfg s) {slots : Dict}
    (hRunning : slots ∈ s.worker.pc.running) {d : Delta T} (hMem : d ∈ s.deltas)
    (hCall : d.call = s.worker.calls) : s.worker.finished d.request = false := by
  obtain ⟨slot_id, hSlot⟩ := (h.running d hMem).2 hCall slots hRunning
  exact unfinished_of_inside (Worker.State.inside_of_running hRunning hSlot)

/-- A delta that is computed while nothing is being swapped goes with the adapter of its call. -/
theorem atomic_submit (h : Invariant cfg s) {d : Delta T} {slots : Dict}
    (hRunning : slots ∈ s.worker.pc.running) {slot_id : SlotId}
    (hSlot : (slot_id, d.request) ∈ slots) (hCall : d.call = s.worker.calls)
    (hWeights : d.weights = cfg.weights s.current_adapter_id d.layer_idx d.site) :
    Atomic cfg { s with deltas := s.deltas ++ [d] } := by
  have hOpen := unfinished_of_inside (Worker.State.inside_of_running hRunning hSlot)
  constructor
  · intro n
    by_cases hNow : n = s.worker.calls
    · refine ⟨s.current_adapter_id, ?_⟩
      intro d' hMem hSame
      rcases List.mem_append.mp hMem with hOld | hNew
      · exact (h.begun d' hOld (h.unfinished_of_running hRunning hOld (hSame.trans hNow))).2
      · rw [List.mem_singleton.mp hNew]
        exact hWeights
    · obtain ⟨adapter_id, hAll⟩ := h.atomic.call n
      refine ⟨adapter_id, ?_⟩
      intro d' hMem hSame
      rcases List.mem_append.mp hMem with hOld | hNew
      · exact hAll d' hOld hSame
      · rw [List.mem_singleton.mp hNew] at hSame
        exact (hNow (hSame.symm.trans hCall)).elim
  · intro r
    by_cases hHere : r = d.request
    · refine ⟨s.current_adapter_id, ?_, ?_⟩
      · intro d' hMem hSame
        rcases List.mem_append.mp hMem with hOld | hNew
        · exact (h.begun d' hOld (by rw [hSame, hHere]; exact hOpen)).2
        · rw [List.mem_singleton.mp hNew]
          exact hWeights
      · intro p hMem hSame
        exact (h.answered p hMem (by rw [hSame, hHere]; exact hOpen)).2
    · obtain ⟨adapter_id, hAll, hResponses⟩ := h.atomic.request r
      refine ⟨adapter_id, ?_, hResponses⟩
      intro d' hMem hSame
      rcases List.mem_append.mp hMem with hOld | hNew
      · exact hAll d' hOld hSame
      · rw [List.mem_singleton.mp hNew] at hSame
        exact (hHere hSame.symm).elim

/-- The engine submits a command and computes its delta. -/
theorem submit (h : Invariant cfg s) {worker : Worker.State}
    (hOn : Continues cfg.worker s.worker worker) {d : Delta T} (hDelta : s.delta = some d)
    (hSettled : s.swap.settled = true) :
    Invariant cfg { s with worker := worker, deltas := s.deltas ++ [d] } := by
  obtain ⟨slot_id, slots, op, rest, hPc, hSite, hCall, hWeights⟩ := State.of_delta hDelta
  have hWorker := h.worker hOn
  have hRunning : ((slot_id, d.request) :: slots) ∈ s.worker.pc.running := by
    rw [hPc]
    rfl
  have hCommand : (op, d.layer_idx) ∈ ops cfg.worker.num_layers := by
    apply h.commands
    rw [hPc]
    exact List.mem_cons_self
  have hCurrent : d.weights = cfg.weights s.current_adapter_id d.layer_idx d.site :=
    hWeights.trans (h.loaded hSettled (d.layer_idx, d.site) (mem_sites hCommand hSite))
  have hAtomic := h.atomic_submit hRunning List.mem_cons_self hCall hCurrent
  exact { hWorker with
    begun := by
      intro d' hMem hFinished
      rcases List.mem_append.mp hMem with hOld | hNew
      · exact hWorker.begun d' hOld hFinished
      · rw [List.mem_singleton.mp hNew]
        exact ⟨hSettled, hCurrent⟩
    running := by
      intro d' hMem
      rcases List.mem_append.mp hMem with hOld | hNew
      · exact hWorker.running d' hOld
      · rw [List.mem_singleton.mp hNew]
        rcases hOn.onward with ⟨hSame, hKept, _⟩ | ⟨hNext, _⟩
        · refine ⟨Nat.le_of_eq (hCall.trans hSame.symm), ?_⟩
          intro _ slots' hSlots
          have hFound := hKept slots' hSlots
          rw [hPc] at hFound
          obtain rfl := Option.some.inj hFound
          exact ⟨slot_id, List.mem_cons_self⟩
        · constructor
          · show d.call ≤ worker.calls
            omega
          · intro hNow
            replace hNow : d.call = worker.calls := hNow
            omega
    atomic := ⟨hAtomic.call, hAtomic.request⟩ }

/-- A response has the id of the adapter that its request was worked on with. -/
theorem respond (h : Invariant cfg s) {worker : Worker.State}
    (hOn : Continues cfg.worker s.worker worker) (hSettled : s.swap.settled = true) {r : RequestId}
    (hOpen : s.worker.finished r = false) :
    Invariant cfg { s with
      worker := worker
      responses := s.responses ++ [{ request := r, adapter_id := s.current_adapter_id }] } := by
  have hWorker := h.worker hOn
  exact { hWorker with
    answered := by
      intro p hMem hFinished
      rcases List.mem_append.mp hMem with hOld | hNew
      · exact hWorker.answered p hOld hFinished
      · rw [List.mem_singleton.mp hNew]
        exact ⟨hSettled, rfl⟩
    atomic := by
      refine ⟨h.atomic.call, ?_⟩
      intro r'
      by_cases hHere : r' = r
      · refine ⟨s.current_adapter_id, ?_, ?_⟩
        · intro d hMem hSame
          exact (h.begun d hMem (by rw [hSame, hHere]; exact hOpen)).2
        · intro p hMem hSame
          rcases List.mem_append.mp hMem with hOld | hNew
          · exact (h.answered p hOld (by rw [hSame, hHere]; exact hOpen)).2
          · rw [List.mem_singleton.mp hNew]
      · obtain ⟨adapter_id, hAll, hResponses⟩ := h.atomic.request r'
        refine ⟨adapter_id, hAll, ?_⟩
        intro p hMem hSame
        rcases List.mem_append.mp hMem with hOld | hNew
        · exact hResponses p hOld hSame
        · rw [List.mem_singleton.mp hNew] at hSame
          exact (hHere hSame.symm).elim }

/-- At rest everything that has been computed or answered belongs to a request that is finished. -/
theorem finished_of_at_rest (hRest : s.at_rest = true) :
    (∀ d ∈ s.deltas, s.worker.finished d.request = true) ∧
      ∀ p ∈ s.responses, s.worker.finished p.request = true := by
  simp only [State.at_rest, Bool.and_eq_true, List.all_eq_true] at hRest
  exact hRest

/-- Once a swap has begun its updates, the requests that came before are done. -/
theorem at_rest (h : Invariant cfg s) (hUnsettled : s.swap.settled = false) :
    s.at_rest = true := by
  simp only [State.at_rest, Bool.and_eq_true, List.all_eq_true]
  constructor
  · intro d hMem
    cases hFinished : s.worker.finished d.request with
    | true => rfl
    | false => cases hUnsettled.symm.trans (h.begun d hMem hFinished).1
  · intro p hMem
    cases hFinished : s.worker.finished p.request with
    | true => rfl
    | false => cases hUnsettled.symm.trans (h.answered p hMem hFinished).1

/-- A step of a swap while no request is being worked on. -/
theorem of_at_rest (h : Invariant cfg s) (hRest : s.at_rest = true)
    {model : Nat → Site → Container T} {current_adapter_id : AdapterId} {current_rank : Nat}
    {swap : Swap}
    (hLoaded : swap.settled = true → ∀ x ∈ sites cfg.worker.num_layers,
      (model x.1 x.2).weights x.2 = cfg.weights current_adapter_id x.1 x.2)
    (hUpdated : ∀ adapter_id rank_changed rest, swap = .updating adapter_id rank_changed rest →
      ∀ x ∈ sites cfg.worker.num_layers, x ∉ rest →
        (model x.1 x.2).weights x.2 = cfg.weights adapter_id x.1 x.2) :
    Invariant cfg { s with
      model := model, current_adapter_id := current_adapter_id, current_rank := current_rank,
      swap := swap } := by
  obtain ⟨hDeltas, hResponses⟩ := finished_of_at_rest hRest
  exact { h with
    loaded := hLoaded
    updated := hUpdated
    begun := by
      intro d hMem hFinished
      cases (hDeltas d hMem).symm.trans hFinished
    answered := by
      intro p hMem hFinished
      cases (hResponses p hMem).symm.trans hFinished
    atomic := ⟨h.atomic.call, h.atomic.request⟩ }

/-- The sites are as they were. -/
theorem settle (h : Invariant cfg s) (hSettled : s.swap.settled = true) {swap : Swap}
    (hSwap : swap.settled = true) : Invariant cfg { s with swap := swap } :=
  { h with
    loaded := fun _ => h.loaded hSettled
    updated := by
      rintro adapter_id rank_changed rest rfl
      cases hSwap
    begun := fun d hMem hFinished => ⟨hSwap, (h.begun d hMem hFinished).2⟩
    answered := fun p hMem hFinished => ⟨hSwap, (h.answered p hMem hFinished).2⟩
    atomic := ⟨h.atomic.call, h.atomic.request⟩ }

/-- A swap that begins at rest touches nothing that is in progress. -/
theorem load (h : Invariant cfg s) (hRest : s.at_rest = true)
    (hStep : HotSwap.step cfg s .load = some s') : Invariant cfg s' := by
  simp only [HotSwap.step] at hStep
  split at hStep
  · obtain rfl := Option.some.inj hStep
    split
    · apply h.of_at_rest hRest
      · rintro ⟨⟩
      · rintro adapter_id rank_changed rest ⟨⟩
    · apply h.of_at_rest hRest
      · rintro ⟨⟩
      · rintro adapter_id rank_changed rest ⟨⟩ x hMem hOut
        exact (hOut hMem).elim
  · cases hStep

/-- Each site that is updated holds the modules of the new adapter. -/
theorem update_site (h : Invariant cfg s) {adapter_id : AdapterId} {rank_changed : Bool}
    {layer_idx : Nat} {x : Site} {rest : List (Nat × Site)} {c : Container T}
    (hSwap : s.swap = .updating adapter_id rank_changed ((layer_idx, x) :: rest))
    (hRight : c.weights x = cfg.weights adapter_id layer_idx x) :
    Invariant cfg { s.set_site layer_idx x c with
      swap := .updating adapter_id rank_changed rest } := by
  have hRest := h.at_rest (by rw [hSwap]; rfl)
  apply h.of_at_rest hRest
  · rintro ⟨⟩
  · rintro _ _ _ ⟨⟩ ⟨layer, y⟩ hMem hOut
    show ((s.set_site layer_idx x c).model layer y).weights y = _
    by_cases hSame : (layer, y) = (layer_idx, x)
    · obtain ⟨rfl, rfl⟩ := Prod.mk.inj hSame
      rw [State.set_site_same]
      exact hRight
    · rw [State.set_site_other hSame]
      apply h.updated _ _ _ hSwap (layer, y) hMem
      intro hFound
      rcases List.mem_cons.mp hFound with hHead | hTail
      · exact hSame hHead
      · exact hOut hTail

/-- The update of a site keeps the invariant. -/
theorem update (h : Invariant cfg s) (hGuard : Separate cfg s .update = true)
    (hStep : HotSwap.step cfg s .update = some s') : Invariant cfg s' := by
  simp only [HotSwap.step] at hStep
  split at hStep
  · rename_i adapter_id layer_idx x rest hSwap
    obtain rfl := Option.some.inj hStep
    apply h.of_at_rest (h.at_rest (by rw [hSwap]; rfl))
    · rintro ⟨⟩
    · rintro _ _ _ ⟨⟩
  · rename_i adapter_id hSwap
    obtain rfl := Option.some.inj hStep
    apply h.of_at_rest (h.at_rest (by rw [hSwap]; rfl))
    · rintro ⟨⟩
    · rintro _ _ _ ⟨⟩ y hMem hOut
      exact (hOut hMem).elim
  · rename_i adapter_id rank_changed layer_idx x rest hSwap
    obtain rfl := Option.some.inj hStep
    simp only [Separate, hSwap] at hGuard
    exact h.update_site hSwap (Container.weights_updated.mpr hGuard)
  · cases hStep

/-- With all sites updated the name of the adapter is changed. -/
theorem commit (h : Invariant cfg s) (hStep : HotSwap.step cfg s .commit = some s') :
    Invariant cfg s' := by
  simp only [HotSwap.step] at hStep
  split at hStep
  · rename_i adapter_id rank_changed hSwap
    obtain rfl := Option.some.inj hStep
    apply h.of_at_rest (h.at_rest (by rw [hSwap]; rfl))
    · intro _ y hMem
      exact h.updated adapter_id rank_changed [] hSwap y hMem List.not_mem_nil
    · rintro _ _ _ ⟨⟩
  · cases hStep

/-- Every step that keeps swaps and requests apart keeps the invariant. -/
theorem step {l : Label} (h : Invariant cfg s) (hGuard : Separate cfg s l = true)
    (hStep : HotSwap.step cfg s l = some s') : Invariant cfg s' := by
  cases l with
  | worker l =>
      simp only [HotSwap.step, Option.map_eq_some_iff] at hStep
      obtain ⟨worker, hWorker, hSame⟩ := hStep
      have hOn := Continues.step hWorker
      split at hSame
      · obtain rfl := hSame
        cases hDelta : s.delta with
        | none =>
            rw [Option.toList_none, List.append_nil]
            exact h.worker hOn
        | some d =>
            simp only [Separate, hDelta, Option.isNone_some, Bool.false_or] at hGuard
            exact h.submit hOn hDelta hGuard
      · obtain rfl := hSame
        exact h.worker hOn
  | respond r =>
      simp only [HotSwap.step] at hStep
      split at hStep
      · rename_i hSwap
        obtain ⟨worker, hWorker, rfl⟩ := Option.map_eq_some_iff.mp hStep
        have hWaiting : (s.worker.requests r).handler = .waiting := by
          simp only [Worker.step, Option.ite_none_right_eq_some] at hWorker
          exact hWorker.1.1
        apply h.respond (Continues.step hWorker)
        · rw [hSwap]
          rfl
        · simp [Worker.State.finished, hWaiting]
      · cases hStep
  | swap adapter_id =>
      simp only [HotSwap.step] at hStep
      split at hStep
      · rename_i hSwap
        obtain rfl := Option.some.inj hStep
        exact h.settle (by rw [hSwap]; rfl) rfl
      · cases hStep
  | load => exact h.load hGuard hStep
  | update => exact h.update hGuard hStep
  | commit => exact h.commit hStep
  | raise =>
      simp only [HotSwap.step] at hStep
      split at hStep
      · cases hStep
      · obtain rfl := Option.some.inj hStep
        exact h.settle hGuard rfl

end Invariant

/-- When swaps are kept apart from the requests that the engine works on, every request gets all
its tokens from one adapter, the one in its response. -/
theorem atomic_of_reach {cfg : Config T} {s : State T}
    (run : (machine cfg).Reach (fun s l => Separate cfg s l = true) s) : Atomic cfg s := by
  have hInvariant : Invariant cfg s := by
    apply run.invariant (Invariant cfg)
    · intro s hInitial
      exact Invariant.initial hInitial
    · intro s l s' hPrior hGuard hStep
      exact hPrior.step hGuard hStep
  exact hInvariant.atomic

/-- Two adapters of one rank, whose tensors tell them apart. -/
def twoAdapters : Config Nat where
  worker := oneLayer
  adapters adapter_id :=
    { r := 16
      lora_alpha := some 32
      lora_layers := fun _ _ => if adapter_id = "a" then some (0, 0) else some (1, 1) }

/-- A worker that has just started with the first of them. -/
def startedWithA : State Nat where
  worker := started
  model layer_idx site := .build (twoAdapters.modules "a" layer_idx) site
  current_adapter_id := "a"
  current_rank := 16

/-- The example starts as the worker starts. -/
theorem startedWithA_initial : Initial twoAdapters startedWithA :=
  ⟨started_initial, fun _ _ => rfl, rfl, rfl, rfl, rfl⟩

/-- A swap of the four sites of one layer. -/
def swapped (adapter_id : AdapterId) : List Label :=
  [.swap adapter_id, .load, .update, .update, .update, .update, .commit]

/-- A request of one token gets to its first call. -/
def begins (r : RequestId) : List Label :=
  (arrives r 1 ++ accepted 0 ++ activated 0).map .worker

/-- Commands of a call, one after the other. -/
def commands (count : Nat) : List Label :=
  (List.replicate count [.worker (.engine .submit), .worker (.execute 7), .worker (.engine .sync)]).flatten

/-- The call ends and with it the request, which gets its response. -/
def ends (r : RequestId) : List Label :=
  [.worker (.engine .check), .worker (.engine .complete), .worker .act, .worker .act,
    .worker (.leave 0), .respond r]

/-- A request with the first adapter, a swap, and a request with the second adapter. -/
theorem atomic_of_swap_between_requests : ∃ s,
    (machine twoAdapters).Reach (fun s l => Separate twoAdapters s l = true) s ∧
      s.responses = [⟨0, "a"⟩, ⟨1, "b"⟩] ∧ s.deltas.length = 8 ∧ Atomic twoAdapters s := by
  have hRun : ((machine twoAdapters).replayUnder (fun s l => Separate twoAdapters s l = true)
      startedWithA (begins 0 ++ .worker (.engine (.generate [])) :: commands 6 ++ ends 0 ++
        swapped "b" ++ begins 1 ++ .worker (.engine (.generate [])) :: commands 6 ++ ends 1)).map
          (fun s => (s.responses, s.deltas.length)) = some ([⟨0, "a"⟩, ⟨1, "b"⟩], 8) := by
    decide +kernel
  obtain ⟨s, hReplay, hEnd⟩ := Option.map_eq_some_iff.mp hRun
  obtain ⟨hResponses, hDeltas⟩ := Prod.mk.inj hEnd
  have run := System.reach_of_replayUnder (.start startedWithA_initial) hReplay
  exact ⟨s, run, hResponses, hDeltas, atomic_of_reach run⟩

/-- The call of a delta and the tensors that it was computed from. -/
def tensors (d : Delta Nat) : Nat × List (Option Nat) :=
  (d.call, d.weights.map (Option.map FastLoRAModule.lora_A))

/-- Which of the two adapters a tensor is from. -/
theorem tensor_of_weights {adapter_id : AdapterId} {layer_idx : Nat} {x : Site} {m : Option Nat}
    (hMem : m ∈ (twoAdapters.weights adapter_id layer_idx x).map
      (Option.map FastLoRAModule.lora_A)) : m = some (if adapter_id = "a" then 0 else 1) := by
  obtain ⟨_, hModule, rfl⟩ := List.mem_map.mp hMem
  obtain ⟨name, _, rfl⟩ := List.mem_map.mp hModule
  by_cases hA : adapter_id = "a"
  · simp [Config.modules, Adapter.get_lora_module, twoAdapters, hA]
  · simp [Config.modules, Adapter.get_lora_module, twoAdapters, hA]

/-- A request is in its first call when a swap goes through: its first delta is from one adapter,
the other three are from the next one, whose id it gets back. -/
theorem swap_during_call_mixes_adapters : ∃ s, (machine twoAdapters).Reachable s ∧
    s.responses = [⟨0, "b"⟩] ∧ ¬Atomic twoAdapters s := by
  have hRun : ((machine twoAdapters).replay startedWithA (begins 0 ++
      .worker (.engine (.generate [])) :: commands 2 ++ swapped "b" ++ commands 4 ++ ends 0)).map
        (fun s => (s.responses, s.deltas.map tensors)) =
      some ([⟨0, "b"⟩],
        [(1, [some 0, some 0, some 0]), (1, [some 1]), (1, [some 1, some 1]), (1, [some 1])]) := by
    decide +kernel
  obtain ⟨s, hReplay, hEnd⟩ := Option.map_eq_some_iff.mp hRun
  obtain ⟨hResponses, hDeltas⟩ := Prod.mk.inj hEnd
  refine ⟨s, System.reachable_of_replay (.start startedWithA_initial) hReplay, hResponses, ?_⟩
  intro hAtomic
  obtain ⟨adapter_id, hSame⟩ := hAtomic.call 1
  have hTensors : ∀ e ∈ s.deltas.map tensors, e.1 = 1 → ∀ m ∈ e.2,
      m = some (if adapter_id = "a" then 0 else 1) := by
    intro e hMem hCall m hTensor
    obtain ⟨d, hDelta, rfl⟩ := List.mem_map.mp hMem
    apply tensor_of_weights
    rw [← hSame d hDelta hCall]
    exact hTensor
  rw [hDeltas] at hTensors
  have hFirst := hTensors (1, [some 0, some 0, some 0]) (by decide) rfl (some 0) (by decide)
  have hSecond := hTensors (1, [some 1]) (by decide) rfl (some 1) (by decide)
  exact absurd (hFirst.trans hSecond.symm) (by decide)

end Worker.HotSwap
