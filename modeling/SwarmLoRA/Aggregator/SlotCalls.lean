import SwarmLoRA.Aggregator.SlotPool

namespace Aggregator.SlotCalls

open Ipc Machine

/-- `g_ctrl` is absent until the queue is initialised. `holders` is a history
variable: the workers for which a claim has stored the ownership of a slot and no
release has taken it back since. -/
structure State where
  pool : SlotPool
  g_ctrl : Option ControlBlock
  calls : Nat → Call
  holders : Slot → List Nat

/-- Thread `t` starts a call for a worker, makes its next atomic step, or is done.
Registered worker ids are not negative. -/
inductive Label where
  | claim_slot (t worker_id : Nat)
  | release_slot (t : Nat) (slot_id : Int) (worker_id : Nat)
  | advance (t : Nat) (spurious : Bool)
  | finish (t : Nat)

/-- Storing the owner makes the worker a holder. -/
def claim_holders (holders : Slot → List Nat) (w : Nat) : ClaimPc → Slot → List Nat
  | .storeOwner i => Function.update holders i (w :: holders i)
  | _ => holders

/-- A release that passes the ownership check ends one holding. -/
def release_holders (pool : SlotPool) (holders : Slot → List Nat) (w : Nat) :
    ReleasePc → Slot → List Nat
  | .casOwner i =>
      if pool.owner_worker_id i = w then Function.update holders i ((holders i).erase w)
      else holders
  | _ => holders

def finished : Call → Bool
  | .claim _ (.returned _) | .claim _ .threw | .release _ .returned | .release _ .threw => true
  | _ => false

def step (s : State) : Label → Option State
  | .claim_slot t w =>
      if s.calls t = .idle then
        some { s with calls := Function.update s.calls t (.claim w (.loadFree 0 {})) }
      else none
  | .release_slot t slot_id w =>
      if s.calls t = .idle then
        let call := Call.release w (release_slot_entry s.pool slot_id)
        some { s with calls := Function.update s.calls t call }
      else none
  | .advance t spurious =>
      match s.calls t with
      | .idle => none
      | .claim w pc =>
          let next := claim_slot s.pool w spurious pc
          some {
            pool := next.1
            g_ctrl := s.g_ctrl.map fun ctrl => claim_slot_scrub ctrl pc
            calls := Function.update s.calls t (.claim w next.2)
            holders := claim_holders s.holders w.toNat pc }
      | .release w pc =>
          let next := release_slot s.pool w pc
          some { s with
            pool := next.1
            calls := Function.update s.calls t (.release w next.2)
            holders := release_holders s.pool s.holders w.toNat pc }
  | .finish t =>
      if finished (s.calls t) then some { s with calls := Function.update s.calls t .idle }
      else none

/-- The pool as `init_slot_pool` leaves it, with no call under way. -/
def initial (s : State) : Prop :=
  (∃ cudaMalloc num_slots hidden_dim intermediate_dim num_kv_heads head_dim max_seq_per_step
    dtype_size, init_slot_pool cudaMalloc num_slots hidden_dim intermediate_dim num_kv_heads
      head_dim max_seq_per_step dtype_size = some s.pool) ∧
  (∀ t, s.calls t = .idle) ∧ ∀ i, s.holders i = []

def machine : System State Label := ⟨initial, step⟩

structure Invariant (s : State) : Prop where
  consistent : s.pool.Consistent s.calls
  held : ∀ i (w : Nat), s.pool.owner_worker_id i = (w : Int) → s.holders i = [w]
  unheld : ∀ i, s.pool.owner_worker_id i = -1 → s.holders i = []
  owner : ∀ i, s.pool.owner_worker_id i = -1 ∨ ∃ w : Nat, s.pool.owner_worker_id i = w
  ids : ∀ t w, (s.calls t).worker_id = some w → 0 ≤ w

/-- A call in the name of a registered worker replaces another call. -/
theorem ids_update {calls : Nat → Call} {t : Nat}
    (h : ∀ t w, (calls t).worker_id = some w → 0 ≤ w) (call : Call)
    (hCall : ∀ w ∈ call.worker_id, 0 ≤ w) :
    ∀ t' w, (Function.update calls t call t').worker_id = some w → 0 ≤ w := by
  intro t' w hId
  by_cases ht : t' = t
  · subst ht
    rw [Function.update_self] at hId
    exact hCall w hId
  · rw [Function.update_of_ne ht] at hId
    exact h t' w hId

theorem invariant_initial {s : State} (h : initial s) : Invariant s := by
  obtain ⟨⟨cudaMalloc, num_slots, hidden_dim, intermediate_dim, num_kv_heads, head_dim,
    max_seq_per_step, dtype_size, hPool⟩, hCalls, hHolders⟩ := h
  simp only [init_slot_pool, Option.ite_none_left_eq_some, Option.ite_none_right_eq_some,
    Option.some.injEq] at hPool
  obtain ⟨-, -, hPool⟩ := hPool
  have hCarried : ∀ t, (s.calls t).carried = none := fun t => by rw [hCalls t]; rfl
  refine ⟨⟨?_, ?_, ?_, ?_, ?_⟩, ?_, ?_, ?_, ?_⟩
  · intro i hFree
    simp only [← hPool, SlotMask.test_bit_all_below, decide_eq_true_eq] at hFree
    simp [← hPool, hCarried, hFree]
  · intro i hOwned
    simp [← hPool] at hOwned
  · intro t i hCarries
    simp [hCarried] at hCarries
  · intro i hi
    simp only [← hPool] at hi
    simp [← hPool, hi]
  · intro t w i x hCall
    simp [hCalls] at hCall
  · intro i w hOwner
    simp only [← hPool] at hOwner
    omega
  · intro i _
    exact hHolders i
  · intro i
    simp [← hPool]
  · intro t w hId
    simp [hCalls, Call.worker_id] at hId

/-- A claim changes the owner of a slot only where it stores one, and there the
slot had no holder. -/
theorem Invariant.claim {s : State} {t w : Nat} {pc : ClaimPc} {spurious : Bool}
    (h : Invariant s) (hCall : s.calls t = .claim w pc) :
    Invariant {
      pool := (claim_slot s.pool w spurious pc).1
      g_ctrl := s.g_ctrl.map fun ctrl => claim_slot_scrub ctrl pc
      calls := Function.update s.calls t (.claim w (claim_slot s.pool w spurious pc).2)
      holders := claim_holders s.holders w pc } := by
  have hConsistent := h.consistent.claim_slot spurious (fun _ _ => by omega) hCall rfl
  have hIds := ids_update (t := t) h.ids (.claim w (claim_slot s.pool w spurious pc).2)
    (by simp [Call.worker_id])
  by_cases hStore : ∃ i, pc = .storeOwner i
  · obtain ⟨i, rfl⟩ := hStore
    have hUnowned : s.pool.owner_worker_id i = -1 := by
      by_contra hOwned
      exact (h.consistent.owned i hOwned).2 t (by rw [hCall]; rfl)
    refine ⟨hConsistent, ?_, ?_, ?_, hIds⟩
    · intro j w' hOwner
      simp only [claim_slot, claim_holders] at hOwner ⊢
      by_cases hj : j = i
      · subst hj
        rw [Function.update_self] at hOwner ⊢
        rw [h.unheld j hUnowned, Int.ofNat_inj.mp hOwner]
      · rw [Function.update_of_ne hj] at hOwner ⊢
        exact h.held j w' hOwner
    · intro j hOwner
      simp only [claim_slot, claim_holders] at hOwner ⊢
      by_cases hj : j = i
      · subst hj
        rw [Function.update_self] at hOwner
        omega
      · rw [Function.update_of_ne hj] at hOwner ⊢
        exact h.unheld j hOwner
    · intro j
      simp only [claim_slot]
      by_cases hj : j = i
      · subst hj
        rw [Function.update_self]
        exact .inr ⟨w, rfl⟩
      · rw [Function.update_of_ne hj]
        exact h.owner j
  · have hOwner : (claim_slot s.pool w spurious pc).1.owner_worker_id = s.pool.owner_worker_id :=
      SlotPool.owner_worker_id_claim_slot hStore
    have hHolders : claim_holders s.holders w pc = s.holders := by
      cases pc <;> first | rfl | exact absurd ⟨_, rfl⟩ hStore
    refine ⟨hConsistent, ?_, ?_, ?_, hIds⟩
    · simpa only [hOwner, hHolders] using h.held
    · simpa only [hOwner, hHolders] using h.unheld
    · simpa only [hOwner] using h.owner

/-- A release ends the one holding there is, or changes no owner. -/
theorem Invariant.release {s : State} {t w : Nat} {pc : ReleasePc}
    (h : Invariant s) (hCall : s.calls t = .release w pc) :
    Invariant { s with
      pool := (release_slot s.pool w pc).1
      calls := Function.update s.calls t (.release w (release_slot s.pool w pc).2)
      holders := release_holders s.pool s.holders w pc } := by
  have hConsistent := h.consistent.release_slot (fun _ _ _ => by omega) hCall rfl
  have hIds := ids_update (t := t) h.ids (.release w (release_slot s.pool w pc).2)
    (by simp [Call.worker_id])
  by_cases hTake : ∃ i, pc = .casOwner i ∧ s.pool.owner_worker_id i = w
  · obtain ⟨i, rfl, hOwns⟩ := hTake
    have hHeld := h.held i w hOwns
    refine ⟨hConsistent, ?_, ?_, ?_, hIds⟩
    · intro j w' hOwner
      simp only [release_slot, release_holders, hOwns, if_true] at hOwner ⊢
      by_cases hj : j = i
      · subst hj
        rw [Function.update_self] at hOwner
        omega
      · rw [Function.update_of_ne hj] at hOwner ⊢
        exact h.held j w' hOwner
    · intro j hOwner
      simp only [release_slot, release_holders, hOwns, if_true] at hOwner ⊢
      by_cases hj : j = i
      · subst hj
        rw [Function.update_self, hHeld, List.erase_cons_head]
      · rw [Function.update_of_ne hj] at hOwner ⊢
        exact h.unheld j hOwner
    · intro j
      simp only [release_slot, hOwns, if_true]
      by_cases hj : j = i
      · subst hj
        exact .inl (Function.update_self ..)
      · rw [Function.update_of_ne hj]
        exact h.owner j
  · have hOwner : (release_slot s.pool w pc).1.owner_worker_id = s.pool.owner_worker_id :=
      SlotPool.owner_worker_id_release_slot hTake
    have hHolders : release_holders s.pool s.holders w pc = s.holders := by
      cases pc with
      | casOwner i =>
          have hNot : s.pool.owner_worker_id i ≠ w := fun hOwns => hTake ⟨i, rfl, hOwns⟩
          simp [release_holders, hNot]
      | setFree i => rfl
      | clearActive i k => rfl
      | returned => rfl
      | threw => rfl
    refine ⟨hConsistent, ?_, ?_, ?_, hIds⟩
    · simpa only [hOwner, hHolders] using h.held
    · simpa only [hOwner, hHolders] using h.unheld
    · simpa only [hOwner] using h.owner

/-- Entering and leaving a call touches neither the pool nor a holding. -/
theorem Invariant.enter {s : State} {t : Nat} {call : Call} (h : Invariant s)
    (hBefore : (s.calls t).carried = none) (hAfter : call.carried = none)
    (hExpected : ∀ w i x, call ≠ .claim w (.casWord i x)) (hId : ∀ w ∈ call.worker_id, 0 ≤ w) :
    Invariant { s with calls := Function.update s.calls t call } :=
  ⟨h.consistent.move rfl rfl rfl hBefore hAfter fun w i x hEq => absurd hEq (hExpected w i x),
    h.held, h.unheld, h.owner, ids_update h.ids call hId⟩

theorem invariant_step {s s' : State} {l : Label} (h : Invariant s) (hStep : step s l = some s') :
    Invariant s' := by
  cases l with
  | claim_slot t w =>
      simp only [step, Option.ite_none_right_eq_some, Option.some.injEq] at hStep
      obtain ⟨hIdle, rfl⟩ := hStep
      exact h.enter (by rw [hIdle]; rfl) rfl (by simp) (by simp [Call.worker_id])
  | release_slot t slot_id w =>
      simp only [step, Option.ite_none_right_eq_some, Option.some.injEq] at hStep
      obtain ⟨hIdle, rfl⟩ := hStep
      refine h.enter (by rw [hIdle]; rfl) ?_ (by simp) (by simp [Call.worker_id])
      unfold release_slot_entry
      split
      next => rfl
      next => split <;> rfl
  | advance t spurious =>
      simp only [step] at hStep
      split at hStep
      next => simp at hStep
      next w pc hCall =>
        obtain rfl := Option.some.inj hStep
        obtain ⟨w, rfl⟩ := Int.eq_ofNat_of_zero_le (h.ids t w (by rw [hCall]; rfl))
        exact h.claim hCall
      next w pc hCall =>
        obtain rfl := Option.some.inj hStep
        obtain ⟨w, rfl⟩ := Int.eq_ofNat_of_zero_le (h.ids t w (by rw [hCall]; rfl))
        exact h.release hCall
  | finish t =>
      simp only [step, Option.ite_none_right_eq_some, Option.some.injEq] at hStep
      obtain ⟨hFinished, rfl⟩ := hStep
      refine h.enter ?_ rfl (by simp) (by simp [Call.worker_id])
      unfold finished at hFinished
      split at hFinished <;> simp_all [Call.carried]

theorem invariant_of_reachable {s : State} (run : machine.Reachable s) : Invariant s :=
  run.invariant Invariant (fun _ => invariant_initial)
    fun _ _ _ h _ hStep => invariant_step h hStep

/-- No slot has two holders, a free bit is right about its slot, only the owner's
release passes the ownership check, and every slot of the pool is free, owned, or
carried by exactly one call, and nothing else is. -/
structure Exclusive (s : State) : Prop where
  one_holder : ∀ i, (s.holders i).length ≤ 1
  holder_owns : ∀ i (w : Nat), w ∈ s.holders i ↔ s.pool.owner_worker_id i = (w : Int)
  free_bit : ∀ i, s.pool.free_mask.test_bit i = true →
    (i : Int) < s.pool.num_slots ∧ s.pool.owner_worker_id i = -1
  release_passes : ∀ t (w : Nat) i spurious s', s.calls t = .release w (.casOwner i) →
    step s (.advance t spurious) = some s' →
    (s'.calls t = .release w (.setFree i) ↔ s.holders i = [w])
  accounted : ∀ i : Slot, (i : Int) < s.pool.num_slots →
    (s.pool.free_mask.test_bit i = true ∧ s.pool.owner_worker_id i = -1 ∧
      ∀ t, (s.calls t).carried ≠ some i) ∨
    (s.pool.free_mask.test_bit i = false ∧ s.pool.owner_worker_id i ≠ -1 ∧
      ∀ t, (s.calls t).carried ≠ some i) ∨
    (s.pool.free_mask.test_bit i = false ∧ s.pool.owner_worker_id i = -1 ∧
      ∃! t, (s.calls t).carried = some i)
  outside : ∀ i : Slot, s.pool.num_slots ≤ i → s.pool.free_mask.test_bit i = false ∧
    s.pool.owner_worker_id i = -1 ∧ ∀ t, (s.calls t).carried ≠ some i

theorem Invariant.mem_holders {s : State} (h : Invariant s) (i : Slot) (w : Nat) :
    w ∈ s.holders i ↔ s.pool.owner_worker_id i = (w : Int) := by
  rcases h.owner i with hNone | ⟨w', hOwner⟩
  · rw [h.unheld i hNone, hNone]
    simp only [List.not_mem_nil, false_iff]
    omega
  · rw [h.held i w' hOwner, hOwner]
    simp [eq_comm]

/-- Slots are exclusive in every reachable state: any number of threads claim and release, their
atomic steps come in any order, and a weak compare-exchange may fail for no reason. -/
theorem exclusive_of_reachable {s : State} (run : machine.Reachable s) : Exclusive s := by
  have h := invariant_of_reachable run
  refine ⟨?_, h.mem_holders, fun i hFree => ⟨(h.consistent.free i hFree).1,
    (h.consistent.free i hFree).2.1⟩, ?_, ?_, ?_⟩
  · intro i
    rcases h.owner i with hNone | ⟨w, hOwner⟩
    · simp [h.unheld i hNone]
    · simp [h.held i w hOwner]
  · intro t w i spurious s' hCall hStep
    simp only [step, hCall, Option.some.injEq] at hStep
    subst hStep
    have hHeld : s.holders i = [w] ↔ s.pool.owner_worker_id i = w :=
      ⟨fun hEq => (h.mem_holders i w).mp (by simp [hEq]), h.held i w⟩
    simp only [hHeld, Function.update_self]
    by_cases hOwner : s.pool.owner_worker_id i = w <;> simp [release_slot, hOwner]
  · intro i hi
    by_cases hFree : s.pool.free_mask.test_bit i = true
    · exact .inl ⟨hFree, (h.consistent.free i hFree).2⟩
    · rw [Bool.not_eq_true] at hFree
      by_cases hOwner : s.pool.owner_worker_id i = -1
      · rcases h.consistent.recorded i hi with hSet | hOwned | ⟨t, hCarried⟩
        · simp [hFree] at hSet
        · exact absurd hOwner hOwned
        · exact .inr (.inr ⟨hFree, hOwner, t, hCarried,
            (h.consistent.carried t i hCarried).2⟩)
      · exact .inr (.inl ⟨hFree, hOwner, (h.consistent.owned i hOwner).2⟩)
  · intro i hi
    refine ⟨?_, ?_, ?_⟩
    · by_contra hFree
      have := (h.consistent.free i (by simpa using hFree)).1
      omega
    · by_contra hOwned
      have := (h.consistent.owned i hOwned).1
      omega
    · intro t hCarried
      have := (h.consistent.carried t i hCarried).1
      omega

/-- A pool of two slots, ready for its first call. -/
def twoSlots : State where
  pool := {
    num_slots := 2, hidden_dim := 8, intermediate_dim := 16, qkv_dim := 24
    max_seq_per_step := 4, input_buffer_size := 128, output_buffer_size := 256
    free_mask := .all_below 2, active_mask := .zero, owner_worker_id := fun _ => -1 }
  g_ctrl := some {}
  calls := fun _ => .idle
  holders := fun _ => []

theorem twoSlots_initial : machine.initial twoSlots :=
  ⟨⟨fun _ => true, 2, 8, 16, 2, 4, 4, 2, rfl⟩, fun _ => rfl, fun _ => rfl⟩

/-- Worker 7 claims a slot of the pool, and worker 9 claims and releases another
while the first claim is still being scrubbed. -/
theorem exclusive_of_two_workers : ∃ s, machine.Reachable s ∧ s.holders 0 = [7] ∧
    s.holders 1 = [] ∧ Exclusive s := by
  let claim (t w : Nat) : List Label := .claim_slot t w :: List.replicate 4 (.advance t false)
  let release : List Label := .release_slot 4 1 9 :: List.replicate 4 (.advance 4 false)
  have hRun : (machine.replay twoSlots (claim 3 7 ++ claim 4 9 ++
      List.replicate 4 (.advance 4 false) ++ [.finish 4] ++ release)).map
      (fun s => (s.holders 0, s.holders 1)) = some ([7], []) := by decide +kernel
  obtain ⟨s, hReplay, hHolders⟩ := Option.map_eq_some_iff.mp hRun
  have run := Machine.System.reachable_of_replay (.start twoSlots_initial) hReplay
  obtain ⟨h0, h1⟩ := Prod.mk.inj hHolders
  exact ⟨s, run, h0, h1, exclusive_of_reachable run⟩

end Aggregator.SlotCalls
