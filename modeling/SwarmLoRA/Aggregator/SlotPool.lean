import Mathlib.Logic.Function.Basic
import SwarmLoRA.Ipc.SlotMask
import SwarmLoRA.Ipc.SlotSets
import SwarmLoRA.Machine.System

namespace Ipc

/-- The control block that the aggregator and the workers share. The ring pointers live with the
ring itself, and the counters that no party reads back are left out. -/
structure ControlBlock where
  /-- `quit_flag`, set once and never cleared. -/
  quit_flag : Bool := false
  active_slot_mask : SlotMask := {}
  pending_slot_joins : SlotMask := {}
  pending_slot_leaves : SlotMask := {}
  per_slot_ready_mask : SlotMask := {}
  evicted_slot_mask : SlotMask := {}
  barrier_done_epoch : Nat := 0

namespace ControlBlock

def slot_signal_join (c : ControlBlock) (i : Slot) : ControlBlock :=
  { c with pending_slot_joins := c.pending_slot_joins.set_bit i }

def slot_signal_leave (c : ControlBlock) (i : Slot) : ControlBlock :=
  { c with pending_slot_leaves := c.pending_slot_leaves.set_bit i }

def slot_signal_ready (c : ControlBlock) (i : Slot) : ControlBlock :=
  { c with per_slot_ready_mask := c.per_slot_ready_mask.set_bit i }

def slot_is_active (c : ControlBlock) (i : Slot) : Bool := c.active_slot_mask.test_bit i

def is_slot_evicted (c : ControlBlock) (i : Slot) : Bool := c.evicted_slot_mask.test_bit i

end ControlBlock

end Ipc

/-! The slot pool of the aggregator process and the calls that workers make on it. Claims and
releases run on the connection threads, so any number of calls are interleaved and every atomic
access to the pool is one step. -/
namespace Aggregator

open Ipc Machine

structure SlotPool where
  num_slots : Int
  hidden_dim : Nat
  intermediate_dim : Nat
  qkv_dim : Int
  max_seq_per_step : Nat
  input_buffer_size : Nat
  output_buffer_size : Nat
  free_mask : SlotMask
  active_mask : SlotMask
  owner_worker_id : Slot → Int

/-- Multiplication of `size_t` values, which wraps around. -/
def size_mul (x y : Nat) : Nat := x * y % 2 ^ 64

/-- What 32 bits keep of the value of an `int` expression. -/
def int_wrap (x : Int) : Int := x.bmod (2 ^ 32)

/-- The conversion of an `int` to `size_t`, in which a negative value becomes a
huge one. -/
def size_of_int (x : Int) : Nat := (x % 2 ^ 64).toNat

/-- Allocate the pool with every slot free. `none` is the source's exception, for
a slot count outside `1 .. MAX_SLOTS` or a buffer that `cudaMalloc` refuses. The
widths are `int` expressions and wrap around at 32 bits; only their product with
the number of tokens and the size of the dtype is taken in `size_t`. -/
def init_slot_pool (cudaMalloc : Nat → Bool) (num_slots : Int)
    (hidden_dim intermediate_dim num_kv_heads head_dim max_seq_per_step dtype_size : Nat) :
    Option SlotPool :=
  let qkv_dim := int_wrap (hidden_dim + num_kv_heads * head_dim * 2)
  let input_buffer_size :=
    size_mul (size_mul max_seq_per_step (max intermediate_dim hidden_dim)) dtype_size
  let output_buffer_size :=
    size_mul (size_mul max_seq_per_step (size_of_int (max (int_wrap (intermediate_dim * 2)) qkv_dim)))
      dtype_size
  if num_slots ≤ 0 ∨ (MAX_SLOTS : Int) < num_slots then none
  else if cudaMalloc input_buffer_size && cudaMalloc output_buffer_size then
    some {
      num_slots, hidden_dim, intermediate_dim, qkv_dim, max_seq_per_step
      input_buffer_size, output_buffer_size
      free_mask := .all_below num_slots
      active_mask := .zero
      owner_worker_id := fun _ => -1 }
  else none

/-- The slot of the pool with this id, for an id that the range checks let pass. -/
def slotOf (slot_id : Int) : Option Slot :=
  if h : slot_id.toNat < MAX_SLOTS then some ⟨slot_id.toNat, h⟩ else none

/-- Where a `claim_slot` call stands. The two-word load of the free mask can be
torn; `casWord` keeps the word it expects. -/
inductive ClaimPc where
  | loadFree (k : Fin 2) (free : SlotMask)
  | casWord (slot : Slot) (expected_word : BitVec 64)
  | storeOwner (slot : Slot)
  | scrubReady (slot : Slot) (k : Fin 2)
  | scrubEvicted (slot : Slot) (k : Fin 2)
  | returned (slot : Slot)
  | threw
  deriving DecidableEq

/-- Where a `release_slot` call stands, after its range check. -/
inductive ReleasePc where
  | casOwner (slot : Slot)
  | setFree (slot : Slot)
  | clearActive (slot : Slot) (k : Fin 2)
  | returned
  | threw
  deriving DecidableEq

/-- The next atomic step of `claim_slot` on the pool. A weak compare-exchange
may fail although the word is as expected, which is `spurious`. -/
def claim_slot (pool : SlotPool) (worker_id : Int) (spurious : Bool) :
    ClaimPc → SlotPool × ClaimPc
  | .loadFree k free =>
      let free := free.copyWord k pool.free_mask
      if k = 0 then (pool, .loadFree 1 free)
      else if free.is_zero then (pool, .threw)
      else match free.find_first with
        | none => (pool, .threw)
        | some slot => (pool, .casWord slot (free.word (wordIndex slot)))
  | .casWord slot expected_word =>
      if pool.free_mask.word (wordIndex slot) = expected_word ∧ spurious = false then
        let desired := expected_word &&& ~~~(1#64 <<< bitIndex slot)
        ({ pool with free_mask := pool.free_mask.setWord (wordIndex slot) desired },
          .storeOwner slot)
      else (pool, .loadFree 0 {})
  | .storeOwner slot =>
      ({ pool with owner_worker_id := Function.update pool.owner_worker_id slot worker_id },
        .scrubReady slot 0)
  | .scrubReady slot k => (pool, if k = 0 then .scrubReady slot 1 else .scrubEvicted slot 0)
  | .scrubEvicted slot k => (pool, if k = 0 then .scrubEvicted slot 1 else .returned slot)
  | .returned slot => (pool, .returned slot)
  | .threw => (pool, .threw)

/-- The effect of the same step on the control block: the new tenant's ready
and evicted bits are cleared, one word at a time. -/
def claim_slot_scrub (ctrl : ControlBlock) : ClaimPc → ControlBlock
  | .scrubReady slot k =>
      { ctrl with per_slot_ready_mask :=
          ctrl.per_slot_ready_mask.andWord k (~~~SlotMask.from_bit slot) }
  | .scrubEvicted slot k =>
      { ctrl with evicted_slot_mask :=
          ctrl.evicted_slot_mask.andWord k (~~~SlotMask.from_bit slot) }
  | _ => ctrl

/-- The range check with which `release_slot` starts. -/
def release_slot_entry (pool : SlotPool) (slot_id : Int) : ReleasePc :=
  if slot_id < 0 ∨ pool.num_slots ≤ slot_id then .threw
  else match slotOf slot_id with
    | some slot => .casOwner slot
    | none => .threw

/-- The next atomic step of `release_slot`. The zeroing of the slot's buffers
lies between the ownership check and the free bit and touches no shared mask. -/
def release_slot (pool : SlotPool) (worker_id : Int) : ReleasePc → SlotPool × ReleasePc
  | .casOwner slot =>
      if pool.owner_worker_id slot = worker_id then
        ({ pool with owner_worker_id := Function.update pool.owner_worker_id slot (-1) },
          .setFree slot)
      else (pool, .threw)
  | .setFree slot =>
      ({ pool with free_mask := pool.free_mask.set_bit slot }, .clearActive slot 0)
  | .clearActive slot k =>
      ({ pool with active_mask := pool.active_mask.andWord k (~~~SlotMask.from_bit slot) },
        if k = 0 then .clearActive slot 1 else .returned)
  | .returned => (pool, .returned)
  | .threw => (pool, .threw)

/-- What one connection thread is doing on the pool. Between two of its atomic operations any other
thread may move. -/
inductive Call where
  | idle
  | claim (worker_id : Int) (pc : ClaimPc)
  | release (worker_id : Int) (pc : ReleasePc)
  deriving DecidableEq

/-- The worker in whose name the call is made. -/
def Call.worker_id : Call → Option Int
  | .idle => none
  | .claim w _ | .release w _ => some w

/-- The slot that the call has taken away from its free bit or its owner and has
not yet given the other: no word of the pool records it. -/
def Call.carried : Call → Option Slot
  | .claim _ (.storeOwner slot) => some slot
  | .release _ (.setFree slot) => some slot
  | _ => none

namespace SlotPool

/-- What holds between any two atomic steps of any number of calls: a slot is free, owned or carried
by one call that is to store its owner or to set its free bit, and only one of these. -/
structure Consistent (pool : SlotPool) (calls : Nat → Call) : Prop where
  free : ∀ i, pool.free_mask.test_bit i = true →
    (i : Int) < pool.num_slots ∧ pool.owner_worker_id i = -1 ∧ ∀ t, (calls t).carried ≠ some i
  owned : ∀ i, pool.owner_worker_id i ≠ -1 →
    (i : Int) < pool.num_slots ∧ ∀ t, (calls t).carried ≠ some i
  carried : ∀ t i, (calls t).carried = some i →
    (i : Int) < pool.num_slots ∧ ∀ t', (calls t').carried = some i → t' = t
  recorded : ∀ i : Slot, (i : Int) < pool.num_slots →
    pool.free_mask.test_bit i = true ∨ pool.owner_worker_id i ≠ -1 ∨
      ∃ t, (calls t).carried = some i
  expected : ∀ t w i x, calls t = .claim w (.casWord i x) → x.getLsbD (bitIndex i) = true

variable {pool pool' : SlotPool} {calls : Nat → Call} {t : Nat} {w : Int} {call : Call} {i : Slot}

/-- A call that carries nothing before and after its step may move on freely as
long as the pool keeps its free bits and owners. -/
theorem Consistent.move (h : Consistent pool calls)
    (hNum : pool'.num_slots = pool.num_slots) (hFree : pool'.free_mask = pool.free_mask)
    (hOwner : pool'.owner_worker_id = pool.owner_worker_id)
    (hBefore : (calls t).carried = none) (hAfter : call.carried = none)
    (hExpected : ∀ w j x, call = .claim w (.casWord j x) → x.getLsbD (bitIndex j) = true) :
    Consistent pool' (Function.update calls t call) := by
  have hCarried : ∀ t', (Function.update calls t call t').carried = (calls t').carried := by
    intro t'
    by_cases ht : t' = t
    · subst ht
      rw [Function.update_self, hAfter, hBefore]
    · rw [Function.update_of_ne ht]
  refine ⟨?_, ?_, ?_, ?_, ?_⟩
  · simpa only [hNum, hFree, hOwner, hCarried] using h.free
  · simpa only [hNum, hOwner, hCarried] using h.owned
  · simpa only [hNum, hCarried] using h.carried
  · simpa only [hNum, hFree, hOwner, hCarried] using h.recorded
  · intro t' w j x hCall
    by_cases ht : t' = t
    · subst ht
      rw [Function.update_self] at hCall
      exact hExpected w j x hCall
    · rw [Function.update_of_ne ht] at hCall
      exact h.expected t' w j x hCall

/-- A call that takes a recorded slot out of the pool is the only one that
carries it, because a carried slot is not recorded. -/
theorem Consistent.pickUp (h : Consistent pool calls)
    (hNum : pool'.num_slots = pool.num_slots)
    (hOther : ∀ j, j ≠ i → pool'.free_mask.test_bit j = pool.free_mask.test_bit j ∧
      pool'.owner_worker_id j = pool.owner_worker_id j)
    (hHere : pool'.free_mask.test_bit i = false ∧ pool'.owner_worker_id i = -1)
    (hRecorded : pool.free_mask.test_bit i = true ∨ pool.owner_worker_id i ≠ -1)
    (hBefore : (calls t).carried = none) (hAfter : call.carried = some i)
    (hExpected : ∀ w j x, call ≠ .claim w (.casWord j x)) :
    Consistent pool' (Function.update calls t call) := by
  have hLt : (i : Int) < pool.num_slots ∧ ∀ t', (calls t').carried ≠ some i := by
    rcases hRecorded with hFree | hOwned
    · exact ⟨(h.free i hFree).1, (h.free i hFree).2.2⟩
    · exact h.owned i hOwned
  have hCarried : ∀ t' j, (Function.update calls t call t').carried = some j ↔
      (calls t').carried = some j ∨ (t' = t ∧ i = j) := by
    intro t' j
    by_cases ht : t' = t
    · subst ht
      simp [hAfter, hBefore]
    · rw [Function.update_of_ne ht]
      simp [ht]
  refine ⟨?_, ?_, ?_, ?_, ?_⟩
  · intro j hFree
    have hj : j ≠ i := by
      rintro rfl
      simp [hHere.1] at hFree
    rw [(hOther j hj).1] at hFree
    rw [hNum, (hOther j hj).2]
    simpa [hCarried, Ne.symm hj] using h.free j hFree
  · intro j hOwned
    have hj : j ≠ i := by
      rintro rfl
      exact hOwned hHere.2
    rw [(hOther j hj).2] at hOwned
    rw [hNum]
    simpa [hCarried, Ne.symm hj] using h.owned j hOwned
  · intro t₁ j h₁
    rw [hNum]
    by_cases hj : i = j
    · subst hj
      have hHolds : t₁ = t := by simpa [hCarried, hLt.2] using h₁
      exact ⟨hLt.1, fun t₂ h₂ => by simpa [hCarried, hLt.2, hHolds] using h₂⟩
    · simp only [hCarried, hj, and_false, or_false] at h₁ ⊢
      exact h.carried t₁ j h₁
  · intro j hj
    rw [hNum] at hj
    by_cases hij : j = i
    · exact .inr (.inr ⟨t, (hCarried t j).mpr (.inr ⟨rfl, hij.symm⟩)⟩)
    · rw [(hOther j hij).1, (hOther j hij).2]
      simpa [hCarried, Ne.symm hij] using h.recorded j hj
  · intro t' w j x hCall
    by_cases ht : t' = t
    · subst ht
      rw [Function.update_self] at hCall
      exact absurd hCall (hExpected w j x)
    · rw [Function.update_of_ne ht] at hCall
      exact h.expected t' w j x hCall

/-- The call that carries a slot hands it back to the pool, to its free bit or
to an owner and not to both. -/
theorem Consistent.putDown (h : Consistent pool calls)
    (hNum : pool'.num_slots = pool.num_slots)
    (hOther : ∀ j, j ≠ i → pool'.free_mask.test_bit j = pool.free_mask.test_bit j ∧
      pool'.owner_worker_id j = pool.owner_worker_id j)
    (hHere : pool'.free_mask.test_bit i = true ↔ pool'.owner_worker_id i = -1)
    (hBefore : (calls t).carried = some i) (hAfter : call.carried = none)
    (hExpected : ∀ w j x, call ≠ .claim w (.casWord j x)) :
    Consistent pool' (Function.update calls t call) := by
  obtain ⟨hLt, hOnly⟩ := h.carried t i hBefore
  have hCarried : ∀ t' j, (Function.update calls t call t').carried = some j ↔
      (calls t').carried = some j ∧ i ≠ j := by
    intro t' j
    by_cases ht : t' = t
    · subst ht
      simp [hAfter, hBefore]
    · rw [Function.update_of_ne ht]
      refine ⟨fun hc => ⟨hc, ?_⟩, And.left⟩
      rintro rfl
      exact ht (hOnly t' hc)
  refine ⟨?_, ?_, ?_, ?_, ?_⟩
  · intro j hFree
    rw [hNum]
    by_cases hj : j = i
    · subst hj
      exact ⟨hLt, hHere.mp hFree, by simp [hCarried]⟩
    · rw [(hOther j hj).1] at hFree
      rw [(hOther j hj).2]
      simpa [hCarried, Ne.symm hj] using h.free j hFree
  · intro j hOwned
    rw [hNum]
    by_cases hj : j = i
    · subst hj
      exact ⟨hLt, by simp [hCarried]⟩
    · rw [(hOther j hj).2] at hOwned
      simpa [hCarried, Ne.symm hj] using h.owned j hOwned
  · intro t₁ j h₁
    rw [hNum]
    obtain ⟨hOld, hj⟩ := (hCarried t₁ j).mp h₁
    exact ⟨(h.carried t₁ j hOld).1,
      fun t₂ h₂ => (h.carried t₁ j hOld).2 t₂ ((hCarried t₂ j).mp h₂).1⟩
  · intro j hj
    rw [hNum] at hj
    by_cases hij : j = i
    · subst hij
      by_cases hOwner : pool'.owner_worker_id j = -1
      · exact .inl (hHere.mpr hOwner)
      · exact .inr (.inl hOwner)
    · rw [(hOther j hij).1, (hOther j hij).2]
      simpa [hCarried, Ne.symm hij] using h.recorded j hj
  · intro t' w j x hCall
    by_cases ht : t' = t
    · subst ht
      rw [Function.update_self] at hCall
      exact absurd hCall (hExpected w j x)
    · rw [Function.update_of_ne ht] at hCall
      exact h.expected t' w j x hCall

/-- Taking a word by compare-exchange is clearing the one bit of the slot. -/
theorem setWord_eq_clear_bit {m : SlotMask} {x : BitVec 64}
    (h : m.word (wordIndex i) = x) :
    m.setWord (wordIndex i) (x &&& ~~~(1#64 <<< bitIndex i)) = m.clear_bit i := by
  rw [SlotMask.clear_bit, h]

/-- Every atomic step of a claim keeps the pool consistent, as long as the owner that it
stores is not the mark of an unowned slot. -/
theorem Consistent.claim_slot {pc pc' : ClaimPc} (spurious : Bool) (h : Consistent pool calls)
    (hId : ∀ i, pc = .storeOwner i → w ≠ -1)
    (hCall : calls t = .claim w pc) (hStep : claim_slot pool w spurious pc = (pool', pc')) :
    Consistent pool' (Function.update calls t (.claim w pc')) := by
  have hBefore : (calls t).carried = (Call.claim w pc).carried := by rw [hCall]
  cases pc with
  | loadFree k free =>
      simp only [Aggregator.claim_slot] at hStep
      split at hStep
      next =>
        obtain ⟨rfl, rfl⟩ := hStep
        exact h.move rfl rfl rfl hBefore rfl (by simp)
      next =>
        split at hStep
        next =>
          obtain ⟨rfl, rfl⟩ := hStep
          exact h.move rfl rfl rfl hBefore rfl (by simp)
        next =>
          split at hStep
          next =>
            obtain ⟨rfl, rfl⟩ := hStep
            exact h.move rfl rfl rfl hBefore rfl (by simp)
          next slot hFirst =>
            obtain ⟨rfl, rfl⟩ := hStep
            refine h.move rfl rfl rfl hBefore rfl ?_
            intro w' j x hEq
            simp only [Call.claim.injEq, ClaimPc.casWord.injEq] at hEq
            obtain ⟨-, rfl, rfl⟩ := hEq
            exact SlotMask.test_bit_of_find_first hFirst
  | casWord slot x =>
      simp only [Aggregator.claim_slot] at hStep
      split at hStep
      next hWord =>
        obtain ⟨rfl, rfl⟩ := hStep
        have hSet : pool.free_mask.test_bit slot = true := by
          rw [SlotMask.test_bit, hWord.1]
          exact h.expected t w slot x hCall
        refine h.pickUp rfl ?_ ?_ (.inl hSet) hBefore rfl (by simp)
        · intro j hj
          simp [setWord_eq_clear_bit hWord.1, hj]
        · simpa [setWord_eq_clear_bit hWord.1] using (h.free slot hSet).2.1
      next =>
        obtain ⟨rfl, rfl⟩ := hStep
        exact h.move rfl rfl rfl hBefore rfl (by simp)
  | storeOwner slot =>
      obtain ⟨rfl, rfl⟩ := hStep
      have hNotFree : pool.free_mask.test_bit slot = false := by
        by_contra hSet
        exact (h.free slot (by simpa using hSet)).2.2 t hBefore
      refine h.putDown rfl ?_ ?_ hBefore rfl (by simp)
      · intro j hj
        simp [Function.update_of_ne hj]
      · simpa only [hNotFree, Function.update_self, Bool.false_eq_true, false_iff] using
          hId slot rfl
  | scrubReady slot k =>
      obtain ⟨rfl, rfl⟩ := hStep
      by_cases hk : k = 0 <;>
        exact h.move rfl rfl rfl hBefore (by simp [hk, Call.carried]) (by simp [hk])
  | scrubEvicted slot k =>
      obtain ⟨rfl, rfl⟩ := hStep
      by_cases hk : k = 0 <;>
        exact h.move rfl rfl rfl hBefore (by simp [hk, Call.carried]) (by simp [hk])
  | returned slot =>
      obtain ⟨rfl, rfl⟩ := hStep
      exact h.move rfl rfl rfl hBefore rfl (by simp)
  | threw =>
      obtain ⟨rfl, rfl⟩ := hStep
      exact h.move rfl rfl rfl hBefore rfl (by simp)

/-- Every atomic step of a release keeps the pool consistent, whoever makes the
call. -/
theorem Consistent.release_slot {pc pc' : ReleasePc} (h : Consistent pool calls)
    (hId : ∀ i, pc = .casOwner i → pool.owner_worker_id i = w → w ≠ -1)
    (hCall : calls t = .release w pc) (hStep : release_slot pool w pc = (pool', pc')) :
    Consistent pool' (Function.update calls t (.release w pc')) := by
  have hBefore : (calls t).carried = (Call.release w pc).carried := by rw [hCall]
  cases pc with
  | casOwner slot =>
      simp only [Aggregator.release_slot] at hStep
      split at hStep
      next hOwner =>
        obtain ⟨rfl, rfl⟩ := hStep
        have hOwned : pool.owner_worker_id slot ≠ -1 := by
          rw [hOwner]
          exact hId slot rfl hOwner
        have hNotFree : pool.free_mask.test_bit slot = false := by
          by_contra hSet
          exact hOwned (h.free slot (by simpa using hSet)).2.1
        refine h.pickUp rfl ?_ ?_ (.inr hOwned) hBefore rfl (by simp)
        · intro j hj
          simp [Function.update_of_ne hj]
        · simp [hNotFree]
      next =>
        obtain ⟨rfl, rfl⟩ := hStep
        exact h.move rfl rfl rfl hBefore rfl (by simp)
  | setFree slot =>
      obtain ⟨rfl, rfl⟩ := hStep
      have hUnowned : pool.owner_worker_id slot = -1 := by
        by_contra hOwned
        exact (h.owned slot hOwned).2 t hBefore
      refine h.putDown rfl ?_ ?_ hBefore rfl (by simp)
      · intro j hj
        simp [hj]
      · simp [hUnowned]
  | clearActive slot k =>
      obtain ⟨rfl, rfl⟩ := hStep
      by_cases hk : k = 0 <;>
        exact h.move rfl rfl rfl hBefore (by simp [hk, Call.carried]) (by simp [hk])
  | returned =>
      obtain ⟨rfl, rfl⟩ := hStep
      exact h.move rfl rfl rfl hBefore rfl (by simp)
  | threw =>
      obtain ⟨rfl, rfl⟩ := hStep
      exact h.move rfl rfl rfl hBefore rfl (by simp)

/-- A claim changes an owner only where it stores one. -/
theorem owner_worker_id_claim_slot {pc : ClaimPc} {spurious : Bool}
    (hStore : ¬ ∃ i, pc = .storeOwner i) :
    (Aggregator.claim_slot pool w spurious pc).1.owner_worker_id = pool.owner_worker_id := by
  cases pc <;> simp only [Aggregator.claim_slot] <;> (try split) <;> (try split) <;> (try split) <;>
    first | rfl | exact absurd ⟨_, rfl⟩ hStore

/-- A release changes an owner only where the owner is the one it is made for. -/
theorem owner_worker_id_release_slot {pc : ReleasePc}
    (hTake : ¬ ∃ i, pc = .casOwner i ∧ pool.owner_worker_id i = w) :
    (Aggregator.release_slot pool w pc).1.owner_worker_id = pool.owner_worker_id := by
  cases pc with
  | casOwner i =>
      have hNot : pool.owner_worker_id i ≠ w := fun hOwner => hTake ⟨i, rfl, hOwner⟩
      simp [Aggregator.release_slot, hNot]
  | setFree i => rfl
  | clearActive i k => rfl
  | returned => rfl
  | threw => rfl

end SlotPool

end Aggregator
