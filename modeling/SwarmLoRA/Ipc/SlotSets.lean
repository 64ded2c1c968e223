import Mathlib.Data.Finset.BooleanAlgebra
import SwarmLoRA.Data.Scan
import SwarmLoRA.Ipc.SlotMask

/-! Slot masks are sets of slots. Every operation of a mask is the one of that name on its set,
and a loop that takes the lowest slot out of a mask until the mask is zero visits each of its
slots once. An operation of a shared mask reads or writes one word at a time, and what the other
threads do between its two words is a function of its own. -/
namespace Ipc

namespace SlotMask

/-- The first word has the lower half of the slots. -/
theorem test_bit_low (m : SlotMask) {i : Slot} (h : i.val < 64) :
    m.test_bit i = m.w0.getLsbD i := by
  have hWord : wordIndex i = 0 := Fin.ext (Nat.div_eq_of_lt h)
  rw [test_bit, hWord, bitIndex, Nat.mod_eq_of_lt h]
  rfl

/-- The second word has the upper half. -/
theorem test_bit_high (m : SlotMask) {i : Slot} (h : 64 ≤ i.val) :
    m.test_bit i = m.w1.getLsbD (i - 64) := by
  have hi : i.val < 128 := i.isLt
  have hWord : wordIndex i = 1 := Fin.ext (show i.val / 64 = 1 by omega)
  have hBit : bitIndex i = i - 64 := show i.val % 64 = i - 64 by omega
  rw [test_bit, hWord, hBit]
  rfl

/-- The bits that are set in the 128-bit number of the two words. -/
def slots (m : SlotMask) : Finset Slot :=
  Finset.univ.filter fun i => (m.w1 ++ m.w0).getLsbD i = true

/-- A mask stands for the set of the slots whose bits are set. -/
@[simp] theorem mem_slots {m : SlotMask} {i : Slot} : i ∈ m.slots ↔ m.test_bit i = true := by
  simp only [slots, Finset.mem_filter, Finset.mem_univ, true_and, BitVec.getLsbD_append]
  by_cases hLow : i.val < 64
  · rw [if_pos hLow, m.test_bit_low hLow]
  · rw [if_neg hLow, m.test_bit_high (by omega)]

/-- A mask is determined by its set. -/
theorem slots_injective : Function.Injective slots := by
  intro m o hSame
  refine ext_test_bit fun i => ?_
  rw [Bool.eq_iff_iff, ← mem_slots, ← mem_slots, hSame]

@[simp] theorem slots_zero : zero.slots = ∅ := by
  ext i
  simp

@[simp] theorem slots_set_bit (m : SlotMask) (i : Slot) :
    (m.set_bit i).slots = insert i m.slots := by
  ext j
  simp

@[simp] theorem slots_clear_bit (m : SlotMask) (i : Slot) :
    (m.clear_bit i).slots = m.slots.erase i := by
  ext j
  simp

/-- Every set of slots has a mask. -/
theorem slots_surjective : Function.Surjective slots := by
  intro s
  induction s using Finset.induction_on with
  | empty => exact ⟨zero, slots_zero⟩
  | insert i s hi ih =>
      obtain ⟨m, rfl⟩ := ih
      exact ⟨m.set_bit i, slots_set_bit m i⟩

@[simp] theorem slots_and (m o : SlotMask) : (m &&& o).slots = m.slots ∩ o.slots := by
  ext i
  simp

@[simp] theorem slots_or (m o : SlotMask) : (m ||| o).slots = m.slots ∪ o.slots := by
  ext i
  simp

@[simp] theorem slots_not (m : SlotMask) : (~~~m).slots = m.slotsᶜ := by
  ext i
  simp

/-- A mask is zero if its set is empty. -/
theorem is_zero_iff_slots (m : SlotMask) : m.is_zero = true ↔ m.slots = ∅ := by
  rw [is_zero_iff, Finset.eq_empty_iff_forall_notMem]
  simp

/-- A bit that is set is no lower than the count of trailing zeros. -/
theorem ctz_le_of_getLsbD {x : BitVec 64} {n : Nat} (h : x.getLsbD n = true) :
    x.ctz.toNat ≤ n := by
  by_contra hLow
  rw [BitVec.getLsbD_false_of_lt_ctz (by omega)] at h
  cases h

/-- The first slot of a mask is the least one of its set. -/
theorem find_first_le {m : SlotMask} {i j : Slot} (hFirst : m.find_first = some i)
    (hj : m.test_bit j = true) : i ≤ j := by
  unfold find_first at hFirst
  split at hFirst
  next h0 =>
    obtain rfl := Option.some.inj hFirst
    rw [Fin.le_def]
    by_cases hLow : j.val < 64
    · exact ctz_le_of_getLsbD (by rwa [← m.test_bit_low hLow])
    · have hLt := BitVec.ctz_lt_iff_ne_zero.mpr h0
      simp only [BitVec.lt_def, BitVec.natCast_eq_ofNat, BitVec.toNat_ofNat] at hLt
      show m.w0.ctz.toNat ≤ j.val
      omega
  next h0 =>
    have hHigh : 64 ≤ j.val := by
      by_contra hLow
      rw [m.test_bit_low (by omega), not_not.mp h0] at hj
      exact absurd hj (by simp)
    split at hFirst
    next h1 =>
      obtain rfl := Option.some.inj hFirst
      have hLe := ctz_le_of_getLsbD (by rwa [← m.test_bit_high hHigh])
      rw [Fin.le_def]
      show 64 + m.w1.ctz.toNat ≤ j.val
      omega
    next h1 => cases hFirst

/-- A mask that is not zero has a first slot. -/
theorem find_first_isSome {m : SlotMask} (h : m.is_zero = false) : m.find_first.isSome = true := by
  unfold find_first
  split
  next => rfl
  next h0 =>
    split
    next => rfl
    next h1 =>
      rw [not_not] at h0 h1
      simp [is_zero, h0, h1] at h

/-- The lowest bit that is set is the least slot of the set. -/
theorem find_first_eq_some_iff (m : SlotMask) (i : Slot) :
    m.find_first = some i ↔ IsLeast (m.slots : Set Slot) i := by
  have hLeast : ∀ {j}, m.find_first = some j → IsLeast (m.slots : Set Slot) j := fun hFirst =>
    ⟨by simpa using test_bit_of_find_first hFirst, fun k hk =>
      find_first_le hFirst (by simpa using hk)⟩
  constructor
  · exact hLeast
  · intro h
    have hSome : m.is_zero = false := by
      rw [Bool.eq_false_iff, ne_eq, is_zero_iff_slots]
      exact Finset.ne_empty_of_mem (by simpa using h.1)
    obtain ⟨j, hj⟩ := Option.isSome_iff_exists.mp (find_first_isSome hSome)
    rw [hj, h.unique (hLeast hj)]

/-- Masks as sets that can be emptied from below. -/
def scan : Data.Scan SlotMask Slot where
  members := slots
  isEmpty := is_zero
  first := find_first
  remove := clear_bit
  isEmpty_iff := is_zero_iff_slots
  first_eq_some := find_first_eq_some_iff
  members_remove := slots_clear_bit

/-- `while (!remaining.is_zero())` with the lowest slot found, cleared and handed to the body. -/
def drain {σ : Type*} (body : σ → Slot → σ) : Nat → SlotMask → σ → Option σ
  | 0, remaining, s => if remaining.is_zero then some s else none
  | fuel + 1, remaining, s =>
      if remaining.is_zero then some s
      else match remaining.find_first with
        | none => none
        | some slot_id => drain body fuel (remaining.clear_bit slot_id) (body s slot_id)

/-- The loop over a mask is the loop over the set. -/
theorem drain_eq_loop {σ : Type*} (body : σ → Slot → σ) (fuel : Nat) (remaining : SlotMask)
    (s : σ) : drain body fuel remaining s = scan.loop body fuel remaining s := by
  induction fuel generalizing remaining s with
  | zero => rfl
  | succ fuel ih =>
      have hFirst : scan.first remaining = remaining.find_first := rfl
      simp only [drain, Data.Scan.loop, ih, hFirst]
      cases remaining.find_first <;> rfl

/-- The count of the bits is the size of the set. -/
theorem card_slots (m : SlotMask) : m.slots.card = m.popcount := by
  rw [popcount_eq_card]
  congr 1
  ext i
  simp

/-- The loop ends after one round for each slot of the mask, and has then run its body on them in
ascending order. -/
theorem drain_eq {σ : Type*} (body : σ → Slot → σ) (fuel : Nat) (m : SlotMask) (s : σ) :
    drain body fuel m s =
      if m.popcount ≤ fuel then some (m.slots.sort.foldl body s) else none := by
  rw [drain_eq_loop]
  split
  next h => exact scan.loop_eq body ((card_slots m).trans_le h) s
  next h => exact scan.loop_eq_none body (by simpa [scan, card_slots] using h) s

/-- The slots of a mask in order. -/
theorem slots_sort (m : SlotMask) :
    m.slots.sort = (List.finRange MAX_SLOTS).filter m.test_bit := by
  have hSame : ∀ i, i ∈ m.slots.sort ↔ i ∈ (List.finRange MAX_SLOTS).filter m.test_bit := by
    intro i
    simp
  exact m.slots.sortedLT_sort.pairwise.eq_of_mem_iff
    ((List.pairwise_lt_finRange MAX_SLOTS).filter _) hSame

/-- The slots of one word. -/
def wordSlots (k : Fin 2) : Finset Slot := Finset.univ.filter fun i => wordIndex i = k

/-- The slots whose bits are in one word. -/
@[simp] theorem mem_wordSlots {k : Fin 2} {i : Slot} : i ∈ wordSlots k ↔ wordIndex i = k := by
  simp [wordSlots]

/-- The slots whose bits a value of word `k` sets. -/
def wordSet (k : Fin 2) (x : BitVec 64) : Finset Slot := (zero.setWord k x).slots

/-- The set that a word stands for. -/
theorem mem_wordSet {k : Fin 2} {x : BitVec 64} {i : Slot} :
    i ∈ wordSet k x ↔ wordIndex i = k ∧ x.getLsbD (bitIndex i) = true := by
  rw [wordSet, mem_slots, test_bit_setWord]
  split
  next h => simp [h]
  next h => simp [h]

/-- A word of a mask stands for the part of the set that falls into it. -/
theorem wordSet_word (m : SlotMask) (k : Fin 2) : wordSet k (m.word k) = m.slots ∩ wordSlots k := by
  ext i
  rw [mem_wordSet, Finset.mem_inter, mem_slots, mem_wordSlots, and_comm]
  refine and_congr_left fun hWord => ?_
  rw [test_bit, hWord]

/-- Writing a word replaces the part of the set that falls into it. -/
theorem slots_setWord (m : SlotMask) (k : Fin 2) (x : BitVec 64) :
    (m.setWord k x).slots = m.slots \ wordSlots k ∪ wordSet k x := by
  ext i
  rw [mem_slots, test_bit_setWord, Finset.mem_union, Finset.mem_sdiff, mem_slots, mem_wordSlots,
    mem_wordSet]
  split
  next h => simp [h]
  next h => simp [h]

/-- Copying a word copies the part of the set that falls into it. -/
theorem slots_copyWord (m o : SlotMask) (k : Fin 2) :
    (m.copyWord k o).slots = m.slots \ wordSlots k ∪ o.slots ∩ wordSlots k := by
  rw [copyWord, slots_setWord, wordSet_word]

/-- The word-wise `and` takes slots out of one half only. -/
theorem slots_andWord (m mask : SlotMask) (k : Fin 2) :
    (m.andWord k mask).slots = m.slots \ (wordSlots k \ mask.slots) := by
  ext i
  rw [mem_slots, test_bit_andWord, Finset.mem_sdiff, Finset.mem_sdiff, mem_slots, mem_slots,
    mem_wordSlots]
  split
  next h => simp [h]
  next h => simp [h]

/-- Values of a word are sets of its slots. -/
theorem wordSet_injective (k : Fin 2) : Function.Injective (wordSet k) := by
  intro x y hSame
  have hMask : zero.setWord k x = zero.setWord k y := slots_injective hSame
  rw [← word_setWord_same zero k x, hMask, word_setWord_same]

/-- Every set of slots of one half is that of a word. -/
theorem exists_wordSet {k : Fin 2} {s : Finset Slot} (h : s ⊆ wordSlots k) :
    ∃ x, wordSet k x = s := by
  obtain ⟨m, rfl⟩ := slots_surjective s
  exact ⟨m.word k, by rw [wordSet_word, Finset.inter_eq_left.mpr h]⟩

end SlotMask

/-- The words of a shared mask as they stand. -/
abbrev AtomicSlotMask := SlotMask

namespace AtomicSlotMask

open SlotMask

section Words

-- `first` is the word that is read first: the order of a constructor's arguments is not fixed.
-- `between` is what the other threads do to the mask between the two words.
variable (first : Fin 2) (between : AtomicSlotMask → AtomicSlotMask)

/-- The mask that was read and the shared one. -/
def load (shared : AtomicSlotMask) : SlotMask × AtomicSlotMask :=
  let seen := zero.copyWord first shared
  let shared := between shared
  (seen.copyWord (first + 1) shared, shared)

/-- Both words are stored, the first one before the second. -/
def store (m : SlotMask) (shared : AtomicSlotMask) : AtomicSlotMask :=
  (between (shared.copyWord 0 m)).copyWord 1 m

/-- The mask that was taken and what is left. -/
def exchange_zero (shared : AtomicSlotMask) : SlotMask × AtomicSlotMask :=
  let old := zero.copyWord first shared
  let shared := between (shared.setWord first 0)
  (old.copyWord (first + 1) shared, shared.setWord (first + 1) 0)

/-- Both words are masked, the first one before the second. -/
def fetch_and_mask (mask : SlotMask) (shared : AtomicSlotMask) : AtomicSlotMask :=
  (between (shared.andWord 0 mask)).andWord 1 mask

end Words

/-- Sets one bit, in one atomic access. -/
def fetch_or_bit (i : Slot) (shared : AtomicSlotMask) : AtomicSlotMask :=
  shared.setWord (wordIndex i) (shared.word (wordIndex i) ||| 1#64 <<< bitIndex i)

/-- Reads one bit, in one atomic access. -/
def test_bit (i : Slot) (shared : AtomicSlotMask) : Bool :=
  (shared.word (wordIndex i)).getLsbD (bitIndex i)

/-- A weak compare-exchange: whether it succeeded, what `expected` is then, and the mask. It may
fail although the word is as expected, which is `spurious`. -/
def compare_exchange_word (word_idx : Fin 2) (expected desired : BitVec 64) (spurious : Bool)
    (shared : AtomicSlotMask) : Bool × BitVec 64 × AtomicSlotMask :=
  if shared.word word_idx = expected ∧ spurious = false then
    (true, expected, shared.setWord word_idx desired)
  else (false, shared.word word_idx, shared)

/-- The two halves are complements. -/
theorem wordSlots_other (k : Fin 2) : wordSlots (k + 1) = (wordSlots k)ᶜ := by
  ext i
  rw [Finset.mem_compl, mem_wordSlots, mem_wordSlots]
  omega

variable {first : Fin 2} {between : AtomicSlotMask → AtomicSlotMask}

/-- Filling in a word and then the other one. -/
theorem split_words {α : Type*} [Fintype α] [DecidableEq α] (m a b w : Finset α) :
    (m \ w ∪ a ∩ w) \ wᶜ ∪ b ∩ wᶜ = a ∩ w ∪ b \ w := by
  ext i
  by_cases hi : i ∈ w <;> simp [hi]

/-- Masking a word and then the other one. -/
theorem sdiff_words {α : Type*} [Fintype α] [DecidableEq α] (a m w : Finset α) :
    (a \ (w \ m)) \ (wᶜ \ m) = a ∩ m := by
  ext i
  by_cases hi : i ∈ w <;> simp [hi]

/-- Of the word that is read first the slots are those before the other threads, of the other
word those after them. -/
theorem slots_load (shared : AtomicSlotMask) :
    (load first between shared).1.slots =
      shared.slots ∩ wordSlots first ∪ (between shared).slots \ wordSlots first := by
  rw [load, slots_copyWord, slots_copyWord, wordSlots_other, split_words]

/-- A store leaves in the first half what the others make of it before the second word is stored. -/
theorem slots_store (m : SlotMask) (shared : AtomicSlotMask) :
    (store between m shared).slots =
      (between (shared.copyWord 0 m)).slots ∩ wordSlots 0 ∪ m.slots \ wordSlots 0 := by
  rw [store, slots_copyWord, show (1 : Fin 2) = 0 + 1 from rfl, wordSlots_other,
    sdiff_compl, Finset.inf_eq_inter, Finset.sdiff_eq_inter_compl]

theorem wordSet_zero (k : Fin 2) : wordSet k 0 = ∅ := by
  ext i
  simp [mem_wordSet]

/-- An exchange takes each half as it is when its turn comes, and what is set in the first half
after its turn stays. -/
theorem slots_exchange_zero (shared : AtomicSlotMask) :
    (exchange_zero first between shared).1.slots = shared.slots ∩ wordSlots first ∪
        (between (shared.setWord first 0)).slots \ wordSlots first ∧
      (exchange_zero first between shared).2.slots =
        (between (shared.setWord first 0)).slots ∩ wordSlots first := by
  constructor
  · rw [exchange_zero, slots_copyWord, slots_copyWord, wordSlots_other, split_words]
  · rw [exchange_zero, slots_setWord, wordSet_zero, wordSlots_other, Finset.union_empty,
      sdiff_compl, Finset.inf_eq_inter]

/-- A masking takes from the second half what is there when its turn comes. -/
theorem slots_fetch_and_mask (mask : SlotMask) (shared : AtomicSlotMask) :
    (fetch_and_mask between mask shared).slots =
      (between (shared.andWord 0 mask)).slots \ (wordSlots 1 \ mask.slots) :=
  slots_andWord _ _ _

@[simp] theorem slots_fetch_or_bit (i : Slot) (shared : AtomicSlotMask) :
    (fetch_or_bit i shared).slots = insert i shared.slots := slots_set_bit shared i

/-- A compare-exchange succeeds if the half is the expected set, unless it fails for no reason. -/
theorem compare_exchange_word_iff (k : Fin 2) (expected desired : BitVec 64) (spurious : Bool)
    (shared : AtomicSlotMask) :
    (compare_exchange_word k expected desired spurious shared).1 = true ↔
      shared.slots ∩ wordSlots k = wordSet k expected ∧ spurious = false := by
  rw [← wordSet_word, (wordSet_injective k).eq_iff, compare_exchange_word]
  split
  next h => simp [h]
  next h => simp [h]

/-- A compare-exchange that succeeds replaces the slots of its word. -/
theorem slots_compare_exchange_word {k : Fin 2} {expected desired : BitVec 64} {spurious : Bool}
    {shared : AtomicSlotMask}
    (h : (compare_exchange_word k expected desired spurious shared).1 = true) :
    (compare_exchange_word k expected desired spurious shared).2.2.slots =
      shared.slots \ wordSlots k ∪ wordSet k desired := by
  unfold compare_exchange_word at h ⊢
  split at h
  next hSame => rw [if_pos hSame, slots_setWord]
  next => cases h

/-- One that fails tells what the word is. -/
theorem compare_exchange_word_failed {k : Fin 2} {expected desired : BitVec 64} {spurious : Bool}
    {shared : AtomicSlotMask}
    (h : (compare_exchange_word k expected desired spurious shared).1 = false) :
    (compare_exchange_word k expected desired spurious shared).2.2 = shared ∧
      wordSet k (compare_exchange_word k expected desired spurious shared).2.1 =
        shared.slots ∩ wordSlots k := by
  unfold compare_exchange_word at h ⊢
  split at h
  next => cases h
  next hOther => rw [if_neg hOther]; exact ⟨rfl, wordSet_word shared k⟩

/-- The value that a claim puts into the word of its slot is the word without the slot. -/
theorem wordSet_without (i : Slot) (x : BitVec 64) :
    wordSet (wordIndex i) (x &&& ~~~(1#64 <<< bitIndex i)) = (wordSet (wordIndex i) x).erase i := by
  have hMask : zero.setWord (wordIndex i) (x &&& ~~~(1#64 <<< bitIndex i)) =
      (zero.setWord (wordIndex i) x).clear_bit i := by
    refine ext_test_bit fun j => ?_
    rw [clear_bit, test_bit_setWord, test_bit_setWord, word_setWord_same, test_bit_setWord]
    split <;> rfl
  rw [wordSet, hMask, slots_clear_bit, wordSet]

end AtomicSlotMask

/-- The eviction loop sets the bits of the stuck slots and no others. -/
theorem slots_drain_fetch_or_bit (stuck : SlotMask) (evicted_slot_mask : AtomicSlotMask)
    {fuel : Nat} (h : stuck.popcount ≤ fuel) :
    (stuck.drain (fun mask sid => AtomicSlotMask.fetch_or_bit sid mask) fuel
        evicted_slot_mask).map SlotMask.slots = some (evicted_slot_mask.slots ∪ stuck.slots) := by
  have hFold : ∀ (slots : List Slot) (mask : AtomicSlotMask),
      (slots.foldl (fun mask sid => AtomicSlotMask.fetch_or_bit sid mask) mask).slots =
        mask.slots ∪ slots.toFinset := by
    intro slots
    induction slots with
    | nil => intro mask; simp
    | cons i rest ih =>
        intro mask
        rw [List.foldl_cons, ih, AtomicSlotMask.slots_fetch_or_bit, List.toFinset_cons,
          Finset.insert_union, Finset.union_insert]
  rw [SlotMask.drain_eq, if_pos h, Option.map_some, hFold, Finset.sort_toFinset]

open SlotMask in
/-- What masks and their operations are on sets of slots: each mask is one set, and each operation
the one of mathematics under another name. -/
structure MasksImplementSets : Prop where
  bijective : Function.Bijective slots
  zero : zero.slots = ∅
  from_bit : ∀ i, (from_bit i).slots = {i}
  set_bit : ∀ m i, (set_bit m i).slots = insert i m.slots
  clear_bit : ∀ m i, (clear_bit m i).slots = m.slots.erase i
  test_bit : ∀ m i, test_bit m i = true ↔ i ∈ m.slots
  and : ∀ m o : SlotMask, (m &&& o).slots = m.slots ∩ o.slots
  or : ∀ m o : SlotMask, (m ||| o).slots = m.slots ∪ o.slots
  not : ∀ m : SlotMask, (~~~m).slots = m.slotsᶜ
  popcount : ∀ m, popcount m = m.slots.card
  is_zero : ∀ m, is_zero m = true ↔ m.slots = ∅
  find_first : ∀ m i, find_first m = some i ↔ IsLeast (m.slots : Set Slot) i
  find_first_none : ∀ m, SlotMask.find_first m = none ↔ m.slots = ∅
  all_below : ∀ n : Int, (all_below n).slots = Finset.univ.filter fun i => (i.val : Int) < n

open SlotMask AtomicSlotMask in
/-- What shared masks and their operations are on sets of slots, when nobody else is there and
when other threads act between the two words. -/
structure AtomicsImplementSets : Prop where
  load : ∀ first shared, load first id shared = (shared, shared)
  store : ∀ m shared, store id m shared = m
  exchange_zero : ∀ first shared, exchange_zero first id shared = (shared, zero)
  fetch_and_mask : ∀ mask shared,
    (fetch_and_mask id mask shared).slots = shared.slots ∩ mask.slots
  fetch_or_bit : ∀ i shared, (fetch_or_bit i shared).slots = insert i shared.slots
  test_bit : ∀ i shared, AtomicSlotMask.test_bit i shared = true ↔ i ∈ shared.slots
  load_between : ∀ first between shared,
    (AtomicSlotMask.load first between shared).1.slots =
      shared.slots ∩ wordSlots first ∪ (between shared).slots \ wordSlots first ∧
    (AtomicSlotMask.load first between shared).2 = between shared
  store_between : ∀ between m shared, ∃ mid : AtomicSlotMask,
    mid.slots = shared.slots \ wordSlots 0 ∪ m.slots ∩ wordSlots 0 ∧
    (AtomicSlotMask.store between m shared).slots =
      (between mid).slots ∩ wordSlots 0 ∪ m.slots \ wordSlots 0
  exchange_between : ∀ first between shared, ∃ mid : AtomicSlotMask,
    mid.slots = shared.slots \ wordSlots first ∧
    (AtomicSlotMask.exchange_zero first between shared).1.slots =
      shared.slots ∩ wordSlots first ∪ (between mid).slots \ wordSlots first ∧
    (AtomicSlotMask.exchange_zero first between shared).2.slots =
      (between mid).slots ∩ wordSlots first
  and_between : ∀ between mask shared, ∃ mid : AtomicSlotMask,
    mid.slots = shared.slots \ (wordSlots 0 \ mask.slots) ∧
    (AtomicSlotMask.fetch_and_mask between mask shared).slots =
      (between mid).slots \ (wordSlots 1 \ mask.slots)
  words : ∀ k s, s ⊆ wordSlots k → ∃! x, wordSet k x = s
  word_without : ∀ i x, wordSet (wordIndex i) (x &&& ~~~(1#64 <<< bitIndex i)) =
    (wordSet (wordIndex i) x).erase i
  exchanged : ∀ k expected desired spurious shared,
    (compare_exchange_word k expected desired spurious shared).1 = true ↔
      shared.slots ∩ wordSlots k = wordSet k expected ∧ spurious = false
  on_success : ∀ k expected desired spurious shared,
    (compare_exchange_word k expected desired spurious shared).1 = true →
      (compare_exchange_word k expected desired spurious shared).2.2.slots =
        shared.slots \ wordSlots k ∪ wordSet k desired
  on_failure : ∀ k expected desired spurious shared,
    (compare_exchange_word k expected desired spurious shared).1 = false →
      (compare_exchange_word k expected desired spurious shared).2.2 = shared ∧
      wordSet k (compare_exchange_word k expected desired spurious shared).2.1 =
        shared.slots ∩ wordSlots k

/-- The loop over a mask runs its body on each slot of the mask once, in ascending order, and
ends after as many rounds. -/
def VisitsEachSlot (m : SlotMask) : Prop :=
  ∃ visited : List Slot, visited.Pairwise (· < ·) ∧ (∀ i, i ∈ visited ↔ i ∈ m.slots) ∧
    ∀ {σ : Type} (body : σ → Slot → σ) (fuel : Nat) (s : σ), m.drain body fuel s =
      if visited.length ≤ fuel then some (visited.foldl body s) else none

/-- Every operation of a mask is the one of that name on sets. -/
theorem masksImplementSets : MasksImplementSets where
  bijective := ⟨SlotMask.slots_injective, SlotMask.slots_surjective⟩
  zero := SlotMask.slots_zero
  from_bit i := by rw [SlotMask.from_bit, SlotMask.slots_set_bit, SlotMask.slots_zero]; rfl
  set_bit := SlotMask.slots_set_bit
  clear_bit := SlotMask.slots_clear_bit
  test_bit _ _ := SlotMask.mem_slots.symm
  and := SlotMask.slots_and
  or := SlotMask.slots_or
  not := SlotMask.slots_not
  popcount m := (SlotMask.card_slots m).symm
  is_zero := SlotMask.is_zero_iff_slots
  find_first := SlotMask.find_first_eq_some_iff
  find_first_none := SlotMask.scan.first_eq_none_iff
  all_below n := by
    ext i
    simp

namespace AtomicSlotMask

open SlotMask

/-- A load that nothing interferes with reads the set. -/
theorem load_id (first : Fin 2) (shared : AtomicSlotMask) :
    load first id shared = (shared, shared) := by
  refine Prod.ext (slots_injective ?_) rfl
  rw [slots_load]
  exact sup_inf_sdiff shared.slots (wordSlots first)

/-- A store that nothing interferes with leaves the stored set. -/
theorem store_id (m : SlotMask) (shared : AtomicSlotMask) : store id m shared = m := by
  apply slots_injective
  rw [slots_store, id, slots_copyWord, Finset.union_inter_distrib_right,
    Finset.inter_assoc, Finset.inter_self, Finset.sdiff_inter_self, Finset.empty_union]
  exact sup_inf_sdiff m.slots (wordSlots 0)

/-- An exchange that nothing interferes with takes the whole set. -/
theorem exchange_zero_id (first : Fin 2) (shared : AtomicSlotMask) :
    exchange_zero first id shared = (shared, zero) := by
  obtain ⟨hOld, hLeft⟩ := @slots_exchange_zero first id shared
  rw [id, slots_setWord, wordSet_zero, Finset.union_empty] at hOld hLeft
  refine Prod.ext (slots_injective ?_) (slots_injective ?_)
  · rw [hOld, sdiff_idem]
    exact sup_inf_sdiff shared.slots (wordSlots first)
  · rw [hLeft, Finset.sdiff_inter_self, slots_zero]

/-- A masking that nothing interferes with is an intersection. -/
theorem slots_fetch_and_mask_id (mask : SlotMask) (shared : AtomicSlotMask) :
    (fetch_and_mask id mask shared).slots = shared.slots ∩ mask.slots := by
  have hWords : wordSlots 1 = (wordSlots 0)ᶜ := wordSlots_other 0
  rw [slots_fetch_and_mask, id, slots_andWord, hWords, sdiff_words]

end AtomicSlotMask

/-- Every operation of a shared mask is one on sets, with the interference between its two words. -/
theorem atomicsImplementSets : AtomicsImplementSets where
  load := AtomicSlotMask.load_id
  store := AtomicSlotMask.store_id
  exchange_zero := AtomicSlotMask.exchange_zero_id
  fetch_and_mask := AtomicSlotMask.slots_fetch_and_mask_id
  fetch_or_bit := AtomicSlotMask.slots_fetch_or_bit
  test_bit _ _ := SlotMask.mem_slots.symm
  load_between _ _ shared := ⟨AtomicSlotMask.slots_load shared, rfl⟩
  store_between _ m shared :=
    ⟨_, SlotMask.slots_copyWord shared m 0, AtomicSlotMask.slots_store m shared⟩
  exchange_between first between shared :=
    ⟨_, by rw [SlotMask.slots_setWord, AtomicSlotMask.wordSet_zero, Finset.union_empty],
      AtomicSlotMask.slots_exchange_zero shared⟩
  and_between _ mask shared :=
    ⟨_, SlotMask.slots_andWord shared mask 0, AtomicSlotMask.slots_fetch_and_mask mask shared⟩
  words k s hs := by
    obtain ⟨x, rfl⟩ := SlotMask.exists_wordSet hs
    exact ⟨x, rfl, fun y hy => SlotMask.wordSet_injective k hy⟩
  word_without := AtomicSlotMask.wordSet_without
  exchanged := AtomicSlotMask.compare_exchange_word_iff
  on_success _ _ _ _ _ := AtomicSlotMask.slots_compare_exchange_word
  on_failure _ _ _ _ _ := AtomicSlotMask.compare_exchange_word_failed

/-- The loop visits every slot of the mask once, from the lowest one up. -/
theorem visitsEachSlot (m : SlotMask) : VisitsEachSlot m := by
  refine ⟨m.slots.sort, m.slots.sortedLT_sort.pairwise, fun i => Finset.mem_sort _, ?_⟩
  intro σ body fuel s
  rw [SlotMask.drain_eq, Finset.length_sort, SlotMask.card_slots]

/-- Slot masks, shared or not, are sets of slots under all their operations, and the loop over a
mask runs its body on each of its slots once, in ascending order. -/
theorem slot_masks_implement_sets :
    MasksImplementSets ∧ AtomicsImplementSets ∧ ∀ m, VisitsEachSlot m :=
  ⟨masksImplementSets, atomicsImplementSets, visitsEachSlot⟩

end Ipc
