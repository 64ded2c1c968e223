import Mathlib.Algebra.BigOperators.Intervals
import Mathlib.Algebra.BigOperators.Fin
import Mathlib.Data.Fintype.Card

/-! The 128-bit slot masks of the shared control block. A mask is two 64-bit words and every
atomic operation acts on one of them, so a load, an exchange or a store of a whole mask is two
steps of the machine. -/
namespace Ipc

/-- How many slots there are. -/
def MAX_SLOTS : Nat := 128

instance : NeZero MAX_SLOTS := ⟨by decide⟩

/-- The index of a word can be 0. -/
scoped instance neZero_words : NeZero 2 := ⟨by decide⟩

/-- A slot by its number. -/
abbrev Slot := Fin MAX_SLOTS

/-- The index of the word that holds a slot's bit, `i >> 6`. -/
def wordIndex (i : Slot) : Fin 2 := ⟨i / 64, by have := i.isLt; unfold MAX_SLOTS at this; omega⟩

/-- The position of a slot's bit inside its word, `i & 63`. -/
def bitIndex (i : Slot) : Nat := i % 64

/-- A word has 64 bits. -/
theorem bitIndex_lt (i : Slot) : bitIndex i < 64 := Nat.mod_lt _ (by decide)

/-- A slot is told by its word and its bit. -/
theorem slot_ext {i j : Slot} (hWord : wordIndex i = wordIndex j)
    (hBit : bitIndex i = bitIndex j) : i = j := by
  simp only [wordIndex, bitIndex, Fin.mk.injEq] at hWord hBit
  apply Fin.ext
  omega

/-- The two words of a mask. -/
@[ext]
structure SlotMask where
  w0 : BitVec 64 := 0
  w1 : BitVec 64 := 0
  deriving DecidableEq

/-- `__builtin_popcountll` -/
def popcountll (x : BitVec 64) : Nat := ((Finset.range 64).filter fun i => x.getLsbD i).card

namespace SlotMask

/-- No slot. -/
def zero : SlotMask := {}

/-- One of the two words. -/
def word (m : SlotMask) (k : Fin 2) : BitVec 64 := if k = 0 then m.w0 else m.w1

/-- Replace one word. -/
def setWord (m : SlotMask) (k : Fin 2) (x : BitVec 64) : SlotMask :=
  if k = 0 then { m with w0 := x } else { m with w1 := x }

/-- The mask with the slot. -/
def set_bit (m : SlotMask) (i : Slot) : SlotMask :=
  m.setWord (wordIndex i) (m.word (wordIndex i) ||| 1#64 <<< bitIndex i)

/-- The mask without the slot. -/
def clear_bit (m : SlotMask) (i : Slot) : SlotMask :=
  m.setWord (wordIndex i) (m.word (wordIndex i) &&& ~~~(1#64 <<< bitIndex i))

/-- The slot is in the mask. -/
def test_bit (m : SlotMask) (i : Slot) : Bool := (m.word (wordIndex i)).getLsbD (bitIndex i)

/-- How many slots are in the mask. -/
def popcount (m : SlotMask) : Nat := popcountll m.w0 + popcountll m.w1

/-- No slot is in the mask. -/
def is_zero (m : SlotMask) : Bool := m.w0 == 0 && m.w1 == 0

/-- The lowest set bit; `none` is the source's `-1`. -/
def find_first (m : SlotMask) : Option Slot :=
  if h0 : m.w0 ≠ 0 then
    some ⟨m.w0.ctz.toNat, by
      have := BitVec.ctz_lt_iff_ne_zero.mpr h0
      simp only [BitVec.lt_def, BitVec.natCast_eq_ofNat, BitVec.toNat_ofNat] at this
      unfold MAX_SLOTS; omega⟩
  else if h1 : m.w1 ≠ 0 then
    some ⟨64 + m.w1.ctz.toNat, by
      have := BitVec.ctz_lt_iff_ne_zero.mpr h1
      simp only [BitVec.lt_def, BitVec.natCast_eq_ofNat, BitVec.toNat_ofNat] at this
      unfold MAX_SLOTS; omega⟩
  else none

instance : AndOp SlotMask := ⟨fun m o => ⟨m.w0 &&& o.w0, m.w1 &&& o.w1⟩⟩
instance : OrOp SlotMask := ⟨fun m o => ⟨m.w0 ||| o.w0, m.w1 ||| o.w1⟩⟩
instance : Complement SlotMask := ⟨fun m => ⟨~~~m.w0, ~~~m.w1⟩⟩

/-- The mask of one slot. -/
def from_bit (i : Slot) : SlotMask := zero.set_bit i

/-- All bits below `n`. -/
def all_below (n : Int) : SlotMask :=
  if n ≤ 0 then zero
  else if 128 ≤ n then ⟨.allOnes 64, .allOnes 64⟩
  else if 64 ≤ n then ⟨.allOnes 64, if n = 64 then 0#64 else 1#64 <<< (n - 64).toNat - 1#64⟩
  else ⟨1#64 <<< n.toNat - 1#64, 0#64⟩

/-- `fetch_and` of one word with the same word of `mask`. -/
def andWord (m : SlotMask) (k : Fin 2) (mask : SlotMask) : SlotMask :=
  m.setWord k (m.word k &&& mask.word k)

/-- Copy one word from `o`, as a load into a local mask or a store from one does. -/
def copyWord (m : SlotMask) (k : Fin 2) (o : SlotMask) : SlotMask := m.setWord k (o.word k)

@[simp] theorem word_setWord_same (m : SlotMask) (k : Fin 2) (x : BitVec 64) :
    (m.setWord k x).word k = x := by
  unfold setWord word
  split <;> rfl

@[simp] theorem word_setWord_other (m : SlotMask) {j k : Fin 2} (x : BitVec 64) (h : j ≠ k) :
    (m.setWord k x).word j = m.word j := by
  unfold setWord word
  split <;> split <;> first | rfl | (exfalso; omega)

/-- Writing a word replaces the bits in it. -/
theorem test_bit_setWord (m : SlotMask) (k : Fin 2) (x : BitVec 64) (i : Slot) :
    (m.setWord k x).test_bit i =
      if wordIndex i = k then x.getLsbD (bitIndex i) else m.test_bit i := by
  unfold test_bit
  split
  next h => rw [h, word_setWord_same]
  next h => rw [word_setWord_other m x h]

/-- A mask is told by its bits. -/
theorem ext_test_bit {m o : SlotMask} (h : ∀ i, m.test_bit i = o.test_bit i) : m = o := by
  ext n hn
  · have := h ⟨n, by unfold MAX_SLOTS; omega⟩
    simpa [test_bit, word, wordIndex, bitIndex, Nat.div_eq_of_lt hn, Nat.mod_eq_of_lt hn,
      hn] using this
  · have := h ⟨64 + n, by unfold MAX_SLOTS; omega⟩
    have hDiv : (64 + n) / 64 = 1 := by omega
    have hMod : (64 + n) % 64 = n := by omega
    simpa [test_bit, word, wordIndex, bitIndex, hDiv, hMod, hn] using this

@[simp] theorem test_bit_zero (i : Slot) : zero.test_bit i = false := by
  unfold test_bit word zero
  split <;> exact BitVec.getLsbD_zero

private theorem getLsbD_one_shiftLeft {n j : Nat} (hj : j < 64) :
    (1#64 <<< n).getLsbD j = decide (j = n) := by
  simp only [BitVec.getLsbD_shiftLeft, BitVec.getLsbD_one, hj, decide_true, Bool.true_and]
  rcases Nat.lt_trichotomy j n with h | h | h
  · simp [h, Nat.ne_of_lt h]
  · simp [h]
  · have : j - n ≠ 0 := by omega
    simp [Nat.not_lt.mpr h.le, Nat.ne_of_gt h, this]

@[simp] theorem test_bit_set_bit (m : SlotMask) (i j : Slot) :
    (m.set_bit i).test_bit j = (decide (j = i) || m.test_bit j) := by
  unfold set_bit
  rw [test_bit_setWord]
  split
  next hWord =>
      have hBit : bitIndex j = bitIndex i ↔ j = i := ⟨slot_ext hWord, congrArg _⟩
      rw [← hWord, BitVec.getLsbD_or, getLsbD_one_shiftLeft (bitIndex_lt j), Bool.or_comm]
      simp only [hBit, test_bit]
  next hWord =>
      have hij : j ≠ i := fun h => hWord (congrArg _ h)
      simp [hij]

@[simp] theorem test_bit_clear_bit (m : SlotMask) (i j : Slot) :
    (m.clear_bit i).test_bit j = (!decide (j = i) && m.test_bit j) := by
  unfold clear_bit
  rw [test_bit_setWord]
  split
  next hWord =>
      have hBit : bitIndex j = bitIndex i ↔ j = i := ⟨slot_ext hWord, congrArg _⟩
      rw [← hWord, BitVec.getLsbD_and, BitVec.getLsbD_not,
        getLsbD_one_shiftLeft (bitIndex_lt j), Bool.and_comm]
      simp only [hBit, bitIndex_lt, decide_true, Bool.true_and, test_bit]
  next hWord =>
      have hij : j ≠ i := fun h => hWord (congrArg _ h)
      simp [hij]

@[simp] theorem test_bit_and (m o : SlotMask) (i : Slot) :
    (m &&& o).test_bit i = (m.test_bit i && o.test_bit i) := by
  change (word ⟨m.w0 &&& o.w0, m.w1 &&& o.w1⟩ _).getLsbD _ = _
  unfold test_bit word
  split <;> simp

@[simp] theorem test_bit_or (m o : SlotMask) (i : Slot) :
    (m ||| o).test_bit i = (m.test_bit i || o.test_bit i) := by
  change (word ⟨m.w0 ||| o.w0, m.w1 ||| o.w1⟩ _).getLsbD _ = _
  unfold test_bit word
  split <;> simp

@[simp] theorem test_bit_not (m : SlotMask) (i : Slot) :
    (~~~m).test_bit i = !m.test_bit i := by
  change (word ⟨~~~m.w0, ~~~m.w1⟩ _).getLsbD _ = _
  unfold test_bit word
  split <;> simp [bitIndex_lt]

@[simp] theorem test_bit_from_bit (i j : Slot) : (from_bit i).test_bit j = decide (j = i) := by
  simp [from_bit]

@[simp] theorem test_bit_copyWord (m o : SlotMask) (k : Fin 2) (i : Slot) :
    (m.copyWord k o).test_bit i = if wordIndex i = k then o.test_bit i else m.test_bit i := by
  unfold copyWord
  rw [test_bit_setWord]
  split
  next h => rw [test_bit, h]
  next h => rfl

@[simp] theorem test_bit_andWord (m mask : SlotMask) (k : Fin 2) (i : Slot) :
    (m.andWord k mask).test_bit i =
      if wordIndex i = k then (m.test_bit i && mask.test_bit i) else m.test_bit i := by
  unfold andWord
  rw [test_bit_setWord]
  split
  next h => simp [test_bit, h]
  next h => rfl

/-- A mask is zero if no bit is set. -/
theorem is_zero_iff (m : SlotMask) : m.is_zero = true ↔ ∀ i, m.test_bit i = false := by
  constructor
  · intro h i
    have hZero : m = zero := by
      cases m
      simpa [is_zero, zero] using h
    rw [hZero, test_bit_zero]
  · intro h
    have hZero : m = zero := ext_test_bit fun i => by rw [h i, test_bit_zero]
    rw [hZero]
    rfl

/-- The first slot of a mask is in it. -/
theorem test_bit_of_find_first {m : SlotMask} {i : Slot} (h : m.find_first = some i) :
    m.test_bit i = true := by
  have hLow : ∀ {x : BitVec 64}, x ≠ 0 → x.ctz.toNat < 64 := by
    intro x hx
    have := BitVec.ctz_lt_iff_ne_zero.mpr hx
    simpa [BitVec.lt_def] using this
  unfold find_first at h
  split at h
  next h0 =>
    have hlt := hLow h0
    obtain rfl := Option.some.inj h
    simpa [test_bit, word, wordIndex, bitIndex, Nat.div_eq_of_lt hlt, Nat.mod_eq_of_lt hlt]
      using BitVec.getLsbD_true_ctz_of_ne_zero h0
  next h0 =>
    split at h
    next h1 =>
      have hlt := hLow h1
      have hDiv : (64 + m.w1.ctz.toNat) / 64 = 1 := by omega
      have hMod : (64 + m.w1.ctz.toNat) % 64 = m.w1.ctz.toNat := by omega
      obtain rfl := Option.some.inj h
      simpa [test_bit, word, wordIndex, bitIndex, hDiv, hMod]
        using BitVec.getLsbD_true_ctz_of_ne_zero h1
    next h1 => simp at h

/-- The population count is the number of slots whose bit is set. -/
theorem popcount_eq_card (m : SlotMask) :
    m.popcount = (Finset.univ.filter fun i : Slot => m.test_bit i).card := by
  have hSplit : ∀ f : Nat → Nat, ∑ i : Slot, f i = ∑ i ∈ Finset.range 64, f i +
      ∑ i ∈ Finset.range 64, f (64 + i) := by
    intro f
    rw [Fin.sum_univ_eq_sum_range f MAX_SLOTS, show MAX_SLOTS = 64 + 64 from rfl,
      Finset.sum_range_add]
  let f : Nat → Nat := fun n =>
    if h : n < MAX_SLOTS then if m.test_bit ⟨n, h⟩ then 1 else 0 else 0
  have hBits : ∀ i : Slot, (if m.test_bit i then 1 else 0) = f i := by
    intro i
    simp [f]
  rw [Finset.card_filter, Finset.sum_congr rfl fun i _ => hBits i, hSplit, popcount,
    popcountll, popcountll, Finset.card_filter, Finset.card_filter]
  refine congrArg₂ (· + ·) (Finset.sum_congr rfl fun n hn => ?_)
    (Finset.sum_congr rfl fun n hn => ?_)
  · have hlt : n < 64 := Finset.mem_range.mp hn
    have hSlot : n < MAX_SLOTS := by unfold MAX_SLOTS; omega
    simp [f, hSlot, test_bit, word, wordIndex, bitIndex, Nat.mod_eq_of_lt hlt, hlt]
  · have hlt : n < 64 := Finset.mem_range.mp hn
    have hSlot : 64 + n < MAX_SLOTS := by unfold MAX_SLOTS; omega
    have hMod : (64 + n) % 64 = n := by omega
    simp [f, hSlot, test_bit, word, wordIndex, bitIndex, hMod]

/-- Distinct slots of a mask are no more than its population count. -/
theorem length_le_popcount {m : SlotMask} {slots : List Slot} (hNodup : slots.Nodup)
    (hIn : ∀ i ∈ slots, m.test_bit i = true) : slots.length ≤ m.popcount := by
  rw [popcount_eq_card, ← List.toFinset_card_of_nodup hNodup]
  refine Finset.card_le_card fun i hi => ?_
  simpa using hIn i (List.mem_toFinset.mp hi)

/-- A mask without bits has none to count. -/
theorem popcount_eq_zero_iff (m : SlotMask) : m.popcount = 0 ↔ ∀ i, m.test_bit i = false := by
  simp [popcount_eq_card, Finset.filter_eq_empty_iff]

private theorem getLsbD_lowMask {n j : Nat} (hn : n < 64) :
    (1#64 <<< n - 1#64).getLsbD j = decide (j < n) := by
  have hPow : 2 ^ n < 2 ^ 64 := Nat.pow_lt_pow_right (by decide) hn
  have hPos : 0 < 2 ^ n := Nat.two_pow_pos n
  have hVal : (1#64 <<< n - 1#64).toNat = 2 ^ n - 1 := by
    simp only [BitVec.toNat_sub, BitVec.toNat_shiftLeft, BitVec.toNat_ofNat, Nat.shiftLeft_eq]
    omega
  rw [BitVec.getLsbD, hVal, Nat.testBit_two_pow_sub_one]

@[simp] theorem test_bit_all_below (n : Int) (i : Slot) :
    (all_below n).test_bit i = decide ((i.val : Int) < n) := by
  have hOnes : (BitVec.allOnes 64).getLsbD (bitIndex i) = true := by
    rw [BitVec.getLsbD_allOnes, decide_eq_true (bitIndex_lt i)]
  have hLow := bitIndex_lt i
  have hi := i.isLt
  unfold MAX_SLOTS at hi
  have hWord : (wordIndex i = 0 ∧ bitIndex i = i) ∨ (wordIndex i ≠ 0 ∧ bitIndex i + 64 = i) := by
    simp only [wordIndex, bitIndex, ne_eq, Fin.ext_iff, Fin.val_zero]
    omega
  rw [Bool.eq_iff_iff, decide_eq_true_iff]
  unfold all_below
  split
  next => simp only [test_bit_zero, Bool.false_eq_true, false_iff]; omega
  next =>
    split
    next => simp only [test_bit, word, ite_self, hOnes, true_iff]; omega
    next =>
      split
      next =>
        rcases hWord with ⟨hFirst, hBit⟩ | ⟨hSecond, hBit⟩
        · simp only [test_bit, word, hFirst, if_true, hOnes, true_iff]
          omega
        · simp only [test_bit, word, if_neg hSecond]
          split
          next => simp only [BitVec.getLsbD_zero, Bool.false_eq_true, false_iff]; omega
          next => rw [getLsbD_lowMask (by omega), decide_eq_true_iff]; omega
      next =>
        rcases hWord with ⟨hFirst, hBit⟩ | ⟨hSecond, hBit⟩
        · simp only [test_bit, word, hFirst, if_true]
          rw [getLsbD_lowMask (by omega), decide_eq_true_iff]
          omega
        · simp only [test_bit, word, if_neg hSecond, BitVec.getLsbD_zero, Bool.false_eq_true,
            false_iff]
          omega

end SlotMask

end Ipc
