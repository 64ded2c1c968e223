import Mathlib.Data.Finset.Defs
import Mathlib.Data.List.Nodup
import Mathlib.Data.List.Sort
import Mathlib.Logic.Function.Basic

/-! Finite maps that list their keys in the order in which the keys came in, as the dictionaries
of Python do. An assignment to a key that is there keeps its place. Sets, on the other hand, are
iterated in any order at all. -/
namespace Data

/-- A dictionary: `keys` is the order of iteration, which is that of insertion, and `find` is the
lookup. That the two agree is part of it. -/
structure OrderedDict (κ α : Type) where
  keys : List κ
  find : κ → Option α
  nodup : keys.Nodup
  mem_keys : ∀ k, k ∈ keys ↔ (find k).isSome

namespace OrderedDict

variable {κ α : Type}

def empty : OrderedDict κ α where
  keys := []
  find _ := none
  nodup := List.nodup_nil
  mem_keys _ := by simp

instance : EmptyCollection (OrderedDict κ α) := ⟨empty⟩

instance : Inhabited (OrderedDict κ α) := ⟨empty⟩

/-- The values in the order of their keys. -/
def values (d : OrderedDict κ α) : List α := d.keys.filterMap d.find

/-- Apply a function to every value. -/
def map (d : OrderedDict κ α) (f : α → α) : OrderedDict κ α where
  keys := d.keys
  find k := (d.find k).map f
  nodup := d.nodup
  mem_keys k := by rw [d.mem_keys k, Option.isSome_map]

@[simp] theorem find_empty (k : κ) : (∅ : OrderedDict κ α).find k = none := rfl

@[simp] theorem find_map (d : OrderedDict κ α) (f : α → α) (k : κ) :
    (d.map f).find k = (d.find k).map f := rfl

theorem mem_values (d : OrderedDict κ α) (v : α) : v ∈ d.values ↔ ∃ k, d.find k = some v := by
  simp only [values, List.mem_filterMap]
  constructor
  · rintro ⟨k, _, hFind⟩
    exact ⟨k, hFind⟩
  · rintro ⟨k, hFind⟩
    exact ⟨k, (d.mem_keys k).mpr (by rw [hFind]; rfl), hFind⟩

variable [DecidableEq κ]

def set (d : OrderedDict κ α) (k : κ) (v : α) : OrderedDict κ α where
  keys := if (d.find k).isSome then d.keys else d.keys ++ [k]
  find := Function.update d.find k (some v)
  nodup := by
    split
    · exact d.nodup
    · rename_i hNew
      have hFresh : k ∉ d.keys := fun hMem => hNew ((d.mem_keys k).mp hMem)
      exact d.nodup.append (List.nodup_singleton k) (List.disjoint_singleton.mpr hFresh)
  mem_keys k' := by
    by_cases hk : k' = k
    · subst hk
      by_cases hOld : (d.find k').isSome
      · simp [hOld, (d.mem_keys k').mpr hOld]
      · simp [hOld]
    · rw [Function.update_of_ne hk, ← d.mem_keys k']
      split
      · exact Iff.rfl
      · simp [hk]

/-- Apply a function to the value of a key, if the key is there. -/
def modify (d : OrderedDict κ α) (k : κ) (f : α → α) : OrderedDict κ α where
  keys := d.keys
  find := Function.update d.find k ((d.find k).map f)
  nodup := d.nodup
  mem_keys k' := by
    by_cases hk : k' = k
    · subst hk
      rw [Function.update_self, Option.isSome_map, d.mem_keys k']
    · rw [Function.update_of_ne hk, d.mem_keys k']

def erase (d : OrderedDict κ α) (k : κ) : OrderedDict κ α where
  keys := d.keys.erase k
  find := Function.update d.find k none
  nodup := d.nodup.erase k
  mem_keys k' := by
    by_cases hk : k' = k
    · subst hk
      simp [d.nodup.not_mem_erase]
    · rw [Function.update_of_ne hk, List.mem_erase_of_ne hk, d.mem_keys k']

@[simp] theorem find_set (d : OrderedDict κ α) (k k' : κ) (v : α) :
    (d.set k v).find k' = if k' = k then some v else d.find k' := by
  rw [← Function.update_apply]
  rfl

@[simp] theorem find_modify (d : OrderedDict κ α) (k k' : κ) (f : α → α) :
    (d.modify k f).find k' = if k' = k then (d.find k').map f else d.find k' := by
  show Function.update d.find k ((d.find k).map f) k' = _
  rw [Function.update_apply]
  split
  · rename_i hk
    rw [hk]
  · rfl

@[simp] theorem find_erase (d : OrderedDict κ α) (k k' : κ) :
    (d.erase k).find k' = if k' = k then none else d.find k' := by
  rw [← Function.update_apply]
  rfl

end OrderedDict

/-- An order in which sets are iterated; nothing is promised about which. -/
structure SetOrder (α : Type) where
  toList : Finset α → List α
  nodup : ∀ s, (toList s).Nodup
  mem_toList : ∀ s x, x ∈ toList s ↔ x ∈ s

/-- One such order, which can be computed. -/
def SetOrder.sorted {α : Type} [LinearOrder α] : SetOrder α where
  toList s := Quot.lift (List.insertionSort (· ≤ ·))
    (fun _ _ hPerm => ((List.perm_insertionSort _ _).trans
      (hPerm.trans (List.perm_insertionSort _ _).symm)).eq_of_pairwise'
      (List.pairwise_insertionSort _ _) (List.pairwise_insertionSort _ _)) s.val
  nodup := by
    rintro ⟨⟨l⟩, hNodup⟩
    exact (List.perm_insertionSort _ l).nodup_iff.mpr hNodup
  mem_toList := by
    rintro ⟨⟨l⟩, _⟩ a
    exact List.mem_insertionSort (· ≤ ·)

end Data
