import Mathlib.Algebra.BigOperators.Group.Finset.Piecewise
import Mathlib.Algebra.Order.BigOperators.Group.Finset
import Mathlib.Tactic.Ring
import SwarmLoRA.Data.OrderedDict

namespace Data

open scoped BigOperators

namespace OrderedDict

variable {κ α : Type}

/-- `d.get(k, default)`. -/
def get (d : OrderedDict κ α) (k : κ) (default : α) : α := (d.find k).getD default

/-- The keys with their values. -/
def items (d : OrderedDict κ α) : List (κ × α) :=
  d.keys.filterMap fun k => (d.find k).map fun v => (k, v)

theorem mem_items {d : OrderedDict κ α} {k : κ} {v : α} :
    (k, v) ∈ d.items ↔ d.find k = some v := by
  simp only [items, List.mem_filterMap, Option.map_eq_some_iff]
  constructor
  · rintro ⟨k', -, v', hFind, hSame⟩
    obtain ⟨rfl, rfl⟩ := Prod.mk.inj hSame
    exact hFind
  · intro hFind
    exact ⟨k, (d.mem_keys k).mpr (by rw [hFind]; rfl), v, hFind, rfl⟩

theorem map_fst_items (d : OrderedDict κ α) : d.items.map (·.1) = d.keys := by
  unfold items
  rw [List.map_filterMap]
  have hKeys : ∀ k ∈ d.keys, ((d.find k).map fun v => (k, v)).map (·.1) = some k := by
    intro k hk
    obtain ⟨v, hv⟩ := Option.isSome_iff_exists.mp ((d.mem_keys k).mp hk)
    rw [hv]
    rfl
  rw [List.filterMap_congr hKeys, List.filterMap_some]

theorem map_snd_items (d : OrderedDict κ α) : d.items.map (·.2) = d.values := by
  unfold items values
  rw [List.map_filterMap]
  refine List.filterMap_congr fun k _ => ?_
  cases d.find k <;> rfl

@[simp] theorem get_empty (k : κ) (default : α) :
    (∅ : OrderedDict κ α).get k default = default := rfl

variable [DecidableEq κ]

theorem get_set (d : OrderedDict κ α) (k k' : κ) (v default : α) :
    (d.set k v).get k' default = if k' = k then v else d.get k' default := by
  unfold get
  rw [find_set]
  split <;> rfl

/-- How often each key comes up. -/
def tally {β : Type} (key : β → κ) (l : List β) : OrderedDict κ Int :=
  l.foldl (fun d x => d.set (key x) (d.get (key x) 0 + 1)) ∅

/-- The elements by their keys. Those without a key are left out. -/
def group {β : Type} (key : β → Option κ) (l : List β) : OrderedDict κ (List β) :=
  l.foldl (fun d x =>
    match key x with
    | some k => d.set k (d.get k [] ++ [x])
    | none => d) ∅

theorem get_group {β : Type} (key : β → Option κ) (l : List β) (k : κ) :
    (group key l).get k [] = l.filter fun x => key x = some k := by
  induction l using List.reverseRecOn with
  | nil => rfl
  | append_singleton l x ih =>
      unfold group at ih ⊢
      rw [List.foldl_append, List.foldl_cons, List.foldl_nil, List.filter_append, ← ih]
      cases hKey : key x with
      | none => simp [hKey]
      | some k' =>
          by_cases hk : k' = k
          · subst hk
            simp [hKey, get_set]
          · simp [hKey, get_set, hk, Ne.symm hk]

section Tally

variable {β : Type} {key : β → κ} {l : List β}

theorem tally_append (key : β → κ) (l : List β) (x : β) :
    tally key (l ++ [x]) = (tally key l).set (key x) ((tally key l).get (key x) 0 + 1) := by
  unfold tally
  rw [List.foldl_append]
  rfl

theorem get_tally (key : β → κ) (l : List β) (k : κ) :
    (tally key l).get k 0 = l.countP fun x => key x = k := by
  induction l using List.reverseRecOn with
  | nil => rfl
  | append_singleton l x ih =>
      rw [tally_append, get_set, List.countP_append]
      by_cases hk : k = key x
      · subst hk
        simp [ih]
      · simp [ih, hk, Ne.symm hk]

end Tally

end OrderedDict

section Shortfall

variable {κ : Type} [DecidableEq κ]

/-- How much is missing to what the keys are to have. -/
def shortfall (keys : Finset κ) (target count : κ → Int) : Nat :=
  ∑ k ∈ keys, (target k - count k).toNat

/-- One that goes to a key which lacks it makes up for what is missing, unless it comes from a key
which does not have more than it is to have. -/
theorem shortfall_move {keys : Finset κ} {target count count' : κ → Int} {a b : κ} (ha : a ∈ keys)
    (hLacks : count a < target a)
    (hMoved : ∀ k, count' k = count k + (if k = a then 1 else 0) - if k = b then 1 else 0) :
    shortfall keys target count' + 1 ≤
      shortfall keys target count + if count b ≤ target b then 1 else 0 := by
  have hEach : ∀ k ∈ keys, (target k - count' k).toNat + (if a = k then 1 else 0) ≤
      (target k - count k).toNat + if b = k then (if count b ≤ target b then 1 else 0) else 0 := by
    intro k _
    rw [hMoved]
    by_cases hka : k = a
    · subst hka
      by_cases hkb : k = b
      · subst hkb
        simp only [if_true]
        split <;> omega
      · simp only [if_true, if_neg hkb, if_neg (Ne.symm hkb)]
        omega
    · by_cases hkb : k = b
      · subst hkb
        simp only [if_true, if_neg hka, if_neg (Ne.symm hka)]
        split <;> omega
      · simp only [if_neg hka, if_neg hkb, if_neg (Ne.symm hka), if_neg (Ne.symm hkb)]
        omega
  have hSum := Finset.sum_le_sum hEach
  rw [Finset.sum_add_distrib, Finset.sum_add_distrib, Finset.sum_ite_eq, Finset.sum_ite_eq,
    if_pos ha] at hSum
  refine hSum.trans (Nat.add_le_add_left ?_ _)
  split
  · exact le_rfl
  · exact Nat.zero_le _

end Shortfall

end Data
