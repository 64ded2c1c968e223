import Mathlib.Data.List.Nodup
import Mathlib.Logic.Function.Basic

namespace Machine

variable {K : Type} {V : K → Type} {Error : Type}

/-- An update of an entry leaves something there also where it raises. -/
abbrev Update (V : K → Type) (Error : Type) := (k : K) → V k → V k × Option Error

/-- Every update that is reached leaves its entry as it is. -/
def Spared (f : Update V Error) (keys : List K) (s : (k : K) → V k) : Prop :=
  ∀ before k after, keys = before ++ k :: after → (∀ j ∈ before, (f j (s j)).2 = none) →
    (f k (s k)).1 = s k

variable {f : Update V Error} {keys : List K} {s : (k : K) → V k}

theorem spared_nil : Spared f [] s := by
  intro before k after hSplit
  exact absurd hSplit (by simp)

theorem spared_cons {k : K} :
    Spared f (k :: keys) s ↔
      (f k (s k)).1 = s k ∧ ((f k (s k)).2 = none → Spared f keys s) := by
  constructor
  · intro h
    refine ⟨h [] k keys rfl fun j hj => absurd hj (List.not_mem_nil), ?_⟩
    intro hOk before j after hSplit hBefore
    refine h (k :: before) j after (by rw [hSplit]; rfl) ?_
    intro i hi
    rcases List.mem_cons.mp hi with rfl | hi
    · exact hOk
    · exact hBefore i hi
  · rintro ⟨hFirst, hRest⟩ before j after hSplit hBefore
    cases before with
    | nil =>
        obtain ⟨rfl, -⟩ := List.cons.inj hSplit
        exact hFirst
    | cons i before =>
        obtain ⟨rfl, hTail⟩ := List.cons.inj hSplit
        exact hRest (hBefore k (List.mem_cons_self ..)) before j after hTail
          fun i hi => hBefore i (List.mem_cons_of_mem _ hi)

variable [DecidableEq K]

/-- Go through the keys. Nothing is undone when an update raises. -/
def walk (f : Update V Error) : List K → ((k : K) → V k) → ((k : K) → V k) × Option Error
  | [], s => (s, none)
  | k :: rest, s =>
      match f k (s k) with
      | (v, some error) => (Function.update s k v, some error)
      | (v, none) => walk f rest (Function.update s k v)

/-- A key that is not in the list keeps its entry. -/
theorem walk_other {k : K} (hNot : k ∉ keys) : (walk f keys s).1 k = s k := by
  induction keys generalizing s with
  | nil => rfl
  | cons j rest ih =>
      have hNe : k ≠ j := fun hSame => hNot (hSame ▸ List.mem_cons_self ..)
      have hRest : k ∉ rest := fun hMem => hNot (List.mem_cons_of_mem _ hMem)
      unfold walk
      split
      · exact Function.update_of_ne hNe _ _
      · rw [ih hRest]
        exact Function.update_of_ne hNe _ _

/-- An entry is updated once, or the walk has come to its end before. -/
theorem walk_cases {k : K} (hNodup : keys.Nodup) (hMem : k ∈ keys) :
    (walk f keys s).1 k = s k ∨ (walk f keys s).1 k = (f k (s k)).1 := by
  induction keys generalizing s with
  | nil => exact absurd hMem List.not_mem_nil
  | cons j rest ih =>
      obtain ⟨hNew, hNodup⟩ := List.nodup_cons.mp hNodup
      unfold walk
      by_cases hSame : k = j
      · subst hSame
        split
        · rename_i v error hStep
          rw [hStep]
          exact .inr (Function.update_self _ _ _)
        · rename_i v hStep
          rw [hStep, walk_other hNew]
          exact .inr (Function.update_self _ _ _)
      · have hRest : k ∈ rest := (List.mem_cons.mp hMem).resolve_left hSame
        split
        · exact .inl (Function.update_of_ne hSame _ _)
        · rename_i v hStep
          have hCases := ih (s := Function.update s j v) hNodup hRest
          rw [Function.update_of_ne hSame] at hCases
          exact hCases

/-- A walk in which no update raises. -/
theorem walk_apply {k : K} (hNodup : keys.Nodup) (hMem : k ∈ keys)
    (hOk : ∀ j ∈ keys, (f j (s j)).2 = none) : (walk f keys s).1 k = (f k (s k)).1 := by
  induction keys generalizing s with
  | nil => exact absurd hMem List.not_mem_nil
  | cons j rest ih =>
      obtain ⟨hNew, hNodup⟩ := List.nodup_cons.mp hNodup
      unfold walk
      split
      · rename_i v error hStep
        have hNone := hOk j (List.mem_cons_self ..)
        rw [hStep] at hNone
        cases hNone
      · rename_i v hStep
        by_cases hSame : k = j
        · subst hSame
          rw [walk_other hNew, Function.update_self, hStep]
        · have hRest : k ∈ rest := (List.mem_cons.mp hMem).resolve_left hSame
          rw [ih hNodup hRest, Function.update_of_ne hSame]
          intro i hi
          rw [Function.update_of_ne (ne_of_mem_of_not_mem hi hNew)]
          exact hOk i (List.mem_cons_of_mem _ hi)

/-- A walk comes to its end if and only if no update raises. -/
theorem walk_ok_iff (hNodup : keys.Nodup) :
    (walk f keys s).2 = none ↔ ∀ k ∈ keys, (f k (s k)).2 = none := by
  induction keys generalizing s with
  | nil => simp [walk]
  | cons k rest ih =>
      obtain ⟨hNew, hNodup⟩ := List.nodup_cons.mp hNodup
      have hRest : ∀ v, ((∀ j ∈ rest, (f j (Function.update s k v j)).2 = none) ↔
          ∀ j ∈ rest, (f j (s j)).2 = none) := by
        intro v
        refine forall₂_congr fun j hMem => ?_
        rw [Function.update_of_ne (ne_of_mem_of_not_mem hMem hNew)]
      rw [List.forall_mem_cons]
      unfold walk
      split
      · rename_i v error hStep
        simp [hStep]
      · rename_i v hStep
        rw [ih hNodup, hRest v, hStep]
        simp

/-- A walk in which no update raises goes through to its end. -/
theorem exists_walk (hNodup : keys.Nodup) (hOk : ∀ k ∈ keys, (f k (s k)).2 = none) :
    ∃ t, walk f keys s = (t, none) ∧ ∀ k ∈ keys, t k = (f k (s k)).1 :=
  ⟨_, Prod.ext rfl ((walk_ok_iff hNodup).mpr hOk), fun _ hMem => walk_apply hNodup hMem hOk⟩

/-- A walk leaves everything as it was if and only if every update that it reaches does: no entry
is visited twice. -/
theorem walk_eq_self_iff (hNodup : keys.Nodup) : (walk f keys s).1 = s ↔ Spared f keys s := by
  induction keys generalizing s with
  | nil => exact iff_of_true rfl spared_nil
  | cons k rest ih =>
      obtain ⟨hNew, hNodup⟩ := List.nodup_cons.mp hNodup
      rw [spared_cons]
      unfold walk
      split
      · rename_i v error hStep
        rw [hStep]
        simp [Function.update_eq_self_iff]
      · rename_i v hStep
        rw [hStep]
        constructor
        · intro hSame
          have hv : v = s k := by
            rw [← congrFun hSame k, walk_other hNew, Function.update_self]
          subst hv
          rw [Function.update_eq_self] at hSame
          exact ⟨rfl, fun _ => (ih hNodup).mp hSame⟩
        · rintro ⟨hv, hRest⟩
          change v = s k at hv
          subst hv
          rw [Function.update_eq_self]
          exact (ih hNodup).mpr (hRest rfl)

end Machine
