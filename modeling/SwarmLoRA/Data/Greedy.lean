import Mathlib.Algebra.Order.BigOperators.Group.List
import Mathlib.Algebra.Order.Ring.Rat
import Mathlib.Logic.Relation
import Mathlib.Tactic.Linarith

namespace Data.Greedy

variable {α κ : Type}

/-- What has been chosen from a list, and how much that frees. -/
structure Selection (α : Type) where
  selected : List α := []
  freed : ℚ := 0

section Loop

variable (key : α → κ) (weight : α → ℚ) (coupled : α → List α)

/-- The keys of what is selected. -/
def Selection.keys (sel : Selection α) : List κ := sel.selected.map key

/-- One more is chosen. -/
def Selection.add (sel : Selection α) (x : α) : Selection α where
  selected := sel.selected ++ [x]
  freed := sel.freed + weight x

/-- Whoever is below something that is selected is selected. -/
def Closed (below : κ → κ → Prop) (selected : List α) : Prop :=
  ∀ x ∈ selected, ∀ k, below k (key x) → k ∈ selected.map key

/-- An element of the list, or one that an element of the list takes along. -/
def Reached (l : List α) (k : κ) : Prop := ∃ y ∈ l, k = key y ∨ k ∈ (coupled y).map key

/-- Whoever is below an element, over any number of levels, is reached up to that element. -/
def Ordered (below : κ → κ → Prop) (candidates : List α) : Prop :=
  ∀ before x after, candidates = before ++ x :: after →
    ∀ k, Relation.TransGen below k (key x) → Reached key coupled (before ++ [x]) k

variable [DecidableEq κ]

/-- One more is chosen, unless its key is chosen already. -/
def Selection.add_new (sel : Selection α) (x : α) : Selection α :=
  if key x ∈ sel.keys key then sel else sel.add weight x

/-- The turn of an element. -/
def Selection.turn (sel : Selection α) (x : α) : Selection α :=
  if key x ∈ sel.keys key then sel
  else (coupled x).foldl (·.add_new key weight) (sel.add weight x)

/-- The loop: it goes through the list until enough is freed. -/
def select (required : ℚ) : Selection α → List α → Selection α
  | sel, [] => sel
  | sel, x :: rest =>
      if required ≤ sel.freed then sel else select required (sel.turn key weight coupled x) rest

end Loop

variable {key : α → κ} {weight : α → ℚ} {coupled : α → List α} {below : κ → κ → Prop}
  {sel : Selection α} {x : α} {k : κ} {before after candidates : List α} {required : ℚ}

section Reached

/-- The keys after a choice. -/
theorem mem_keys_add : k ∈ (sel.add weight x).keys key ↔ k ∈ sel.keys key ∨ k = key x := by
  simp [Selection.keys, Selection.add]

/-- What two lists reach, one of them reaches. -/
theorem reached_append :
    Reached key coupled (before ++ after) k ↔
      Reached key coupled before k ∨ Reached key coupled after k := by
  simp only [Reached, List.mem_append]
  constructor
  · rintro ⟨y, hy | hy, hKey⟩
    · exact .inl ⟨y, hy, hKey⟩
    · exact .inr ⟨y, hy, hKey⟩
  · rintro (⟨y, hy, hKey⟩ | ⟨y, hy, hKey⟩)
    · exact ⟨y, .inl hy, hKey⟩
    · exact ⟨y, .inr hy, hKey⟩

/-- An element reaches itself and what is coupled to it. -/
theorem reached_singleton :
    Reached key coupled [x] k ↔ k = key x ∨ k ∈ (coupled x).map key := by
  simp [Reached]

/-- In a list in good order, what is reached has everything below it reached. -/
theorem reached_below
    (hCoupled : ∀ w ∈ before ++ after, ∀ y ∈ coupled w, below (key y) (key w))
    (hOrdered : Ordered key coupled below (before ++ after))
    (hReached : Reached key coupled before k) {k' : κ} (hBelow : Relation.TransGen below k' k) :
    Reached key coupled before k' := by
  obtain ⟨y, hy, hKey⟩ := hReached
  obtain ⟨first, rest, rfl⟩ := List.append_of_mem hy
  have hUnder : Relation.TransGen below k' (key y) := by
    rcases hKey with rfl | hTaken
    · exact hBelow
    · obtain ⟨z, hz, rfl⟩ := List.mem_map.mp hTaken
      exact hBelow.tail (hCoupled y (List.mem_append_left _ hy) z hz)
  have hSplit : first ++ y :: rest ++ after = first ++ y :: (rest ++ after) := by simp
  have hUp := hOrdered first y (rest ++ after) hSplit k' hUnder
  have hWhole : first ++ y :: rest = first ++ [y] ++ rest := by simp
  rw [hWhole]
  exact reached_append.mpr (.inl hUp)

/-- A closed set has whatever is below one of its elements, over any number of levels. -/
theorem mem_of_transGen {selected : List α} (hClosed : Closed key below selected) {k' : κ}
    (hk : k ∈ selected.map key) (hBelow : Relation.TransGen below k' k) :
    k' ∈ selected.map key := by
  have hStep : ∀ k ∈ selected.map key, ∀ k', below k' k → k' ∈ selected.map key := by
    intro k hk k' hOne
    obtain ⟨y, hy, rfl⟩ := List.mem_map.mp hk
    exact hClosed y hy k' hOne
  induction hBelow with
  | single hOne => exact hStep _ hk _ hOne
  | tail _ hOne ih => exact ih (hStep _ hk _ hOne)

end Reached

variable [DecidableEq κ]

section Keys

/-- The keys after a choice that may have been made before. -/
theorem mem_keys_add_new :
    k ∈ (sel.add_new key weight x).keys key ↔ k ∈ sel.keys key ∨ k = key x := by
  unfold Selection.add_new
  split
  · rename_i hOld
    constructor
    · exact .inl
    · rintro (hMem | rfl)
      · exact hMem
      · exact hOld
  · exact mem_keys_add

/-- The keys after several of them. -/
theorem mem_keys_foldl (l : List α) :
    k ∈ (l.foldl (·.add_new key weight) sel).keys key ↔ k ∈ sel.keys key ∨ k ∈ l.map key := by
  induction l generalizing sel with
  | nil => simp
  | cons y l ih =>
      rw [List.foldl_cons, ih, mem_keys_add_new, List.map_cons, List.mem_cons, or_assoc]

/-- The turn of an element that is selected already changes nothing. -/
theorem turn_of_mem (hOld : key x ∈ sel.keys key) : sel.turn key weight coupled x = sel :=
  if_pos hOld

/-- The keys after a turn: the element and what is coupled to it. -/
theorem mem_keys_turn (hNew : key x ∉ sel.keys key) :
    k ∈ (sel.turn key weight coupled x).keys key ↔
      k ∈ sel.keys key ∨ k = key x ∨ k ∈ (coupled x).map key := by
  rw [Selection.turn, if_neg hNew, mem_keys_foldl, mem_keys_add, or_assoc]

/-- An element has been chosen after its turn. -/
theorem self_mem_turn : key x ∈ (sel.turn key weight coupled x).keys key := by
  by_cases hOld : key x ∈ sel.keys key
  · rw [turn_of_mem hOld]
    exact hOld
  · exact (mem_keys_turn hOld).mpr (.inr (.inl rfl))

/-- What has been chosen stays chosen. -/
theorem mem_turn_of_mem (hMem : k ∈ sel.keys key) :
    k ∈ (sel.turn key weight coupled x).keys key := by
  by_cases hOld : key x ∈ sel.keys key
  · rw [turn_of_mem hOld]
    exact hMem
  · exact (mem_keys_turn hOld).mpr (.inl hMem)

/-- All through the loop. -/
theorem mem_select_of_mem {l : List α} (hMem : k ∈ sel.keys key) :
    k ∈ (select key weight coupled required sel l).keys key := by
  induction l generalizing sel with
  | nil => exact hMem
  | cons x l ih =>
      unfold select
      split
      · exact hMem
      · exact ih (mem_turn_of_mem hMem)

end Keys

section Sufficient

/-- While the list is gone through, what is selected is what is reached. -/
theorem keys_turn_iff
    (hCoupled : ∀ w ∈ before ++ x :: after, ∀ y ∈ coupled w, below (key y) (key w))
    (hOrdered : Ordered key coupled below (before ++ x :: after))
    (hKeys : ∀ k, k ∈ sel.keys key ↔ Reached key coupled before k) :
    k ∈ (sel.turn key weight coupled x).keys key ↔ Reached key coupled (before ++ [x]) k := by
  rw [reached_append, reached_singleton]
  by_cases hOld : key x ∈ sel.keys key
  · rw [turn_of_mem hOld, hKeys]
    -- what the element would take along is below it, so it has been reached before
    have hReached := (hKeys (key x)).mp hOld
    have hAlong : k = key x ∨ k ∈ (coupled x).map key → Reached key coupled before k := by
      rintro (rfl | hTaken)
      · exact hReached
      · obtain ⟨z, hz, rfl⟩ := List.mem_map.mp hTaken
        exact reached_below hCoupled hOrdered hReached
          (.single (hCoupled x (by simp) z hz))
    exact ⟨.inl, fun h => h.elim id hAlong⟩
  · rw [mem_keys_turn hOld, hKeys]

/-- If the list is ordered and what is coupled comes later, the loop chooses what the elements
before its end reach. -/
theorem select_keys
    (hCoupled : ∀ w ∈ before ++ after, ∀ y ∈ coupled w, below (key y) (key w))
    (hOrdered : Ordered key coupled below (before ++ after))
    (hKeys : ∀ k, k ∈ sel.keys key ↔ Reached key coupled before k) :
    ∃ done rest, before ++ after = done ++ rest ∧
      ∀ k, k ∈ (select key weight coupled required sel after).keys key ↔
        Reached key coupled done k := by
  induction after generalizing before sel with
  | nil => exact ⟨before, [], rfl, hKeys⟩
  | cons x rest ih =>
      unfold select
      split
      · exact ⟨before, x :: rest, rfl, hKeys⟩
      · have hSplit : before ++ x :: rest = before ++ [x] ++ rest := by simp
        have hTurn : ∀ k, k ∈ (sel.turn key weight coupled x).keys key ↔
            Reached key coupled (before ++ [x]) k :=
          fun k => keys_turn_iff hCoupled hOrdered hKeys
        rw [hSplit] at hCoupled hOrdered ⊢
        exact ih hCoupled hOrdered hTurn

/-- From a list in good order, whatever is required, a closed set is selected. -/
theorem closed_of_ordered
    (hCoupled : ∀ x ∈ candidates, ∀ y ∈ coupled x, below (key y) (key x))
    (hOrdered : Ordered key coupled below candidates) (required : ℚ) :
    Closed key below (select key weight coupled required {} candidates).selected := by
  have hEmpty : ∀ k, k ∈ ({} : Selection α).keys key ↔ Reached key coupled [] k := by
    intro k
    constructor
    · intro h
      exact absurd h List.not_mem_nil
    · rintro ⟨y, hy, -⟩
      exact absurd hy List.not_mem_nil
  have hStart : ∀ w ∈ [] ++ candidates, ∀ y ∈ coupled w, below (key y) (key w) := hCoupled
  obtain ⟨done, rest, hSplit, hKeys⟩ :
      ∃ done rest, [] ++ candidates = done ++ rest ∧
        ∀ k, k ∈ (select key weight coupled required {} candidates).keys key ↔
          Reached key coupled done k := select_keys hStart hOrdered hEmpty
  rw [List.nil_append] at hSplit
  intro x hx k hBelow
  have hReached := (hKeys (key x)).mp (List.mem_map_of_mem hx)
  rw [hSplit] at hCoupled hOrdered
  exact (hKeys k).mpr (reached_below hCoupled hOrdered hReached (.single hBelow))

end Sufficient

section Necessary

/-- A selection that goes on from another one with elements that satisfy a predicate. -/
def Extends (weight : α → ℚ) (p : α → Prop) (sel sel' : Selection α) : Prop :=
  ∃ extra, sel' = ⟨sel.selected ++ extra, sel.freed + (extra.map weight).sum⟩ ∧ ∀ y ∈ extra, p y

variable {p : α → Prop} {sel' sel'' : Selection α}

/-- Choosing nothing. -/
theorem Extends.refl (sel : Selection α) : Extends weight p sel sel :=
  ⟨[], by simp, by simp⟩

/-- One choice after another. -/
theorem Extends.trans (h : Extends weight p sel sel') (h' : Extends weight p sel' sel'') :
    Extends weight p sel sel'' := by
  obtain ⟨extra, rfl, hExtra⟩ := h
  obtain ⟨extra', rfl, hExtra'⟩ := h'
  refine ⟨extra ++ extra', ?_, fun y hy => ?_⟩
  · simp [add_assoc]
  · exact (List.mem_append.mp hy).elim (hExtra y) (hExtra' y)

/-- A choice frees what it weighs. -/
theorem extends_add (hx : p x) : Extends weight p sel (sel.add weight x) :=
  ⟨[x], by simp [Selection.add], fun y hy => List.mem_singleton.mp hy ▸ hx⟩

/-- A choice that has been made before frees nothing. -/
theorem extends_add_new (hx : p x) : Extends weight p sel (sel.add_new key weight x) := by
  unfold Selection.add_new
  split
  · exact .refl sel
  · exact extends_add hx

/-- Several choices. -/
theorem extends_foldl {l : List α} (hl : ∀ y ∈ l, p y) :
    Extends weight p sel (l.foldl (·.add_new key weight) sel) := by
  induction l generalizing sel with
  | nil => exact .refl sel
  | cons y l ih =>
      have hFirst : Extends weight p sel (sel.add_new key weight y) :=
        extends_add_new (hl y List.mem_cons_self)
      exact hFirst.trans (ih fun z hz => hl z (List.mem_cons_of_mem y hz))

/-- A turn takes an element and what is coupled to it. -/
theorem extends_turn (hx : p x) (hTaken : ∀ y ∈ coupled x, p y) :
    Extends weight p sel (sel.turn key weight coupled x) := by
  unfold Selection.turn
  split
  · exact .refl sel
  · exact (extends_add hx).trans (extends_foldl hTaken)

/-- The turns of the elements of a list, all of them. -/
def turns (key : α → κ) (weight : α → ℚ) (coupled : α → List α) (sel : Selection α)
    (l : List α) : Selection α :=
  l.foldl (·.turn key weight coupled) sel

/-- The turns of a list. -/
theorem extends_turns {l : List α} (hl : ∀ y ∈ l, p y)
    (hTaken : ∀ y ∈ l, ∀ z ∈ coupled y, p z) :
    Extends weight p sel (turns key weight coupled sel l) := by
  induction l generalizing sel with
  | nil => exact .refl sel
  | cons y l ih =>
      have hFirst : Extends weight p sel (sel.turn key weight coupled y) :=
        extends_turn (hl y List.mem_cons_self) (hTaken y List.mem_cons_self)
      exact hFirst.trans (ih (fun z hz => hl z (List.mem_cons_of_mem y hz))
        fun z hz => hTaken z (List.mem_cons_of_mem y hz))

/-- The loop frees the weights of what it chooses, each of them once. -/
theorem extends_select {l : List α} (hl : ∀ y ∈ l, p y)
    (hTaken : ∀ y ∈ l, ∀ z ∈ coupled y, p z) :
    Extends weight p sel (select key weight coupled required sel l) := by
  induction l generalizing sel with
  | nil => exact .refl sel
  | cons y l ih =>
      unfold select
      split
      · exact .refl sel
      · have hFirst : Extends weight p sel (sel.turn key weight coupled y) :=
          extends_turn (hl y List.mem_cons_self) (hTaken y List.mem_cons_self)
        exact hFirst.trans (ih (fun z hz => hl z (List.mem_cons_of_mem y hz))
          fun z hz => hTaken z (List.mem_cons_of_mem y hz))

/-- What is freed is what the selected elements free. -/
theorem freed_select :
    (select key weight coupled required {} candidates).freed =
      ((select key weight coupled required {} candidates).selected.map weight).sum := by
  obtain ⟨extra, hSame, -⟩ : Extends weight (fun _ => True) {}
      (select key weight coupled required {} candidates) :=
    extends_select (fun _ _ => trivial) fun _ _ _ _ => trivial
  rw [hSame]
  exact zero_add _

/-- Where every element frees something, nothing is added for nothing. -/
theorem Extends.eq_of_freed_le (h : Extends weight (0 < weight ·) sel sel')
    (hFreed : sel'.freed ≤ sel.freed) : sel' = sel := by
  obtain ⟨extra, rfl, hPositive⟩ := h
  have hNone : extra = [] := by
    by_contra hSome
    have hSum : 0 < (extra.map weight).sum := by
      apply List.sum_pos
      · intro w hw
        obtain ⟨y, hy, rfl⟩ := List.mem_map.mp hw
        exact hPositive y hy
      · simpa using hSome
    have hMore : sel.freed + (extra.map weight).sum ≤ sel.freed := hFreed
    linarith
  subst hNone
  simp

/-- Whatever the first elements free can be required, and is then freed by these elements. -/
theorem select_freed (hPositive : ∀ y ∈ before, 0 < weight y)
    (hTaken : ∀ y ∈ before, ∀ z ∈ coupled y, 0 < weight z) :
    select key weight coupled (turns key weight coupled sel before).freed sel (before ++ after) =
      turns key weight coupled sel before := by
  induction before generalizing sel with
  | nil =>
      show select key weight coupled sel.freed sel after = sel
      cases after with
      | nil => rfl
      | cons y after => exact if_pos (le_refl _)
  | cons y before ih =>
      have hAll : Extends weight (0 < weight ·) sel (turns key weight coupled sel (y :: before)) :=
        extends_turns hPositive hTaken
      rw [List.cons_append, select]
      split
      · rename_i hEnough
        exact (hAll.eq_of_freed_le hEnough).symm
      · exact ih (fun z hz => hPositive z (List.mem_cons_of_mem y hz))
          fun z hz => hTaken z (List.mem_cons_of_mem y hz)

/-- What has been selected has been reached. -/
theorem reached_of_mem_turns {l : List α} (hKeys : ∀ k, k ∈ sel.keys key →
      Reached key coupled before k) (hk : k ∈ (turns key weight coupled sel l).keys key) :
    Reached key coupled (before ++ l) k := by
  induction l generalizing before sel with
  | nil => exact (List.append_nil before).symm ▸ hKeys k hk
  | cons y l ih =>
      have hSplit : before ++ y :: l = before ++ [y] ++ l := by simp
      rw [hSplit]
      have hTurn : ∀ k', k' ∈ (sel.turn key weight coupled y).keys key →
          Reached key coupled (before ++ [y]) k' := by
        intro k' hk'
        rw [reached_append, reached_singleton]
        by_cases hOld : key y ∈ sel.keys key
        · rw [turn_of_mem hOld] at hk'
          exact .inl (hKeys k' hk')
        · exact ((mem_keys_turn hOld).mp hk').imp_left (hKeys k')
      exact ih hTurn hk

/-- Where every element frees something, a list from which closed sets are selected, whatever is
required, is in good order. -/
theorem ordered_of_closed (hPositive : ∀ y ∈ candidates, 0 < weight y)
    (hTaken : ∀ y ∈ candidates, ∀ z ∈ coupled y, z ∈ candidates)
    (hClosed : ∀ required, Closed key below
      (select key weight coupled required {} candidates).selected) :
    Ordered key coupled below candidates := by
  rintro before x after rfl k hBelow
  have hSplit : before ++ x :: after = (before ++ [x]) ++ after := by simp
  rw [hSplit] at hPositive hTaken hClosed
  have hSelected := hClosed (turns key weight coupled {} (before ++ [x])).freed
  rw [select_freed (fun y hy => hPositive y (List.mem_append_left _ hy))
    fun y hy z hz => hPositive z (hTaken y (List.mem_append_left _ hy) z hz)] at hSelected
  have hLast : key x ∈ (turns key weight coupled {} (before ++ [x])).keys key := by
    rw [turns, List.foldl_append]
    exact self_mem_turn
  have hNone : ∀ k, k ∈ ({} : Selection α).keys key → Reached key coupled [] k :=
    fun k hk => absurd hk List.not_mem_nil
  show Reached key coupled ([] ++ (before ++ [x])) k
  exact reached_of_mem_turns hNone (mem_of_transGen hSelected hLast hBelow)

end Necessary

/-- Either enough is freed, or everything is selected. -/
theorem frees_or_exhausts :
    required ≤ (select key weight coupled required sel candidates).freed ∨
      ∀ y ∈ candidates, key y ∈ (select key weight coupled required sel candidates).keys key := by
  induction candidates generalizing sel with
  | nil => exact .inr fun y hy => absurd hy List.not_mem_nil
  | cons x rest ih =>
      unfold select
      split
      · rename_i hEnough
        exact .inl hEnough
      · have hRest : required ≤
              (select key weight coupled required (sel.turn key weight coupled x) rest).freed ∨
            ∀ y ∈ rest, key y ∈
              (select key weight coupled required (sel.turn key weight coupled x) rest).keys key :=
          ih
        rcases hRest with hEnough | hAll
        · exact .inl hEnough
        · refine .inr fun y hy => ?_
          rcases List.mem_cons.mp hy with rfl | hy
          · exact mem_select_of_mem self_mem_turn
          · exact hAll y hy

end Data.Greedy
