import Mathlib.Data.List.Pairwise
import Mathlib.Data.Nat.Basic
import Mathlib.Order.Basic

namespace Data.Quota

variable {α β : Type}

/-- What a source hands over in its turn. -/
def portion (limit count deficit supply : Nat) : Nat :=
  min (min deficit supply) (max 1 (limit - count))

/-- The sources with what they have left, what is still asked for, and what has been handed over. -/
structure Service (α : Type) where
  sources : List (α × Nat)
  deficit : Nat
  count : Nat

/-- The turns of all the sources for one demand. -/
def pass (limit : Nat) (allowed : α → Bool) : List (α × Nat) → Nat → Nat → Service α
  | [], deficit, count => ⟨[], deficit, count⟩
  | (source, supply) :: rest, deficit, count =>
      let given := if allowed source then portion limit count deficit supply else 0
      let after := pass limit allowed rest (deficit - given) (count + given)
      { after with sources := (source, supply - given) :: after.sources }

/-- What has been handed over when all the demands are served. -/
def serve (limit : Nat) (allowed : β → α → Bool) :
    List (β × Nat) → List (α × Nat) → Nat → Nat
  | [], _, count => count
  | (demand, deficit) :: rest, sources, count =>
      if limit ≤ count then count
      else
        let after := pass limit (allowed demand) sources deficit count
        serve limit allowed rest after.sources after.count

/-- Some source has something to hand over, and the sources before it have enough for the limit,
together with what has come before them. -/
def Reaches (limit : Nat) (allowed : α → Bool) : Nat → List (α × Nat) → Prop
  | _, [] => False
  | before, (source, supply) :: rest =>
      (allowed source ∧ 0 < supply ∧ limit ≤ before) ∨
        Reaches limit allowed (before + supply) rest

/-- Some demand that meets a condition takes what is asked for over the limit from below it. -/
def Overflows (limit : Nat) (reach : β → Prop) : Nat → List (β × Nat) → Prop
  | _, [] => False
  | due, (demand, deficit) :: rest =>
      (due < limit ∧ limit < due + deficit ∧ reach demand) ∨
        Overflows limit reach (due + deficit) rest

instance decidableReaches (limit : Nat) (allowed : α → Bool) :
    ∀ before sources, Decidable (Reaches limit allowed before sources)
  | _, [] => inferInstanceAs (Decidable False)
  | before, (_, supply) :: rest =>
      have := decidableReaches limit allowed (before + supply) rest
      inferInstanceAs (Decidable (_ ∨ _))

instance decidableOverflows (limit : Nat) (reach : β → Prop) [DecidablePred reach] :
    ∀ due demands, Decidable (Overflows limit reach due demands)
  | _, [] => inferInstanceAs (Decidable False)
  | due, (_, deficit) :: rest =>
      have := decidableOverflows limit reach (due + deficit) rest
      inferInstanceAs (Decidable (_ ∨ _))

variable {limit deficit count supply before due : Nat} {allowed allowed' : α → Bool}
  {sources : List (α × Nat)} {demands : List (β × Nat)} {reach reach' : β → Prop}

theorem portion_eq (hCount : count < limit) :
    portion limit count deficit supply = min (min deficit supply) (limit - count) := by
  unfold portion
  rw [max_eq_right (by omega)]

theorem portion_of_lt (h : count + portion limit count deficit supply < limit) :
    portion limit count deficit supply = min deficit supply := by
  rw [portion_eq (by omega)] at h ⊢
  omega

theorem portion_eq_zero (h : deficit = 0 ∨ supply = 0) :
    portion limit count deficit supply = 0 := by
  unfold portion
  omega

/-- A source that may spare so much hands over one, and what is left of its turn comes after. -/
theorem portion_succ {surplus n : Nat} (hDeficit : deficit ≠ 0) (hSurplus : surplus ≠ 0) :
    portion limit count deficit (min surplus (n + 1)) =
      if limit ≤ count + 1 then 1
      else 1 + portion limit (count + 1) (deficit - 1) (min (surplus - 1) n) := by
  obtain ⟨d, rfl⟩ := Nat.exists_eq_add_one_of_ne_zero hDeficit
  obtain ⟨m, rfl⟩ := Nat.exists_eq_add_one_of_ne_zero hSurplus
  unfold portion
  split
  · have hLast : max 1 (limit - count) = 1 := by omega
    rw [hLast]
    omega
  · have hLeft : max 1 (limit - count) = max 1 (limit - (count + 1)) + 1 := by omega
    rw [hLeft, Nat.add_min_add_right, Nat.add_min_add_right, Nat.add_min_add_right, Nat.add_comm,
      Nat.add_sub_cancel, Nat.add_sub_cancel]

section Pass

theorem pass_zero : pass limit allowed sources 0 count = ⟨sources, 0, count⟩ := by
  induction sources generalizing count with
  | nil => rfl
  | cons x rest ih =>
      have hNone : (if allowed x.1 then portion limit count 0 x.2 else 0) = 0 := by
        simp [portion_eq_zero]
      simp only [pass, hNone, Nat.sub_zero, Nat.add_zero, ih]

theorem pass_of_none (hNone : ∀ x ∈ sources, allowed x.1 = false) :
    pass limit allowed sources deficit count = ⟨sources, deficit, count⟩ := by
  induction sources with
  | nil => rfl
  | cons x rest ih =>
      have hRest : ∀ y ∈ rest, allowed y.1 = false := fun y hy =>
        hNone y (List.mem_cons_of_mem x hy)
      simp [pass, hNone x List.mem_cons_self, ih hRest]

/-- What is handed over is what was asked for. -/
theorem pass_conserves :
    (pass limit allowed sources deficit count).count +
        (pass limit allowed sources deficit count).deficit = count + deficit := by
  induction sources generalizing deficit count with
  | nil => rfl
  | cons x rest ih =>
      have hGiven : (if allowed x.1 then portion limit count deficit x.2 else 0) ≤ deficit := by
        unfold portion
        split <;> omega
      simp only [pass]
      rw [ih]
      omega

theorem le_pass_count : count ≤ (pass limit allowed sources deficit count).count := by
  induction sources generalizing deficit count with
  | nil => exact le_refl count
  | cons x rest ih => exact le_trans (Nat.le_add_right count _) ih

theorem map_fst_pass :
    (pass limit allowed sources deficit count).sources.map (·.1) = sources.map (·.1) := by
  induction sources generalizing deficit count with
  | nil => rfl
  | cons x rest ih => exact congrArg (x.1 :: ·) ih

theorem not_reaches_of_none (hNone : ∀ x ∈ sources, allowed x.1 = false) :
    ¬Reaches limit allowed before sources := by
  induction sources generalizing before with
  | nil => exact id
  | cons x rest ih =>
      rintro (⟨hAllowed, -, -⟩ | hRest)
      · exact Bool.false_ne_true ((hNone x List.mem_cons_self).symm.trans hAllowed)
      · exact ih (fun y hy => hNone y (List.mem_cons_of_mem x hy)) hRest

end Pass

section Limit

/-- The sources that may hand over to a demand come first. -/
def Leading (allowed : α → Bool) (sources : List (α × Nat)) : Prop :=
  (sources.map (·.1)).Pairwise fun source later => allowed later → allowed source

theorem none_of_head {x : α × Nat} {rest : List (α × Nat)}
    (hLeading : Leading allowed (x :: rest)) (hNot : ¬allowed x.1) :
    ∀ y ∈ x :: rest, allowed y.1 = false := by
  intro y hy
  by_contra hAllowed
  rw [Bool.not_eq_false] at hAllowed
  rcases List.mem_cons.mp hy with rfl | hy
  · exact hNot hAllowed
  · exact hNot ((List.pairwise_cons.mp hLeading).1 y.1 (List.mem_map_of_mem hy) hAllowed)

theorem reaches_of_le (hBefore : limit ≤ before) :
    Reaches limit allowed before sources ↔ ∃ x ∈ sources, allowed x.1 ∧ 0 < x.2 := by
  induction sources generalizing before with
  | nil => simp [Reaches]
  | cons x rest ih =>
      have hRest : Reaches limit allowed (before + x.2) rest ↔
          ∃ y ∈ rest, allowed y.1 ∧ 0 < y.2 := ih (by omega)
      simp [Reaches, hRest, hBefore]

/-- The turn of a source with the limit still ahead counts for all that comes after as if the source
handed over everything it has. -/
theorem reaches_after_turn (hCount : count < limit) (hMore : limit < count + deficit) :
    Reaches limit allowed (count + portion limit count deficit supply) sources ↔
      Reaches limit allowed (count + supply) sources := by
  rw [portion_eq hCount]
  rcases Nat.le_total supply (limit - count) with hSmall | hLarge
  · have hAll : min (min deficit supply) (limit - count) = supply := by omega
    rw [hAll]
  · rw [reaches_of_le (by omega), reaches_of_le (by omega)]

/-- At the limit the first source that has something to hand over goes over it. -/
theorem pass_at_limit :
    limit < (pass limit allowed sources deficit limit).count ↔
      0 < deficit ∧ ∃ x ∈ sources, allowed x.1 ∧ 0 < x.2 := by
  induction sources with
  | nil => simp [pass]
  | cons x rest ih =>
      obtain ⟨source, supply⟩ := x
      have hPortion : portion limit limit deficit supply = min (min deficit supply) 1 := by
        unfold portion
        omega
      by_cases hGives : allowed source ∧ 0 < deficit ∧ 0 < supply
      · obtain ⟨hAllowed, hDeficit, hSupply⟩ := hGives
        have hOne : min (min deficit supply) 1 = 1 := by omega
        have hUp : limit + 1 ≤ (pass limit allowed rest (deficit - 1) (limit + 1)).count :=
          le_pass_count
        simp only [pass, hAllowed, if_true, hPortion, hOne]
        exact iff_of_true hUp ⟨hDeficit, _, List.mem_cons_self, hAllowed, hSupply⟩
      · have hNothing :
            (if allowed source then portion limit limit deficit supply else 0) = 0 := by
          split
          · rename_i hAllowed
            have hEither : ¬(0 < deficit ∧ 0 < supply) := fun h => hGives ⟨hAllowed, h⟩
            omega
          · rfl
        simp only [pass, hNothing, Nat.sub_zero, Nat.add_zero, ih, List.mem_cons, or_and_right,
          exists_or, exists_eq_left]
        apply and_congr_right
        intro hDeficit
        exact (or_iff_right fun h => hGives ⟨h.1, hDeficit, h.2⟩).symm

/-- The sources go over the limit for a demand that asks for so much. -/
theorem pass_exceeds_iff (hLeading : Leading allowed sources) (hCount : count ≤ limit) :
    limit < (pass limit allowed sources deficit count).count ↔
      limit < count + deficit ∧ Reaches limit allowed count sources := by
  induction sources generalizing deficit count with
  | nil => simpa [pass, Reaches] using hCount
  | cons x rest ih =>
      obtain ⟨source, supply⟩ := x
      rcases Nat.lt_or_eq_of_le hCount with hBelow | rfl
      · by_cases hAllowed : allowed source
        · have hPortion : portion limit count deficit supply =
              min (min deficit supply) (limit - count) := portion_eq hBelow
          have hRest : Leading allowed rest := (List.pairwise_cons.mp hLeading).2
          simp only [pass, hAllowed, if_true, Reaches, true_and]
          rw [ih hRest (by omega)]
          constructor
          · rintro ⟨hMore, hReach⟩
            have hMore : limit < count + deficit := by omega
            exact ⟨hMore, .inr ((reaches_after_turn hBelow hMore).mp hReach)⟩
          · rintro ⟨hMore, ⟨-, hOver⟩ | hReach⟩
            · omega
            · exact ⟨by omega, (reaches_after_turn hBelow hMore).mpr hReach⟩
        · have hNone := none_of_head hLeading hAllowed
          rw [pass_of_none hNone]
          constructor
          · intro hOver
            exact absurd hOver (Nat.not_lt_of_le hCount)
          · rintro ⟨-, hReach⟩
            exact absurd hReach (not_reaches_of_none hNone)
      · rw [pass_at_limit, reaches_of_le (le_refl count)]
        apply and_congr_left'
        omega

/-- As long as the limit is not reached, the sources reach it for a later demand after a pass if
they did so before. -/
theorem reaches_pass (hLeading : Leading allowed sources)
    (hBelow : (pass limit allowed sources deficit count).count < limit) :
    Reaches limit allowed' (pass limit allowed sources deficit count).count
        (pass limit allowed sources deficit count).sources ↔
      Reaches limit allowed' count sources := by
  induction sources generalizing deficit count with
  | nil => rfl
  | cons x rest ih =>
      obtain ⟨source, supply⟩ := x
      by_cases hAllowed : allowed source
      · have hRest : Leading allowed rest := (List.pairwise_cons.mp hLeading).2
        simp only [pass, hAllowed, if_true] at hBelow ⊢
        have hTurn : count + portion limit count deficit supply < limit :=
          Nat.lt_of_le_of_lt le_pass_count hBelow
        have hPortion := portion_of_lt hTurn
        rcases Nat.lt_or_ge deficit supply with hLess | hMore
        · -- the demand is served and nothing is handed over after this turn
          have hAll : portion limit count deficit supply = deficit := by omega
          rw [hAll, Nat.sub_self, pass_zero] at hBelow ⊢
          have hBefore : ¬limit ≤ count + deficit := Nat.not_le_of_lt hBelow
          have hStart : ¬limit ≤ count := by omega
          have hSum : count + deficit + (supply - deficit) = count + supply := by omega
          simp only [Reaches, hBefore, hStart, hSum, and_false, false_or]
        · have hAll : portion limit count deficit supply = supply := by omega
          rw [hAll] at hBelow ⊢
          have hStart : ¬limit ≤ count := by omega
          simp only [Reaches, Nat.sub_self, Nat.lt_irrefl, false_and, and_false, false_or, hStart,
            Nat.add_zero]
          exact ih hRest hBelow
      · have hNone := none_of_head hLeading hAllowed
        rw [pass_of_none hNone]

/-- A demand that is not served in full leaves nothing to reach the limit with. -/
theorem not_reaches_of_deficit (hLeading : Leading allowed sources)
    (hSub : ∀ source, allowed' source → allowed source)
    (hBelow : (pass limit allowed sources deficit count).count < limit)
    (hLeft : 0 < (pass limit allowed sources deficit count).deficit) :
    ¬Reaches limit allowed' count sources := by
  induction sources generalizing deficit count with
  | nil => exact id
  | cons x rest ih =>
      obtain ⟨source, supply⟩ := x
      by_cases hAllowed : allowed source
      · have hRest : Leading allowed rest := (List.pairwise_cons.mp hLeading).2
        simp only [pass, hAllowed, if_true] at hBelow hLeft
        have hTurn : count + portion limit count deficit supply < limit :=
          Nat.lt_of_le_of_lt le_pass_count hBelow
        have hPortion := portion_of_lt hTurn
        have hMore : supply ≤ deficit := by
          by_contra hLess
          have hAll : portion limit count deficit supply = deficit := by omega
          rw [hAll, Nat.sub_self, pass_zero] at hLeft
          exact absurd hLeft (Nat.lt_irrefl 0)
        have hAll : portion limit count deficit supply = supply := by omega
        rw [hAll] at hBelow hLeft
        rintro (⟨-, -, hOver⟩ | hReach)
        · omega
        · exact ih hRest hBelow hLeft hReach
      · have hNone := none_of_head hLeading hAllowed
        have hNone' : ∀ y ∈ (source, supply) :: rest, allowed' y.1 = false := fun y hy =>
          Bool.eq_false_iff.mpr fun h => absurd (hSub y.1 h) (by simp [hNone y hy])
        exact not_reaches_of_none hNone'

end Limit

section Serve

theorem overflows_congr (hReach : ∀ x ∈ demands, (reach x.1 ↔ reach' x.1)) :
    Overflows limit reach due demands ↔ Overflows limit reach' due demands := by
  induction demands generalizing due with
  | nil => rfl
  | cons x rest ih =>
      obtain ⟨demand, deficit⟩ := x
      simp only [Overflows]
      rw [hReach _ List.mem_cons_self, ih fun y hy => hReach y (List.mem_cons_of_mem _ hy)]

theorem not_overflows (hReach : ∀ x ∈ demands, ¬reach x.1) :
    ¬Overflows limit reach due demands := by
  induction demands generalizing due with
  | nil => exact id
  | cons x rest ih =>
      rintro (⟨-, -, h⟩ | h)
      · exact hReach x List.mem_cons_self h
      · exact ih (fun y hy => hReach y (List.mem_cons_of_mem x hy)) h

theorem not_overflows_of_le (hDue : limit ≤ due) : ¬Overflows limit reach due demands := by
  induction demands generalizing due with
  | nil => exact id
  | cons x rest ih =>
      rintro (⟨h, -, -⟩ | h)
      · omega
      · exact ih (by omega) h

theorem serve_of_le (allowed : β → α → Bool) (hCount : limit ≤ count) :
    serve limit allowed demands sources count = count := by
  cases demands with
  | nil => rfl
  | cons x rest => exact if_pos hCount

/-- What is handed over goes over the limit exactly if the demands do, with what is there. -/
theorem serve_exceeds_iff (allowed : β → α → Bool)
    (hLeading : ∀ x ∈ demands, Leading (allowed x.1) sources)
    (hOrder : demands.Pairwise fun x y => ∀ source, allowed y.1 source → allowed x.1 source)
    (hCount : count ≤ limit) :
    limit < serve limit allowed demands sources count ↔
      Overflows limit (fun demand => Reaches limit (allowed demand) count sources) count
        demands := by
  induction demands generalizing sources count with
  | nil => simpa [serve, Overflows] using hCount
  | cons x rest ih =>
      obtain ⟨demand, deficit⟩ := x
      have hFirst : Leading (allowed demand) sources := hLeading _ List.mem_cons_self
      have hRest : ∀ y ∈ rest, Leading (allowed y.1) sources := fun y hy =>
        hLeading y (List.mem_cons_of_mem _ hy)
      obtain ⟨hSub, hOrder⟩ := List.pairwise_cons.mp hOrder
      unfold serve Overflows
      rcases Nat.lt_or_eq_of_le hCount with hBelow | rfl
      · rw [if_neg (Nat.not_le_of_lt hBelow)]
        have hSum : (pass limit (allowed demand) sources deficit count).count +
            (pass limit (allowed demand) sources deficit count).deficit = count + deficit :=
          pass_conserves
        have hExceeds : limit < (pass limit (allowed demand) sources deficit count).count ↔
            count < limit ∧ limit < count + deficit ∧
              Reaches limit (allowed demand) count sources := by
          rw [pass_exceeds_iff hFirst hCount, and_iff_right hBelow]
        simp only [← hExceeds]
        rcases Nat.lt_trichotomy (pass limit (allowed demand) sources deficit count).count limit
          with hUnder | hAt | hOver
        · have hPassed : ∀ y ∈ rest, Leading (allowed y.1)
              (pass limit (allowed demand) sources deficit count).sources := by
            intro y hy
            unfold Leading
            rw [map_fst_pass]
            exact hRest y hy
          have hSame : ∀ due, Overflows limit (fun later => Reaches limit (allowed later)
                (pass limit (allowed demand) sources deficit count).count
                (pass limit (allowed demand) sources deficit count).sources) due rest ↔
              Overflows limit (fun later => Reaches limit (allowed later) count sources) due rest :=
            fun _ => overflows_congr fun _ _ => reaches_pass hFirst hUnder
          rw [ih hPassed hOrder hUnder.le, hSame, or_iff_right (Nat.not_lt_of_lt hUnder)]
          rcases Nat.eq_zero_or_pos
            (pass limit (allowed demand) sources deficit count).deficit with hServed | hLeft
          · rw [← hSum, hServed, Nat.add_zero]
          · have hNone : ∀ y ∈ rest, ¬Reaches limit (allowed y.1) count sources := fun y hy =>
              not_reaches_of_deficit hFirst (hSub y hy) hUnder hLeft
            exact iff_of_false (not_overflows hNone) (not_overflows hNone)
        · rw [serve_of_le allowed hAt.ge, or_iff_right (Nat.not_lt_of_le hAt.le)]
          exact iff_of_false (Nat.not_lt_of_le hAt.le) (not_overflows_of_le (by omega))
        · rw [serve_of_le allowed hOver.le]
          exact iff_of_true hOver (.inl hOver)
      · rw [if_pos (le_refl count)]
        have hNot : ¬count < count := Nat.lt_irrefl count
        simp only [hNot, false_and, false_or, false_iff]
        exact not_overflows_of_le (Nat.le_add_right count deficit)

end Serve

end Data.Quota
