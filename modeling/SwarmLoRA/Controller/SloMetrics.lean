import Mathlib.Algebra.Order.BigOperators.Group.List
import Mathlib.Data.List.GetD
import SwarmLoRA.Data.OrderedDict
import SwarmLoRA.Data.Rounding
import SwarmLoRA.Data.Sorting

namespace Controller

open Data

/-- One for every submitted request. The time is ignored if the request did not succeed. -/
structure Sample where
  succeeded : Bool
  ttft_s : ℚ
  tokens : Int

structure SloMetrics where
  slo_s : ℚ
  slo_met_requests : Nat
  slo_attainment : ℚ
  effective_throughput_tok_s : ℚ

inductive SloError where
  /-- "slo_s must be positive" -/
  | not_positive (slo_s : ℚ)

namespace Sample

/-- The request met the target; a time that is missing cannot be shown to have met it. -/
def meets (slo_s : ℚ) (s : Sample) : Bool := s.succeeded ∧ 0 < s.ttft_s ∧ s.ttft_s ≤ slo_s

def observed (s : Sample) : Bool := s.succeeded ∧ 0 < s.ttft_s

/-- What the request is charged with. -/
def charged (charge : ℚ) (s : Sample) : ℚ := if s.observed then s.ttft_s else charge

end Sample

/-- `slo_env` is what `slo_from_env` reads. -/
def slo_metrics (slo_env : ℚ) (samples : List Sample) (duration_s : ℚ) (slo_s : Option ℚ) :
    Except SloError SloMetrics :=
  let slo_s := slo_s.getD slo_env
  if slo_s ≤ 0 then .error (.not_positive slo_s)
  else
    let met := samples.filter (·.meets slo_s)
    let met_tokens : Int := (met.map fun s => max 0 s.tokens).sum
    .ok {
      slo_s := slo_s
      slo_met_requests := met.length
      slo_attainment :=
        if samples.length = 0 then 0 else round_to 4 (met.length / samples.length)
      effective_throughput_tok_s :=
        if 0 < duration_s then round_to 1 (met_tokens / duration_s) else 0 }

/-- The times that were observed. -/
def observed (samples : List Sample) : List ℚ :=
  (samples.filter (·.observed)).map (·.ttft_s)

/-- The place of a percentile among `n` sorted times. -/
def percentile_index (p : ℚ) (n : Nat) : Int := min (truncate (p * n)) (n - 1)

def ttft_key (p : ℚ) : String := s!"ttft_all_p{truncate (p * 100)}_ms"

def ttft_ms (ttft_s : ℚ) : ℚ := round_to 1 (ttft_s * 1000)

/-- `l[i]`, where a negative index counts from the end. -/
def subscript {α : Type} (l : List α) (i : Int) : Option α :=
  if 0 ≤ i then l[i.toNat]?
  else if 0 ≤ l.length + i then l[(l.length + i).toNat]?
  else none

/-- `none` is an `IndexError`, which a percentile below zero can raise. -/
def ttft_percentiles_all (samples : List Sample) (percentiles : List ℚ)
    (miss_value_s : Option ℚ) : Option (OrderedDict String ℚ) :=
  match (observed samples).max? with
  | none => some ∅
  | some largest =>
      let charge := miss_value_s.getD largest
      let full := (samples.map (·.charged charge)).insertionSort (· ≤ ·)
      percentiles.foldlM
        (fun out p =>
          (subscript full (percentile_index p full.length)).map fun t =>
            out.set (ttft_key p) (ttft_ms t))
        ∅

/-- The percentile that is reported under a key: the last one that has it. -/
def asked (percentiles : List ℚ) (key : String) : Option ℚ :=
  percentiles.reverse.find? (ttft_key · = key)

/-- Replacing some samples by others made no number look better: no percentile is lower, and neither
the attainment nor the effective throughput is higher. -/
structure NotFlattered (percentiles : List ℚ) (samples samples' : List Sample) : Prop where
  ttft : ∃ before after, ttft_percentiles_all samples percentiles none = some before ∧
    ttft_percentiles_all samples' percentiles none = some after ∧
    ∀ key value, before.find key = some value →
      ∃ value', after.find key = some value' ∧ value ≤ value'
  slo : ∀ slo_env duration_s slo_s before,
    slo_metrics slo_env samples duration_s slo_s = .ok before →
      ∃ after, slo_metrics slo_env samples' duration_s slo_s = .ok after ∧
        after.slo_attainment ≤ before.slo_attainment ∧
        after.effective_throughput_tok_s ≤ before.effective_throughput_tok_s

theorem ttft_ms_mono {t t' : ℚ} (h : t ≤ t') : ttft_ms t ≤ ttft_ms t' :=
  round_to_mono 1 (mul_le_mul_of_nonneg_right h (by norm_num))

section Slo

variable {before after : List Sample} {s lost : Sample}

/-- A request that did not succeed meets no target. -/
theorem meets_drop (hLost : lost.succeeded = false) (slo_s : ℚ) :
    ((before ++ lost :: after).filter (·.meets slo_s)).Sublist
      ((before ++ s :: after).filter (·.meets slo_s)) := by
  have hMiss : lost.meets slo_s = false := by simp [Sample.meets, hLost]
  rw [List.filter_append, List.filter_append, List.filter_cons_of_neg (by simp [hMiss])]
  exact List.Sublist.append_left (((List.sublist_cons_self s after).filter _)) _

/-- A drop raises neither of the two numbers. -/
theorem slo_metrics_drop (hLost : lost.succeeded = false) {slo_env duration_s : ℚ}
    {slo_s : Option ℚ} {m : SloMetrics}
    (hMetrics : slo_metrics slo_env (before ++ s :: after) duration_s slo_s = .ok m) :
    ∃ m', slo_metrics slo_env (before ++ lost :: after) duration_s slo_s = .ok m' ∧
      m'.slo_attainment ≤ m.slo_attainment ∧
      m'.effective_throughput_tok_s ≤ m.effective_throughput_tok_s := by
  have hSub : ((before ++ lost :: after).filter (·.meets (slo_s.getD slo_env))).Sublist
      ((before ++ s :: after).filter (·.meets (slo_s.getD slo_env))) := meets_drop hLost _
  have hLength : (before ++ lost :: after).length = (before ++ s :: after).length := by simp
  unfold slo_metrics at hMetrics ⊢
  dsimp only at hMetrics ⊢
  split at hMetrics
  · cases hMetrics
  · rename_i hPositive
    cases hMetrics
    rw [if_neg hPositive]
    refine ⟨_, rfl, ?_, ?_⟩
    · dsimp only
      rw [hLength]
      split
      · exact le_refl _
      · apply round_to_mono
        apply div_le_div_of_nonneg_right _ (Nat.cast_nonneg _)
        exact Nat.cast_le.mpr hSub.length_le
    · dsimp only
      split
      · rename_i hDuration
        apply round_to_mono
        apply div_le_div_of_nonneg_right _ hDuration.le
        apply Int.cast_le.mpr
        apply (hSub.map _).sum_le_sum
        intro tokens hMem
        obtain ⟨x, -, rfl⟩ := List.mem_map.mp hMem
        exact le_max_left 0 x.tokens
      · exact le_refl _

end Slo

section Percentiles

variable {samples : List Sample} {percentiles : List ℚ} {largest : ℚ}

/-- The times that percentiles are taken from. -/
def full (samples : List Sample) (charge : ℚ) : List ℚ :=
  (samples.map (·.charged charge)).insertionSort (· ≤ ·)

/-- What is reported for a percentile. -/
def figure (full : List ℚ) (p : ℚ) : ℚ :=
  ttft_ms (full.getD (percentile_index p full.length).toNat 0)

theorem length_full (charge : ℚ) : (full samples charge).length = samples.length := by
  rw [full, List.length_insertionSort, List.length_map]

theorem percentile_index_lt {p : ℚ} {n : Nat} (hn : 0 < n) :
    (percentile_index p n).toNat < n := by
  have hLast : percentile_index p n ≤ n - 1 := min_le_right _ _
  omega

theorem percentile_index_nonneg {p : ℚ} {n : Nat} (hp : 0 ≤ p) (hn : 0 < n) :
    0 ≤ percentile_index p n := by
  have hProduct : 0 ≤ truncate (p * n) := truncate_nonneg (mul_nonneg hp n.cast_nonneg)
  exact le_min hProduct (by omega)

theorem subscript_percentile {l : List ℚ} {p : ℚ} (hl : l ≠ []) (hp : 0 ≤ p) :
    subscript l (percentile_index p l.length) =
      some (l.getD (percentile_index p l.length).toNat 0) := by
  have hLength := List.length_pos_of_ne_nil hl
  have hLess : (percentile_index p l.length).toNat < l.length := percentile_index_lt hLength
  rw [subscript, if_pos (percentile_index_nonneg hp hLength), List.getElem?_eq_getElem hLess,
    List.getD_eq_getElem _ _ hLess]

/-- What a loop that fills a dictionary leaves under a key: the last value that it put there. -/
theorem find_foldlM_set {κ α β : Type} [DecidableEq κ] (key : α → κ) (value : α → β)
    {f : OrderedDict κ β → α → Option (OrderedDict κ β)} (l : List α) (d : OrderedDict κ β)
    (hStep : ∀ x ∈ l, ∀ d, f d x = some (d.set (key x) (value x))) :
    ∃ d', l.foldlM f d = some d' ∧
      ∀ k, d'.find k = ((l.reverse.find? (key · = k)).map value).or (d.find k) := by
  induction l generalizing d with
  | nil => exact ⟨d, rfl, fun _ => rfl⟩
  | cons x l ih =>
      obtain ⟨d', hRun, hFind⟩ := ih (d.set (key x) (value x))
        fun y hMem => hStep y (List.mem_cons_of_mem x hMem)
      refine ⟨d', ?_, fun k => ?_⟩
      · rw [List.foldlM_cons, hStep x List.mem_cons_self]
        exact hRun
      · rw [hFind k, OrderedDict.find_set, List.reverse_cons, List.find?_append,
          List.find?_singleton]
        cases l.reverse.find? (key · = k) with
        | some y => rfl
        | none =>
            by_cases hKey : key x = k
            · simp [hKey]
            · simp [hKey, Ne.symm hKey]

theorem ttft_percentiles_all_find (hLargest : (observed samples).max? = some largest)
    (hPercentiles : ∀ p ∈ percentiles, 0 ≤ p) :
    ∃ d, ttft_percentiles_all samples percentiles none = some d ∧
      ∀ key, d.find key = (asked percentiles key).map (figure (full samples largest)) := by
  have hSome : full samples largest ≠ [] := by
    intro hNil
    have hNone : samples = [] := by
      rw [← List.length_eq_zero_iff, ← length_full largest, hNil]
      rfl
    rw [hNone] at hLargest
    cases hLargest
  have hStep : ∀ p ∈ percentiles, ∀ d : OrderedDict String ℚ,
      ((subscript (full samples largest)
          (percentile_index p (full samples largest).length)).map fun t =>
        d.set (ttft_key p) (ttft_ms t)) =
      some (d.set (ttft_key p) (figure (full samples largest) p)) := by
    intro p hMem d
    rw [subscript_percentile hSome (hPercentiles p hMem)]
    rfl
  obtain ⟨d, hRun, hFind⟩ :=
    find_foldlM_set ttft_key (figure (full samples largest)) percentiles ∅ hStep
  refine ⟨d, ?_, fun key => ?_⟩
  · rw [← hRun]
    unfold ttft_percentiles_all
    rw [hLargest]
    rfl
  · rw [hFind key, OrderedDict.find_empty, Option.or_none]
    rfl

theorem asked_mem {p : ℚ} {key : String} (hAsked : asked percentiles key = some p) :
    p ∈ percentiles :=
  List.mem_reverse.mp (List.mem_of_find?_eq_some hAsked)

end Percentiles

section Drop

variable {before after : List Sample} {s lost x : Sample} {percentiles : List ℚ}
  {charge largest : ℚ}

theorem observed_drop (hMiss : x.observed = false) :
    observed (before ++ x :: after) = observed (before ++ after) := by
  simp [observed, hMiss]

theorem observed_perm (hSeen : x.observed = true) :
    (observed (before ++ x :: after)).Perm (x.ttft_s :: observed (before ++ after)) := by
  have hPerm : (before ++ x :: after).Perm (x :: (before ++ after)) := List.perm_middle
  have hFilter := (hPerm.filter (·.observed)).map (·.ttft_s)
  rw [List.filter_cons_of_pos hSeen] at hFilter
  exact hFilter

/-- The misses are charged with the same, and so is a sample that has just that time. -/
theorem charged_perm (samples : List Sample) (charge : ℚ) :
    (samples.map (·.charged charge)).Perm
      (observed samples ++ List.replicate (samples.countP (!·.observed)) charge) := by
  induction samples with
  | nil => exact .refl _
  | cons x samples ih =>
      by_cases hSeen : x.observed = true
      · simpa [observed, Sample.charged, hSeen] using ih
      · have hMiss : x.observed = false := by simpa using hSeen
        have hCharged : x.charged charge = charge := if_neg hSeen
        have hSame : observed (x :: samples) = observed samples := by
          simp [observed, hMiss]
        rw [List.map_cons, hCharged, hSame, List.countP_cons_of_pos (by simp [hMiss]),
          List.replicate_succ]
        exact (ih.cons charge).trans List.perm_middle.symm

/-- Where no other request took longer than what a request and every miss are charged with. -/
theorem full_of_charged (hCharged : x.charged charge = charge)
    (hBound : ∀ t ∈ observed (before ++ after), t ≤ charge) :
    full (before ++ x :: after) charge =
      (observed (before ++ after)).insertionSort (· ≤ ·) ++
        List.replicate ((before ++ after).countP (!·.observed) + 1) charge := by
  apply insertionSort_eq_append_replicate _ hBound
  have hPerm : (before ++ x :: after).Perm (x :: (before ++ after)) := List.perm_middle
  have hRest := charged_perm (before ++ after) charge
  calc List.Perm _ ((x :: (before ++ after)).map (·.charged charge)) := hPerm.map _
    List.Perm _ (charge :: (observed (before ++ after) ++ _)) := by
      rw [List.map_cons, hCharged]
      exact hRest.cons charge
    List.Perm _ _ := by
      rw [List.replicate_succ]
      exact List.perm_middle.symm

theorem length_observed (samples : List Sample) :
    (observed samples).length = samples.countP (·.observed) := by
  rw [observed, List.length_map, List.countP_eq_length_filter]

/-- A percentile below the share of the others that were observed has one of their times. -/
theorem figure_of_charged {p : ℚ} (hp : 0 ≤ p) (hCharged : x.charged charge = charge)
    (hBound : ∀ t ∈ observed (before ++ after), t ≤ charge) :
    figure (full (before ++ x :: after) charge) p =
      if truncate (p * (before.length + after.length + 1 : Nat)) <
          (before ++ after).countP (·.observed) then
        ttft_ms (((observed (before ++ after)).insertionSort (· ≤ ·)).getD
          (truncate (p * (before.length + after.length + 1 : Nat))).toNat 0)
      else ttft_ms charge := by
  have hFull := full_of_charged hCharged hBound
  have hTotal : (full (before ++ x :: after) charge).length =
      before.length + after.length + 1 := by
    rw [length_full, List.length_append, List.length_cons]
    omega
  have hParts : (before ++ after).countP (·.observed) +
      (before ++ after).countP (!·.observed) = before.length + after.length := by
    rw [← List.length_append, List.length_eq_countP_add_countP (·.observed)]
    simp
  have hSorted : ((observed (before ++ after)).insertionSort (· ≤ ·)).length =
      (before ++ after).countP (·.observed) := by
    rw [List.length_insertionSort, length_observed]
  have hIndex : 0 ≤ truncate (p * (before.length + after.length + 1 : Nat)) :=
    truncate_nonneg (mul_nonneg hp (Nat.cast_nonneg _))
  rw [figure, hTotal, hFull, percentile_index]
  split
  · rename_i hLow
    rw [min_eq_left (by omega), List.getD_append _ _ _ _ (by omega)]
  · rename_i hHigh
    rw [List.getD_append_right _ _ _ _ (by omega), List.getD_replicate _ (by omega)]

theorem exists_largest (hRemaining : ∃ x ∈ before ++ after, x.observed) :
    ∃ largest, (observed (before ++ after)).max? = some largest := by
  obtain ⟨x, hMem, hSeen⟩ := hRemaining
  have hTime : x.ttft_s ∈ observed (before ++ after) :=
    List.mem_map_of_mem (List.mem_filter.mpr ⟨hMem, hSeen⟩)
  exact Option.isSome_iff_exists.mp (List.isSome_max?_of_mem hTime)

/-- What is charged for a miss before a request is dropped. -/
theorem max_observed_cons (hLargest : (observed (before ++ after)).max? = some largest) :
    (observed (before ++ x :: after)).max? =
      some (if x.observed then max x.ttft_s largest else largest) := by
  split
  · rename_i hSeen
    obtain ⟨hMem, hBound⟩ := List.max?_eq_some_iff.mp hLargest
    have hPerm : (observed (before ++ x :: after)).Perm
        (x.ttft_s :: observed (before ++ after)) := observed_perm hSeen
    apply List.max?_eq_some_iff.mpr
    constructor
    · apply hPerm.mem_iff.mpr
      rcases max_choice x.ttft_s largest with hSame | hSame
      · rw [hSame]
        exact List.mem_cons_self
      · rw [hSame]
        exact List.mem_cons_of_mem _ hMem
    · intro t hTime
      rcases List.mem_cons.mp (hPerm.mem_iff.mp hTime) with rfl | hTime
      · exact le_max_left _ _
      · exact (hBound t hTime).trans (le_max_right _ _)
  · rename_i hMiss
    rw [observed_drop (by simpa using hMiss)]
    exact hLargest

/-- No number got better if no percentile did. -/
theorem notFlattered_iff_figure (hLost : lost.succeeded = false)
    (hPercentiles : ∀ p ∈ percentiles, 0 ≤ p)
    (hCharge : (observed (before ++ s :: after)).max? = some charge)
    (hLargest : (observed (before ++ lost :: after)).max? = some largest) :
    NotFlattered percentiles (before ++ s :: after) (before ++ lost :: after) ↔
      ∀ key p, asked percentiles key = some p →
        figure (full (before ++ s :: after) charge) p ≤
          figure (full (before ++ lost :: after) largest) p := by
  obtain ⟨d, hRun, hFind⟩ := ttft_percentiles_all_find hCharge hPercentiles
  obtain ⟨d', hRun', hFind'⟩ := ttft_percentiles_all_find hLargest hPercentiles
  constructor
  · intro h key p hAsked
    obtain ⟨e, e', hSame, hSame', hKeep⟩ := h.ttft
    rw [hRun] at hSame
    rw [hRun'] at hSame'
    cases hSame
    cases hSame'
    obtain ⟨value', hValue', hLe⟩ := hKeep key _ (by rw [hFind, hAsked, Option.map_some])
    rw [hFind', hAsked, Option.map_some] at hValue'
    cases hValue'
    exact hLe
  · intro h
    refine ⟨⟨d, d', hRun, hRun', ?_⟩, fun _ _ _ _ => slo_metrics_drop hLost⟩
    intro key value hValue
    rw [hFind, Option.map_eq_some_iff] at hValue
    obtain ⟨p, hAsked, rfl⟩ := hValue
    refine ⟨_, ?_, h key p hAsked⟩
    rw [hFind', hAsked, Option.map_some]

/-- A request that did not take longest can be dropped: it is charged with a longer time, and every
other request with what it was charged with before. -/
theorem figure_le_of_le {p : ℚ} (hLe : s.charged largest ≤ largest)
    (hCharged : lost.charged largest = largest) :
    figure (full (before ++ s :: after) largest) p ≤
      figure (full (before ++ lost :: after) largest) p := by
  have hEach : List.Forall₂ (· ≤ ·) ((before ++ s :: after).map (·.charged largest))
      ((before ++ lost :: after).map (·.charged largest)) := by
    rw [List.map_append, List.map_append, List.map_cons, List.map_cons, hCharged]
    exact List.rel_append (List.forall₂_same.mpr fun _ _ => le_refl _)
      (.cons hLe (List.forall₂_same.mpr fun _ _ => le_refl _))
  have hLength : (full (before ++ s :: after) largest).length =
      (full (before ++ lost :: after) largest).length := by
    rw [length_full, length_full, List.length_append, List.length_append]
    rfl
  unfold figure
  rw [hLength]
  exact ttft_ms_mono (getD_le_getD (insertionSort_le_mono hEach) _ _)

/-- Of a request that took longer than every other, each percentile that falls on a miss or on it
is lower when it is dropped. -/
theorem figure_le_iff_of_lt {p : ℚ} (hp : 0 ≤ p) (hSeen : s.observed = true)
    (hLost : lost.observed = false)
    (hLargest : (observed (before ++ after)).max? = some largest) (hLess : largest < s.ttft_s) :
    figure (full (before ++ s :: after) s.ttft_s) p ≤
        figure (full (before ++ lost :: after) largest) p ↔
      truncate (p * (before.length + after.length + 1 : Nat)) <
          (before ++ after).countP (·.observed) ∨
        ttft_ms s.ttft_s ≤ ttft_ms largest := by
  obtain ⟨-, hBound⟩ := List.max?_eq_some_iff.mp hLargest
  have hCharged : s.charged s.ttft_s = s.ttft_s := if_pos hSeen
  have hCharged' : lost.charged largest = largest := if_neg (by simp [hLost])
  rw [figure_of_charged hp hCharged fun t hTime => (hBound t hTime).trans hLess.le,
    figure_of_charged hp hCharged' hBound]
  split
  · rename_i hLow
    exact iff_of_true (le_refl _) (.inl hLow)
  · rename_i hHigh
    exact (or_iff_right hHigh).symm

theorem shows_as_long_iff (hLargest : (observed (before ++ after)).max? = some largest) :
    (∃ x ∈ before ++ after, x.observed ∧ ttft_ms s.ttft_s ≤ ttft_ms x.ttft_s) ↔
      ttft_ms s.ttft_s ≤ ttft_ms largest := by
  obtain ⟨hMem, hBound⟩ := List.max?_eq_some_iff.mp hLargest
  constructor
  · rintro ⟨x, hx, hSeen, hLe⟩
    have hTime : x.ttft_s ∈ observed (before ++ after) :=
      List.mem_map_of_mem (List.mem_filter.mpr ⟨hx, hSeen⟩)
    exact hLe.trans (ttft_ms_mono (hBound x.ttft_s hTime))
  · intro hLe
    obtain ⟨x, hx, rfl⟩ := List.mem_map.mp hMem
    obtain ⟨hx, hSeen⟩ := List.mem_filter.mp hx
    exact ⟨x, hx, hSeen, hLe⟩

theorem notFlattered_iff_of_longest (hSeen : s.observed = true) (hLost : lost.succeeded = false)
    (hPercentiles : ∀ p ∈ percentiles, 0 ≤ p)
    (hLargest : (observed (before ++ after)).max? = some largest) (hLess : largest < s.ttft_s) :
    NotFlattered percentiles (before ++ s :: after) (before ++ lost :: after) ↔
      ttft_ms s.ttft_s ≤ ttft_ms largest ∨
        ∀ key p, asked percentiles key = some p →
          truncate (p * (before.length + after.length + 1 : Nat)) <
            (before ++ after).countP (·.observed) := by
  have hMiss : lost.observed = false := by simp [Sample.observed, hLost]
  have hCharge : (observed (before ++ s :: after)).max? = some s.ttft_s := by
    rw [max_observed_cons hLargest, if_pos hSeen, max_eq_left hLess.le]
  have hDropped : (observed (before ++ lost :: after)).max? = some largest := by
    rw [observed_drop hMiss, hLargest]
  rw [notFlattered_iff_figure hLost hPercentiles hCharge hDropped]
  constructor
  · intro h
    by_cases hShown : ttft_ms s.ttft_s ≤ ttft_ms largest
    · exact .inl hShown
    · apply Or.inr
      intro key p hAsked
      have hp := hPercentiles p (asked_mem hAsked)
      have hFigure := (figure_le_iff_of_lt hp hSeen hMiss hLargest hLess).mp (h key p hAsked)
      exact hFigure.resolve_right hShown
  · intro h key p hAsked
    have hp := hPercentiles p (asked_mem hAsked)
    apply (figure_le_iff_of_lt hp hSeen hMiss hLargest hLess).mpr
    rcases h with hShown | hLow
    · exact .inr hShown
    · exact .inl (hLow key p hAsked)

theorem notFlattered_of_le (hLost : lost.succeeded = false)
    (hPercentiles : ∀ p ∈ percentiles, 0 ≤ p)
    (hLargest : (observed (before ++ after)).max? = some largest) (hLe : s.ttft_s ≤ largest) :
    NotFlattered percentiles (before ++ s :: after) (before ++ lost :: after) := by
  have hMiss : lost.observed = false := by simp [Sample.observed, hLost]
  have hCharge : (observed (before ++ s :: after)).max? = some largest := by
    rw [max_observed_cons hLargest, max_eq_right hLe, ite_self]
  have hDropped : (observed (before ++ lost :: after)).max? = some largest := by
    rw [observed_drop hMiss, hLargest]
  have hCharged : s.charged largest ≤ largest := by
    unfold Sample.charged
    split
    · exact hLe
    · exact le_refl _
  apply (notFlattered_iff_figure hLost hPercentiles hCharge hDropped).mpr
  intro key p _
  exact figure_le_of_le hCharged (if_neg (by simp [hMiss]))

/-- What was observed is positive, so that a time that does not count is no longer. -/
theorem le_of_not_longest (hSucceeded : s.succeeded = true)
    (hLargest : (observed (before ++ after)).max? = some largest)
    (hNot : ¬(s.observed = true ∧ largest < s.ttft_s)) : s.ttft_s ≤ largest := by
  by_cases hSeen : s.observed = true
  · exact not_lt.mp fun hLess => hNot ⟨hSeen, hLess⟩
  · obtain ⟨hMem, -⟩ := List.max?_eq_some_iff.mp hLargest
    obtain ⟨x, hx, rfl⟩ := List.mem_map.mp hMem
    have hCounts := (List.mem_filter.mp hx).2
    simp only [Sample.observed, decide_eq_true_eq] at hCounts
    simp only [Sample.observed, decide_eq_true_eq, not_and, not_lt] at hSeen
    exact (hSeen hSucceeded).trans hCounts.2.le

end Drop

end Controller
