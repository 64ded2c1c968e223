import Mathlib.Algebra.Order.Field.Rat
import Mathlib.Data.List.Induction
import SwarmLoRA.Data.Tally

namespace Controller

open Data

/-- The requests of each adapter in a sliding window, pruned when a rate is read and when a list has
grown long. The lists of the dictionary are not shared, neither with each other nor with a caller. -/
structure AdapterFrequencyTracker (Adapter : Type) where
  window : ℚ
  timestamps : OrderedDict Adapter (List ℚ) := ∅

namespace AdapterFrequencyTracker

variable {Adapter : Type}

/-- What is still in the window. `sub` is the subtraction that the code does in floats: all that is
ever assumed of it is that the window does not begin earlier when it ends later. -/
def prune (sub : ℚ → ℚ → ℚ) (tracker : AdapterFrequencyTracker Adapter) (now : ℚ) (ts : List ℚ) :
    List ℚ :=
  ts.filter (sub now tracker.window < ·)

inductive Call (Adapter : Type) where
  | record_request (adapter_id : Adapter)
  | get_request_rate (adapter_id : Adapter)

/-- What the tracker has of an adapter counts as everything that was recorded does, in every window
that ends at some time or later. -/
structure Counts (sub : ℚ → ℚ → ℚ) (window clock : ℚ) (history : Adapter → List ℚ)
    (tracker : AdapterFrequencyTracker Adapter) : Prop where
  window_eq : tracker.window = window
  recent : ∀ a cutoff, sub clock window ≤ cutoff →
    (tracker.timestamps.get a []).filter (cutoff < ·) = (history a).filter (cutoff < ·)

variable {sub : ℚ → ℚ → ℚ} {tracker : AdapterFrequencyTracker Adapter} {window now clock cutoff : ℚ}
  {history : Adapter → List ℚ}

/-- Nothing is pruned that a later cutoff would keep. -/
theorem filter_prune (hCutoff : sub now tracker.window ≤ cutoff) (ts : List ℚ) :
    (prune sub tracker now ts).filter (cutoff < ·) = ts.filter (cutoff < ·) := by
  unfold prune
  rw [List.filter_filter]
  apply List.filter_congr
  intro t _
  simp only [Bool.and_eq_left_iff_imp, decide_eq_true_eq]
  exact hCutoff.trans_lt

theorem Counts.start (sub : ℚ → ℚ → ℚ) (window clock : ℚ) :
    Counts sub window clock (fun _ : Adapter => []) { window } where
  window_eq := rfl
  recent _ _ _ := rfl

/-- The clock goes on, and the window begins no earlier. -/
theorem Counts.later (h : Counts sub window clock history tracker)
    (hSub : Monotone fun now => sub now window) (hClock : clock ≤ now) :
    Counts sub window now history tracker where
  window_eq := h.window_eq
  recent a cutoff hCutoff := h.recent a cutoff ((hSub hClock).trans hCutoff)

variable [DecidableEq Adapter]

section Calls

variable (sub : ℚ → ℚ → ℚ) (tracker : AdapterFrequencyTracker Adapter) (now : ℚ)
  (adapter_id : Adapter)

def record_request : AdapterFrequencyTracker Adapter :=
  let ts := tracker.timestamps.get adapter_id [] ++ [now]
  { tracker with
    timestamps := tracker.timestamps.set adapter_id
      (if 200 < ts.length then prune sub tracker now ts else ts) }

def get_request_rate : ℚ × AdapterFrequencyTracker Adapter :=
  match tracker.timestamps.find adapter_id with
  | none => (0, tracker)
  | some ts =>
      let ts := prune sub tracker now ts
      (if ts.isEmpty then 0 else ts.length / tracker.window,
        { tracker with timestamps := tracker.timestamps.set adapter_id ts })

end Calls

/-- A call with the time that the clock shows. -/
def call (sub : ℚ → ℚ → ℚ) (tracker : AdapterFrequencyTracker Adapter) (c : ℚ × Call Adapter) :
    AdapterFrequencyTracker Adapter :=
  match c.2 with
  | .record_request adapter_id => record_request sub tracker c.1 adapter_id
  | .get_request_rate adapter_id => (get_request_rate sub tracker c.1 adapter_id).2

/-- A new tracker after some calls. -/
def after (sub : ℚ → ℚ → ℚ) (window : ℚ) (calls : List (ℚ × Call Adapter)) :
    AdapterFrequencyTracker Adapter :=
  calls.foldl (call sub) { window }

/-- When requests were recorded for an adapter. -/
def recorded (adapter_id : Adapter) (calls : List (ℚ × Call Adapter)) : List ℚ :=
  calls.filterMap fun c =>
    match c.2 with
    | .record_request a => if a = adapter_id then some c.1 else none
    | .get_request_rate _ => none

variable {adapter_id a : Adapter} {calls : List (ℚ × Call Adapter)}

theorem get_record_request : (record_request sub tracker now adapter_id).timestamps.get a [] =
    if a = adapter_id then
      let ts := tracker.timestamps.get a [] ++ [now]
      if 200 < ts.length then prune sub tracker now ts else ts
    else tracker.timestamps.get a [] := by
  unfold record_request
  rw [OrderedDict.get_set]
  by_cases ha : a = adapter_id
  · subst ha
    rfl
  · rw [if_neg ha, if_neg ha]

theorem get_get_request_rate :
    (get_request_rate sub tracker now adapter_id).2.timestamps.get a [] =
      if a = adapter_id then prune sub tracker now (tracker.timestamps.get a [])
      else tracker.timestamps.get a [] := by
  unfold get_request_rate
  cases hFind : tracker.timestamps.find adapter_id with
  | none =>
      by_cases ha : a = adapter_id
      · rw [if_pos ha, ha, OrderedDict.get, hFind]
        rfl
      · rw [if_neg ha]
  | some ts =>
      dsimp only
      rw [OrderedDict.get_set]
      by_cases ha : a = adapter_id
      · rw [if_pos ha, if_pos ha, ha, OrderedDict.get, hFind]
        rfl
      · rw [if_neg ha, if_neg ha]

theorem window_get_request_rate :
    (get_request_rate sub tracker now adapter_id).2.window = tracker.window := by
  unfold get_request_rate
  cases tracker.timestamps.find adapter_id <;> rfl

/-- The rate of an adapter depends on its own timestamps. -/
theorem rate_eq : (get_request_rate sub tracker now a).1 =
    (prune sub tracker now (tracker.timestamps.get a [])).length / tracker.window := by
  unfold get_request_rate OrderedDict.get
  cases tracker.timestamps.find a with
  | none => simp [prune]
  | some ts =>
      dsimp only [Option.getD_some]
      split
      · rename_i hEmpty
        rw [List.isEmpty_iff.mp hEmpty]
        simp
      · rfl

theorem recorded_append (c : ℚ × Call Adapter) :
    recorded a (calls ++ [c]) = recorded a calls ++ recorded a [c] := List.filterMap_append

namespace Counts

theorem record_request (h : Counts sub window now (fun a => recorded a calls) tracker) :
    Counts sub window now (fun a => recorded a (calls ++ [(now, .record_request adapter_id)]))
      (AdapterFrequencyTracker.record_request sub tracker now adapter_id) where
  window_eq := h.window_eq
  recent a cutoff hCutoff := by
    have hPruned := @filter_prune Adapter sub tracker now cutoff (h.window_eq ▸ hCutoff)
    rw [get_record_request, recorded_append, List.filter_append, ← h.recent a cutoff hCutoff]
    by_cases ha : a = adapter_id
    · subst ha
      have hNow : recorded a [(now, .record_request a)] = [now] := by simp [recorded]
      rw [if_pos rfl, hNow, ← List.filter_append]
      dsimp only
      split
      · exact hPruned _
      · rfl
    · have hNone : recorded a [(now, .record_request adapter_id)] = [] := by
        simp [recorded, Ne.symm ha]
      rw [if_neg ha, hNone, List.filter_nil, List.append_nil]

theorem get_request_rate (h : Counts sub window now (fun a => recorded a calls) tracker) :
    Counts sub window now (fun a => recorded a (calls ++ [(now, .get_request_rate adapter_id)]))
      (AdapterFrequencyTracker.get_request_rate sub tracker now adapter_id).2 where
  window_eq := window_get_request_rate.trans h.window_eq
  recent a cutoff hCutoff := by
    have hNone : recorded a [(now, .get_request_rate adapter_id)] = [] := rfl
    rw [get_get_request_rate, recorded_append, hNone, List.append_nil, ← h.recent a cutoff hCutoff]
    split
    · exact filter_prune (h.window_eq ▸ hCutoff) _
    · rfl

/-- After any calls, from the time of the last one on. -/
theorem of_calls (hSub : Monotone fun now => sub now window)
    (hClock : (calls.map (·.1)).Pairwise (· ≤ ·)) (hNow : ∀ c ∈ calls, c.1 ≤ now) :
    Counts sub window now (fun a => recorded a calls) (after sub window calls) := by
  induction calls using List.reverseRecOn generalizing now with
  | nil => exact .start sub window now
  | append_singleton calls c ih =>
      obtain ⟨t, c⟩ := c
      rw [List.map_append, List.pairwise_append] at hClock
      obtain ⟨hClock, -, hLast⟩ := hClock
      have hBefore : ∀ c ∈ calls, c.1 ≤ t := fun c hc =>
        hLast c.1 (List.mem_map_of_mem hc) t (by simp)
      have hCounts := ih hClock hBefore
      refine later ?_ hSub (hNow (t, c) (by simp))
      unfold after
      rw [List.foldl_append]
      cases c with
      | record_request adapter_id => exact hCounts.record_request
      | get_request_rate adapter_id => exact hCounts.get_request_rate

end Counts

/-- What is recorded was recorded at the time of a call. -/
theorem le_of_recorded (hNow : ∀ c ∈ calls, c.1 ≤ now) : ∀ t ∈ recorded a calls, t ≤ now := by
  intro t ht
  obtain ⟨⟨t', c⟩, hc, hSome⟩ := List.mem_filterMap.mp ht
  cases c with
  | record_request adapter_id =>
      dsimp only at hSome
      split at hSome
      · exact Option.some.inj hSome ▸ hNow _ hc
      · cases hSome
  | get_request_rate adapter_id => cases hSome

/-- In every run of calls with a clock that does not go back, the rate of an adapter is the number
of its requests in the window by the length of the window. A query for one adapter does not change
the rate of another. The subtraction that gives the begin of the window may be exact or rounded, as
long as it is monotone in the time. -/
theorem rate_counts_window (window : ℚ) (hSub : Monotone fun now => sub now window)
    {calls : List (ℚ × Call Adapter)} (hClock : (calls.map (·.1)).Pairwise (· ≤ ·)) :
    (∀ before t a later, calls = before ++ (t, .get_request_rate a) :: later →
      (get_request_rate sub (after sub window before) t a).1 =
        ((recorded a before).countP fun t' => sub t window < t' ∧ t' ≤ t) / window) ∧
    ∀ (tracker : AdapterFrequencyTracker Adapter) (t t' : ℚ) (a b : Adapter), b ≠ a →
      (get_request_rate sub (get_request_rate sub tracker t a).2 t' b).1 =
        (get_request_rate sub tracker t' b).1 := by
  constructor
  · rintro before t a later rfl
    rw [List.map_append, List.pairwise_append] at hClock
    obtain ⟨hClock, -, hLast⟩ := hClock
    have hBefore : ∀ c ∈ before, c.1 ≤ t := fun c hc =>
      hLast c.1 (List.mem_map_of_mem hc) t (by simp)
    have hCounts : Counts sub window t (fun a => recorded a before) (after sub window before) :=
      .of_calls hSub hClock hBefore
    have hWithin : (recorded a before).countP (fun t' => sub t window < t' ∧ t' ≤ t) =
        ((recorded a before).filter (sub t window < ·)).length := by
      rw [← List.countP_eq_length_filter]
      apply List.countP_congr
      intro t' ht'
      simp [le_of_recorded hBefore t' ht']
    rw [rate_eq, prune, hCounts.window_eq, hCounts.recent a _ (le_refl _), hWithin]
  · intro tracker t t' a b hOther
    rw [rate_eq, rate_eq, get_get_request_rate, if_neg hOther, prune, prune,
      window_get_request_rate]

/-- Of two requests one is still in the window, after a query has pruned the other. The subtraction
is exact. -/
theorem rate_counts_window_two : (get_request_rate (· - ·) (after (· - ·) 60
    [(0, .record_request "a"), (50, .record_request "a"), (60, .get_request_rate "a")])
      70 "a").1 = 1 / 60 := by
  have hSub : Monotone fun now : ℚ => now - 60 := fun _ _ hLater => sub_le_sub_right hLater 60
  have hClock : (([(0, .record_request "a"), (50, .record_request "a"),
      (60, .get_request_rate "a"), (70, .get_request_rate "a")] : List (ℚ × Call String)).map
      (·.1)).Pairwise (· ≤ ·) := by decide +kernel
  have hRate := (@rate_counts_window String (· - ·) _ 60 hSub _ hClock).1 [(0, .record_request "a"),
    (50, .record_request "a"), (60, .get_request_rate "a")] 70 "a" [] rfl
  have hOne : (recorded "a" [((0 : ℚ), .record_request "a"), (50, .record_request "a"),
      (60, .get_request_rate "a")]).countP (fun t' => 70 - (60 : ℚ) < t' ∧ t' ≤ 70) = 1 := by
    decide +kernel
  rw [hRate, hOne]
  rfl

end AdapterFrequencyTracker

end Controller
