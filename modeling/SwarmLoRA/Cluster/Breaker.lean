import Mathlib.Data.List.Count
import SwarmLoRA.Cluster.Resilience
import SwarmLoRA.Machine.System

/-! The circuit breaker of a node under any number of concurrent calls of `_forward_to_node`. A
call asks the breaker, builds its payload and enters the retries without a suspension in
between; it is suspended until the retries return, raise or are cancelled. -/
namespace Cluster.Breaker

/-- How the retries of an admitted call end. A cancellation is no `Exception`, so no handler
of the call sees it. -/
inductive Exit where
  | returned
  | raised
  | cancelled
  deriving DecidableEq

/-- An admitted call. `period` is the half-open period that has admitted it, if one has, and
`reports` is how many outcomes the call has recorded. -/
structure Call where
  period : Option Nat
  forwarding : Bool
  reports : Nat
  deriving DecidableEq

/-- `period` counts the half-open periods so far and `failures` are the times of the recorded
failures, the last one first; both are history variables. -/
structure State where
  breaker : CircuitBreaker := {}
  calls : List Call := []
  period : Nat := 0
  failures : List Time := []

inductive Label where
  | acquire (now : Time) (payload : Bool)
  | exit (call : Nat) (now : Time) (how : Exit)
  deriving DecidableEq

/-- What a call does to the breaker when its retries have ended. -/
def Exit.report (config : CircuitBreakerConfig) (now : Time) (b : CircuitBreaker) :
    Exit → CircuitBreaker
  | .returned => b.record_success config
  | .raised => b.record_failure config now
  | .cancelled => b

def Exit.reports : Exit → Nat
  | .returned | .raised => 1
  | .cancelled => 0

/-- One more half-open period if the breaker stops being open. -/
def State.next_period (s : State) (b : CircuitBreaker) : Nat :=
  if s.breaker.state = .open ∧ b.state = .half_open then s.period + 1 else s.period

def Call.finish (c : Call) (how : Exit) : Call :=
  { c with forwarding := false, reports := c.reports + how.reports }

/-- An admitted call whose payload cannot be built ends at once, before its handlers. -/
def step (config : CircuitBreakerConfig) (s : State) : Label → Option State
  | .acquire now payload =>
      let (b, admitted) := s.breaker.acquire config now
      let period := s.next_period b
      if admitted then
        some { s with
          breaker := b
          period := period
          calls := s.calls ++
            [{ period := if b.state = .half_open then some period else none
               forwarding := payload
               reports := 0 }] }
      else some { s with breaker := b, period := period }
  | .exit call now how =>
      match s.calls[call]? with
      | some c =>
          if c.forwarding then
            some { s with
              breaker := how.report config now s.breaker
              calls := s.calls.set call (c.finish how)
              failures := if how = .raised then now :: s.failures else s.failures }
          else none
      | none => none

def machine (config : CircuitBreakerConfig) : Machine.System State Label where
  initial s := s = {}
  step := step config

def Call.admitted_in (p : Nat) (c : Call) : Bool := c.period = some p

def Call.outstanding_in (p : Nat) (c : Call) : Bool := c.forwarding && c.period = some p

section Counts

variable {α : Type} {l : List α} {i : Nat} {a : α} (b : α) {p : α → Bool}

private theorem countP_set_same (hAt : l[i]? = some a) (hSame : p b = p a) :
    (l.set i b).countP p = l.countP p := by
  obtain ⟨hLt, rfl⟩ := List.getElem?_eq_some_iff.mp hAt
  have hLe := List.boole_getElem_le_countP (p := p) hLt
  rw [List.countP_set hLt, hSame]
  omega

private theorem countP_set_drop (hAt : l[i]? = some a) (hOld : p a = true)
    (hNew : p b = false) : (l.set i b).countP p + 1 = l.countP p := by
  obtain ⟨hLt, rfl⟩ := List.getElem?_eq_some_iff.mp hAt
  have hLe := List.boole_getElem_le_countP (p := p) hLt
  rw [List.countP_set hLt, hOld, hNew]
  rw [hOld] at hLe
  simp only [if_true, Bool.false_eq_true, if_false] at hLe ⊢
  omega

end Counts

section Steps

variable {config : CircuitBreakerConfig} {s s' : State}

/-- The five ways in which an acquisition can go. In the second a new half-open period has no
permit to give at all. -/
theorem acquire_cases {now : Time} {payload : Bool}
    (hStep : step config s (.acquire now payload) = some s') :
    (s.breaker.state ≠ .closed ∧ s' = s) ∨
    (s.breaker.state = .open ∧ config.half_open_max = 0 ∧ s' = { s with
      breaker :=
        { s.breaker with state := .half_open, half_open_count := 0, success_count := 0 }
      period := s.period + 1 }) ∨
    (s.breaker.state = .open ∧ 0 < config.half_open_max ∧ s' = { s with
      breaker :=
        { s.breaker with state := .half_open, half_open_count := 1, success_count := 0 }
      period := s.period + 1
      calls := s.calls ++ [⟨some (s.period + 1), payload, 0⟩] }) ∨
    (s.breaker.state = .half_open ∧ s.breaker.half_open_count < config.half_open_max ∧
      s' = { s with
        breaker := { s.breaker with half_open_count := s.breaker.half_open_count + 1 }
        calls := s.calls ++ [⟨some s.period, payload, 0⟩] }) ∨
    (s.breaker.state = .closed ∧ s' = { s with
      calls := s.calls ++ [⟨none, payload, 0⟩] }) := by
  cases hState : s.breaker.state with
  | closed =>
      simp [step, CircuitBreaker.acquire, CircuitBreaker.take_permit, State.next_period,
        hState] at hStep
      simp [← hStep]
  | «open» =>
      by_cases hElapsed : config.open_duration ≤ now - s.breaker.last_failure_time
      · by_cases hNone : config.half_open_max = 0
        · simp [step, CircuitBreaker.acquire, CircuitBreaker.take_permit, State.next_period,
            hState, hElapsed, hNone] at hStep
          simp [← hStep, hNone]
        · simp [step, CircuitBreaker.acquire, CircuitBreaker.take_permit, State.next_period,
            hState, hElapsed, hNone] at hStep
          simp [← hStep, Nat.pos_of_ne_zero hNone]
      · simp [step, CircuitBreaker.acquire, State.next_period, hState, hElapsed] at hStep
        simp [← hStep]
  | half_open =>
      by_cases hFull : config.half_open_max ≤ s.breaker.half_open_count
      · simp [step, CircuitBreaker.acquire, CircuitBreaker.take_permit, State.next_period,
          hState, hFull] at hStep
        simp [← hStep]
      · simp [step, CircuitBreaker.acquire, CircuitBreaker.take_permit, State.next_period,
          hState, hFull] at hStep
        simp [← hStep, hState, Nat.lt_of_not_le hFull]

theorem exit_cases {call : Nat} {now : Time} {how : Exit}
    (hStep : step config s (.exit call now how) = some s') :
    ∃ c, s.calls[call]? = some c ∧ c.forwarding = true ∧ s' = { s with
      breaker := how.report config now s.breaker
      calls := s.calls.set call (c.finish how)
      failures := if how = .raised then now :: s.failures else s.failures } := by
  simp only [step] at hStep
  split at hStep
  · rename_i c hAt
    split at hStep
    · rename_i hForwarding
      exact ⟨c, hAt, hForwarding, (Option.some.inj hStep).symm⟩
    · cases hStep
  · cases hStep

end Steps

section Reports

variable {config : CircuitBreakerConfig} {now : Time} {b : CircuitBreaker} {how : Exit}

/-- Only what is no failure leaves a breaker half open. -/
theorem report_half_open (h : (how.report config now b).state = .half_open) :
    b.state = .half_open ∧ how ≠ .raised ∧
      (how.report config now b).half_open_count = b.half_open_count := by
  cases how with
  | returned =>
      by_cases hState : b.state = .half_open
      · by_cases hEnough : config.success_threshold ≤ b.success_count + 1
        · simp [Exit.report, CircuitBreaker.record_success, hState, hEnough] at h
        · simp [Exit.report, CircuitBreaker.record_success, hState, hEnough]
      · simp [Exit.report, CircuitBreaker.record_success, hState] at h
  | raised =>
      simp only [Exit.report, CircuitBreaker.record_failure] at h
      split at h
      · cases h
      · split at h <;> simp_all
  | cancelled => exact ⟨h, by rintro ⟨⟩, rfl⟩

/-- A success that leaves the breaker half open is counted, below the threshold. -/
theorem report_returned_half_open
    (h : (Exit.returned.report config now b).state = .half_open) :
    (Exit.returned.report config now b).success_count = b.success_count + 1 ∧
      b.success_count + 1 < config.success_threshold := by
  have hState : b.state = .half_open := (report_half_open h).1
  by_cases hEnough : config.success_threshold ≤ b.success_count + 1
  · simp [Exit.report, CircuitBreaker.record_success, hState, hEnough] at h
  · simp [Exit.report, CircuitBreaker.record_success, hState, hEnough, Nat.lt_of_not_le hEnough]

theorem report_last_failure_time :
    (how.report config now b).last_failure_time =
      if how = .raised then now else b.last_failure_time := by
  cases how with
  | returned =>
      simp only [Exit.report, CircuitBreaker.record_success]
      split
      · split <;> rfl
      · rfl
  | raised =>
      simp only [Exit.report, CircuitBreaker.record_failure]
      split
      · rfl
      · split <;> rfl
  | cancelled => rfl

/-- Only a failure opens a breaker. -/
theorem report_open (h : (how.report config now b).state = .open) :
    how = .raised ∨ b.state = .open := by
  cases how with
  | returned =>
      simp only [Exit.report, CircuitBreaker.record_success] at h
      split at h
      · split at h <;> simp_all
      · exact Or.inr h
  | raised => exact Or.inl rfl
  | cancelled => exact Or.inr h

end Reports

/-- What holds whatever becomes of the calls: the permits given in a half-open period are
counted and bounded, and an open breaker remembers the last recorded failure. -/
structure Bounded (config : CircuitBreakerConfig) (s : State) : Prop where
  begun : ∀ c ∈ s.calls, ∀ p, c.period = some p → p ≤ s.period
  counted : s.breaker.state = .half_open →
    s.calls.countP (Call.admitted_in s.period) = s.breaker.half_open_count
  bounded : ∀ p, s.calls.countP (Call.admitted_in p) ≤ config.half_open_max
  failed : s.breaker.state = .open → s.failures.head? = some s.breaker.last_failure_time

namespace Bounded

variable {config : CircuitBreakerConfig} {s s' : State}

/-- Nothing has been admitted yet in the period that comes next. -/
theorem fresh (h : Bounded config s) : s.calls.countP (Call.admitted_in (s.period + 1)) = 0 := by
  rw [List.countP_eq_zero]
  intro c hMem hAdmitted
  have hBegun := h.begun c hMem (s.period + 1) (of_decide_eq_true hAdmitted)
  omega

theorem acquire (h : Bounded config s) {now : Time} {payload : Bool}
    (hStep : step config s (.acquire now payload) = some s') : Bounded config s' := by
  obtain ⟨-, rfl⟩ | ⟨-, hNone, rfl⟩ | ⟨-, hSome, rfl⟩ | ⟨hHalf, hFree, rfl⟩ | ⟨hClosed, rfl⟩ :=
    acquire_cases hStep
  · exact h
  · exact {
      begun := fun c hMem p hp => Nat.le_succ_of_le (h.begun c hMem p hp)
      counted := fun _ => h.fresh
      bounded := h.bounded
      failed := by rintro ⟨⟩ }
  · constructor
    · intro c hMem p hp
      rcases List.mem_append.mp hMem with hOld | hNew
      · exact Nat.le_succ_of_le (h.begun c hOld p hp)
      · rw [List.mem_singleton.mp hNew] at hp
        exact (Option.some.inj hp).ge
    · intro _
      show (s.calls ++ [_]).countP (Call.admitted_in (s.period + 1)) = 1
      rw [List.countP_append, h.fresh]
      simp [Call.admitted_in]
    · intro p
      show (s.calls ++ [_]).countP (Call.admitted_in p) ≤ _
      rw [List.countP_append]
      by_cases hp : p = s.period + 1
      · subst hp
        rw [h.fresh]
        have hOne : 1 ≤ config.half_open_max := hSome
        simpa [Call.admitted_in] using hOne
      · have hOther : s.period + 1 ≠ p := Ne.symm hp
        simpa [Call.admitted_in, hOther] using h.bounded p
    · rintro ⟨⟩
  · have hCounted := h.counted hHalf
    constructor
    · intro c hMem p hp
      rcases List.mem_append.mp hMem with hOld | hNew
      · exact h.begun c hOld p hp
      · rw [List.mem_singleton.mp hNew] at hp
        exact (Option.some.inj hp).ge
    · intro _
      show (s.calls ++ [_]).countP (Call.admitted_in s.period) = s.breaker.half_open_count + 1
      rw [List.countP_append, hCounted]
      simp [Call.admitted_in]
    · intro p
      show (s.calls ++ [_]).countP (Call.admitted_in p) ≤ _
      rw [List.countP_append]
      by_cases hp : p = s.period
      · subst hp
        rw [hCounted]
        have hNext : s.breaker.half_open_count + 1 ≤ config.half_open_max := hFree
        simpa [Call.admitted_in] using hNext
      · have hOther : s.period ≠ p := Ne.symm hp
        simpa [Call.admitted_in, hOther] using h.bounded p
    · intro hOpen
      exact h.failed hOpen
  · constructor
    · intro c hMem p hp
      rcases List.mem_append.mp hMem with hOld | hNew
      · exact h.begun c hOld p hp
      · rw [List.mem_singleton.mp hNew] at hp
        cases hp
    · intro hHalf
      cases hClosed.symm.trans hHalf
    · intro p
      show (s.calls ++ [_]).countP (Call.admitted_in p) ≤ _
      rw [List.countP_append]
      simpa [Call.admitted_in] using h.bounded p
    · intro hOpen
      cases hClosed.symm.trans hOpen

theorem exit (h : Bounded config s) {call : Nat} {now : Time} {how : Exit}
    (hStep : step config s (.exit call now how) = some s') : Bounded config s' := by
  obtain ⟨c, hAt, -, rfl⟩ := exit_cases hStep
  have hSame : ∀ p, (s.calls.set call (c.finish how)).countP (Call.admitted_in p) =
      s.calls.countP (Call.admitted_in p) :=
    fun p => countP_set_same _ hAt rfl
  constructor
  · intro d hMem p hp
    rcases List.mem_or_eq_of_mem_set hMem with hOld | rfl
    · exact h.begun d hOld p hp
    · exact h.begun c (List.mem_of_getElem? hAt) p hp
  · intro hHalf
    obtain ⟨hBefore, -, hCount⟩ := report_half_open hHalf
    exact (hSame s.period).trans ((h.counted hBefore).trans hCount.symm)
  · exact fun p => (hSame p).trans_le (h.bounded p)
  · intro hOpen
    show (if how = .raised then now :: s.failures else s.failures).head? =
      some (how.report config now s.breaker).last_failure_time
    rw [report_last_failure_time]
    by_cases hRaised : how = .raised
    · rw [if_pos hRaised, if_pos hRaised]
      rfl
    · rw [if_neg hRaised, if_neg hRaised]
      exact h.failed ((report_open hOpen).resolve_left hRaised)

theorem of_reach {guard : State → Label → Prop}
    (run : (machine config).Reach guard s) : Bounded config s := by
  apply run.invariant (Bounded config)
  · rintro _ rfl
    exact {
      begun := by rintro _ ⟨⟩
      counted := by rintro ⟨⟩
      bounded := fun _ => Nat.zero_le _
      failed := by rintro ⟨⟩ }
  · intro s l s' h _ hStep
    cases l with
    | acquire now payload => exact h.acquire hStep
    | exit call now how => exact h.exit hStep

end Bounded

/-- No admitted call is lost: its payload is built, and its retries are not cancelled. -/
def Answered (_ : State) : Label → Prop
  | .acquire _ payload => payload = true
  | .exit _ _ how => how ≠ .cancelled

instance (s : State) (l : Label) : Decidable (Answered s l) := by
  cases l <;> unfold Answered <;> infer_instance

/-- What holds while no admitted call is lost: every permit of a half-open period is with a
call that is still out or has come back as a success, and every call that is over has
reported once. -/
structure Settled (config : CircuitBreakerConfig) (s : State) : Prop where
  settled : s.breaker.state = .half_open → s.breaker.half_open_count ≤
    s.calls.countP (Call.outstanding_in s.period) + s.breaker.success_count
  below : s.breaker.state = .half_open → s.breaker.success_count < config.success_threshold
  reported : ∀ c ∈ s.calls, c.reports = if c.forwarding then 0 else 1

namespace Settled

variable {config : CircuitBreakerConfig} {s s' : State}

theorem reported_append (h : Settled config s) (period : Option Nat) :
    ∀ c ∈ s.calls ++ [⟨period, true, 0⟩], c.reports = if c.forwarding then 0 else 1 := by
  intro c hMem
  rcases List.mem_append.mp hMem with hOld | hNew
  · exact h.reported c hOld
  · rw [List.mem_singleton.mp hNew]
    rfl

theorem acquire (h : Settled config s) (hThreshold : 1 ≤ config.success_threshold) {now : Time}
    (hStep : step config s (.acquire now true) = some s') : Settled config s' := by
  obtain ⟨-, rfl⟩ | ⟨-, hNone, rfl⟩ | ⟨-, hSome, rfl⟩ | ⟨hHalf, hFree, rfl⟩ | ⟨hClosed, rfl⟩ :=
    acquire_cases hStep
  · exact h
  · exact {
      settled := fun _ => Nat.zero_le _
      below := fun _ => hThreshold
      reported := h.reported }
  · constructor
    · intro _
      show 1 ≤ (s.calls ++ [_]).countP (Call.outstanding_in (s.period + 1)) + 0
      rw [List.countP_append]
      simp [Call.outstanding_in]
    · exact fun _ => hThreshold
    · exact h.reported_append (some (s.period + 1))
  · have hSettled := h.settled hHalf
    constructor
    · intro _
      show s.breaker.half_open_count + 1 ≤
        (s.calls ++ [_]).countP (Call.outstanding_in s.period) + s.breaker.success_count
      have hNew : [(⟨some s.period, true, 0⟩ : Call)].countP
          (Call.outstanding_in s.period) = 1 := by simp [Call.outstanding_in]
      rw [List.countP_append, hNew]
      omega
    · exact h.below
    · exact h.reported_append (some s.period)
  · constructor
    · intro hHalf
      cases hClosed.symm.trans hHalf
    · intro hHalf
      cases hClosed.symm.trans hHalf
    · exact h.reported_append none

/-- A success may come from a call of an earlier period; it counts towards the threshold all
the same, and no permit of this period comes free by it. -/
theorem exit (h : Settled config s) {call : Nat} {now : Time} {how : Exit}
    (hNotCancelled : how ≠ .cancelled)
    (hStep : step config s (.exit call now how) = some s') : Settled config s' := by
  obtain ⟨c, hAt, hForwarding, rfl⟩ := exit_cases hStep
  have hReports : how.reports = 1 := by
    cases how with
    | returned => rfl
    | raised => rfl
    | cancelled => exact (hNotCancelled rfl).elim
  have hNone : c.reports = 0 := by
    rw [h.reported c (List.mem_of_getElem? hAt), hForwarding]
    rfl
  constructor
  · intro hHalf
    obtain ⟨hBefore, hNoFailure, hCount⟩ := report_half_open hHalf
    have hSettled := h.settled hBefore
    show (how.report config now s.breaker).half_open_count ≤
      (s.calls.set call (c.finish how)).countP (Call.outstanding_in s.period) +
        (how.report config now s.breaker).success_count
    cases how with
    | raised => exact (hNoFailure rfl).elim
    | cancelled => exact (hNotCancelled rfl).elim
    | returned =>
        rw [hCount, (report_returned_half_open hHalf).1]
        cases hThis : Call.outstanding_in s.period c with
        | true =>
            have hDrop := countP_set_drop (c.finish .returned) hAt hThis rfl
            omega
        | false =>
            have hSame := countP_set_same (p := Call.outstanding_in s.period)
              (c.finish .returned) hAt hThis.symm
            omega
  · intro hHalf
    obtain ⟨hBefore, hNoFailure, -⟩ := report_half_open hHalf
    cases how with
    | raised => exact (hNoFailure rfl).elim
    | cancelled => exact (hNotCancelled rfl).elim
    | returned =>
        have hAfter : (Exit.returned.report config now s.breaker).state = .half_open := hHalf
        obtain ⟨hSuccess, hBelow⟩ := report_returned_half_open hAfter
        exact hSuccess.trans_lt hBelow
  · intro d hMem
    rcases List.mem_or_eq_of_mem_set hMem with hOld | rfl
    · exact h.reported d hOld
    · show c.reports + how.reports = 1
      rw [hNone, hReports]

theorem of_reach (hThreshold : 1 ≤ config.success_threshold)
    (run : (machine config).Reach Answered s) : Settled config s := by
  apply run.invariant (Settled config)
  · rintro _ rfl
    exact {
      settled := by rintro ⟨⟩
      below := by rintro ⟨⟩
      reported := by rintro _ ⟨⟩ }
  · intro s l s' h hGuard hStep
    cases l with
    | acquire now payload =>
        obtain rfl : payload = true := hGuard
        exact h.acquire hThreshold hStep
    | exit call now how => exact h.exit hGuard hStep

end Settled

/-- The breaker gives no permit at this time. -/
def Rejects (config : CircuitBreakerConfig) (s : State) (now : Time) : Prop :=
  (s.breaker.acquire config now).2 = false

/-- The protocol of the breaker in one state of a run: an open breaker admits nothing before
its time, every half-open period has admitted few enough calls, without an admitted call still
out nothing is rejected once the time is over, and no call that is over has reported anything
but one outcome. -/
structure Protocol (config : CircuitBreakerConfig) (s : State) : Prop where
  waits : s.breaker.state = .open → ∃ failure, s.failures.head? = some failure ∧
    ∀ now, now - failure < config.open_duration → Rejects config s now
  bounded : ∀ p, s.calls.countP (Call.admitted_in p) ≤ config.half_open_max
  recovers : (∀ c ∈ s.calls, c.forwarding = false) → ∀ now,
    (∀ failure ∈ s.failures.head?, config.open_duration ≤ now - failure) →
      ¬Rejects config s now
  reported : ∀ c ∈ s.calls, c.forwarding = false → c.reports = 1

section Protocol

variable {config : CircuitBreakerConfig} {s : State}

theorem Bounded.waits (h : Bounded config s) (hOpen : s.breaker.state = .open) :
    ∃ failure, s.failures.head? = some failure ∧
      ∀ now, now - failure < config.open_duration → Rejects config s now := by
  refine ⟨s.breaker.last_failure_time, h.failed hOpen, ?_⟩
  intro now hEarly
  have hWait : ¬config.open_duration ≤ now - s.breaker.last_failure_time :=
    Rat.not_le.mpr hEarly
  unfold Rejects CircuitBreaker.acquire
  rw [if_pos hOpen, if_neg hWait]

/-- With nothing out, all permits of the period have come back as successes, and these are
fewer than close the breaker, so a permit is left. -/
theorem Settled.recovers (h : Settled config s) (hBounded : Bounded config s)
    (hThreshold : 1 ≤ config.success_threshold)
    (hMax : config.success_threshold ≤ config.half_open_max)
    (hOver : ∀ c ∈ s.calls, c.forwarding = false) (now : Time)
    (hLate : ∀ failure ∈ s.failures.head?, config.open_duration ≤ now - failure) :
    ¬Rejects config s now := by
  unfold Rejects CircuitBreaker.acquire CircuitBreaker.take_permit
  cases hState : s.breaker.state with
  | closed => simp
  | «open» =>
      have hElapsed := hLate _ (hBounded.failed hState)
      have hSome : 0 < config.half_open_max := by omega
      simp [hElapsed, hSome.ne']
  | half_open =>
      have hNone : s.calls.countP (Call.outstanding_in s.period) = 0 := by
        rw [List.countP_eq_zero]
        intro c hMem
        simp [Call.outstanding_in, hOver c hMem]
      have hSettled := h.settled hState
      have hBelow := h.below hState
      have hFree : ¬config.half_open_max ≤ s.breaker.half_open_count := by omega
      simp [hFree]

/-- In every run in which no admitted call is lost, under any interleaving of the calls, the
breaker keeps its protocol. -/
theorem protocol_of_answered (hThreshold : 1 ≤ config.success_threshold)
    (hMax : config.success_threshold ≤ config.half_open_max)
    (run : (machine config).Reach Answered s) : Protocol config s := by
  have hBounded := Bounded.of_reach run
  have hSettled := Settled.of_reach hThreshold run
  constructor
  · exact hBounded.waits
  · exact hBounded.bounded
  · exact hSettled.recovers hBounded hThreshold hMax
  · intro c hMem hOver
    rw [hSettled.reported c hMem, hOver]
    rfl

end Protocol

/-- Fifty failures in a row open the breaker of a node; after ten seconds a call gets through
and succeeds. -/
def fiftyFailures : List Label :=
  (List.range 50).flatMap fun call => [.acquire 1 true, .exit call 1 .raised]

def recovery : List Label := fiftyFailures ++ [.acquire 11 true, .exit 50 12 .returned]

theorem protocol_of_answered_recovery : ∃ s, (machine {}).Reach Answered s ∧
    s.breaker.state = .half_open ∧ Protocol {} s := by
  have hRun : ((machine {}).replayUnder Answered {} recovery).map (·.breaker.state) =
      some .half_open := by decide +kernel
  obtain ⟨s, hReplay, hState⟩ := Option.map_eq_some_iff.mp hRun
  have run := Machine.System.reach_of_replayUnder (.start rfl) hReplay
  exact ⟨s, run, hState, protocol_of_answered (by decide) (by decide) run⟩

/-- The same with three probes instead of one, and all their clients go away. -/
def lostProbes : List Label :=
  fiftyFailures ++ [.acquire 11 true, .acquire 11 true, .acquire 11 true,
    .exit 50 12 .cancelled, .exit 51 12 .cancelled, .exit 52 12 .cancelled]

/-- With the configuration that every node gets, cancelled probes take the permits of the
half-open period with them: no call is out any more, and all calls are rejected for ever. -/
theorem lost_probes_reject_for_ever : ∃ s, (machine {}).Reachable s ∧
    (∀ c ∈ s.calls, c.forwarding = false) ∧ (∃ c ∈ s.calls, c.reports = 0) ∧
      (∀ now, Rejects {} s now ∧ (s.breaker.acquire {} now).1 = s.breaker) ∧
        ¬Protocol {} s := by
  have hRun : ((machine {}).replay {} lostProbes).map (fun s =>
      (s.breaker, decide (∀ c ∈ s.calls, c.forwarding = false),
        decide (∃ c ∈ s.calls, c.reports = 0))) =
      some (⟨.half_open, 50, 0, 1, 3⟩, true, true) := by decide +kernel
  obtain ⟨s, hReplay, hEnd⟩ := Option.map_eq_some_iff.mp hRun
  obtain ⟨hBreaker, hEnd⟩ := Prod.mk.inj hEnd
  obtain ⟨hOver, hSilent⟩ := Prod.mk.inj hEnd
  have hRejects : ∀ now, Rejects {} s now := by
    intro now
    simp [Rejects, hBreaker, CircuitBreaker.acquire, CircuitBreaker.take_permit]
  refine ⟨s, Machine.System.reachable_of_replay (.start rfl) hReplay, of_decide_eq_true hOver,
    of_decide_eq_true hSilent, fun now => ⟨hRejects now, ?_⟩, ?_⟩
  · simp [hBreaker, CircuitBreaker.acquire, CircuitBreaker.take_permit]
  · intro h
    obtain ⟨c, hMem, hNone⟩ := of_decide_eq_true hSilent
    have hOne := h.reported c hMem (of_decide_eq_true hOver c hMem)
    omega

end Cluster.Breaker
