import Mathlib.Data.Rat.Defs
import Mathlib.Order.Lattice
import SwarmLoRA.Cluster.Registry

namespace Cluster

/-- What the retries tell apart. -/
inductive ErrorCategory where
  | transient
  | permanent
  | unknown
  deriving DecidableEq, Repr

/-- How a status of an answer counts. -/
def classify_http_status (status : Int) : ErrorCategory :=
  if status ∈ [408, 429, 500, 502, 503, 504] then .transient
  else if 400 ≤ status ∧ status < 500 then .permanent
  else .unknown

/-- What the classification tells apart. `with_status` are the exceptions that have an
attribute `status`; the one of an `HTTPException` is called `status_code`. -/
inductive ErrorKind where
  | timeout_error
  | client_connector_error
  | server_disconnected_error
  | connection_refused_error
  | os_error (errno : Option Int)
  | with_status (status : Int)
  | http_exception (status_code : Int)
  | exception
  deriving DecidableEq, Repr

/-- An exception, as far as its classification looks at it. -/
structure PyError where
  kind : ErrorKind
  message : String
  deriving DecidableEq, Repr

/-- How an exception counts. -/
def classify_error (exc : PyError) : ErrorCategory :=
  match exc.kind with
  | .timeout_error => .transient
  | .client_connector_error | .server_disconnected_error => .transient
  | .connection_refused_error => .transient
  | .os_error errno => if errno = some 111 ∨ errno = some 113 then .transient else .unknown
  | .with_status status => classify_http_status status
  | .http_exception _ => .unknown
  | .exception => .unknown

/-- How often is tried, and how long is waited. -/
structure RetryConfig where
  max_attempts : Nat := 3
  base_delay : ℚ := 1 / 2
  max_delay : ℚ := 30
  exponential_base : ℚ := 2
  jitter : ℚ := 1 / 10

/-- `random` is the random number that the call draws. -/
def RetryConfig.calculate_delay (config : RetryConfig) (random : ℚ) (attempt : Nat) : ℚ :=
  let delay := min (config.base_delay * config.exponential_base ^ attempt) config.max_delay
  let jitter := delay * config.jitter * random
  delay + jitter

/-- What one call of `execute` does: how often it calls its function, how long it sleeps in
between, and what comes of it. The error is `none` where `None` is raised, which happens
without a single attempt. -/
structure Execution (ε α : Type) where
  attempts : Nat
  delays : List ℚ
  result : Except (Option ε) α

section Execute

variable {ε α : Type} (config : RetryConfig) (classifier : ε → ErrorCategory)
  (random : Nat → ℚ) (func : Nat → Except ε α)

/-- The loop of `execute` with so many rounds left. `func` is told which attempt it is,
since what it does depends on when it is called. -/
def RetryConfig.execute_from : Nat → Nat → Option ε → Execution ε α
  | 0, attempt, last_error =>
      { attempts := attempt, delays := [], result := .error last_error }
  | rounds + 1, attempt, _ =>
      match func attempt with
      | .ok value => { attempts := attempt + 1, delays := [], result := .ok value }
      | .error e =>
          if classifier e = .permanent then
            { attempts := attempt + 1, delays := [], result := .error (some e) }
          else
            let rest := RetryConfig.execute_from rounds (attempt + 1) (some e)
            if attempt < config.max_attempts - 1 then
              { rest with delays := config.calculate_delay (random attempt) attempt :: rest.delays }
            else rest

/-- `execute`, from the first attempt on. -/
def RetryConfig.execute : Execution ε α :=
  config.execute_from classifier random func config.max_attempts 0 none

/-- The attempt goes wrong, and not for good. -/
def Retried (attempt : Nat) : Prop :=
  ∃ e, func attempt = .error e ∧ classifier e ≠ .permanent

namespace RetryConfig

section Rounds

variable {config classifier random func} {rounds attempt : Nat} {last_error : Option ε} {e : ε}

/-- A success ends the attempts. -/
theorem execute_from_ok {value : α} (h : func attempt = .ok value) :
    config.execute_from classifier random func (rounds + 1) attempt last_error =
      { attempts := attempt + 1, delays := [], result := .ok value } := by
  simp only [execute_from, h]

/-- So does a permanent error. -/
theorem execute_from_permanent (h : func attempt = .error e)
    (hPermanent : classifier e = .permanent) :
    config.execute_from classifier random func (rounds + 1) attempt last_error =
      { attempts := attempt + 1, delays := [], result := .error (some e) } := by
  simp only [execute_from, h, hPermanent, if_true]

/-- After any other error there is another attempt, if one is left. -/
theorem attempts_execute_from_retried (h : func attempt = .error e)
    (hRetried : classifier e ≠ .permanent) :
    (config.execute_from classifier random func (rounds + 1) attempt last_error).attempts =
      (config.execute_from classifier random func rounds (attempt + 1) (some e)).attempts := by
  simp only [execute_from, h, hRetried, if_false]
  split <;> rfl

/-- The last attempt decides. -/
theorem result_execute_from_retried (h : func attempt = .error e)
    (hRetried : classifier e ≠ .permanent) :
    (config.execute_from classifier random func (rounds + 1) attempt last_error).result =
      (config.execute_from classifier random func rounds (attempt + 1) (some e)).result := by
  simp only [execute_from, h, hRetried, if_false]
  split <;> rfl

end Rounds

/-- There are never more attempts than rounds. -/
theorem attempts_execute_from_le (rounds attempt : Nat) (last_error : Option ε) :
    (config.execute_from classifier random func rounds attempt last_error).attempts ≤
      attempt + rounds := by
  induction rounds generalizing attempt last_error with
  | zero => exact le_rfl
  | succ rounds ih =>
      cases h : func attempt with
      | ok value =>
          rw [execute_from_ok h]
          show attempt + 1 ≤ attempt + (rounds + 1)
          omega
      | error e =>
          by_cases hPermanent : classifier e = .permanent
          · rw [execute_from_permanent h hPermanent]
            show attempt + 1 ≤ attempt + (rounds + 1)
            omega
          · rw [attempts_execute_from_retried h hPermanent]
            have hRest := ih (attempt + 1) (some e)
            omega

/-- There is at least one. -/
theorem lt_attempts_execute_from (rounds attempt : Nat) (last_error : Option ε) :
    attempt < (config.execute_from classifier random func (rounds + 1) attempt
      last_error).attempts := by
  induction rounds generalizing attempt last_error with
  | zero =>
      cases h : func attempt with
      | ok value =>
          rw [execute_from_ok h]
          exact Nat.lt_succ_self attempt
      | error e =>
          by_cases hPermanent : classifier e = .permanent
          · rw [execute_from_permanent h hPermanent]
            exact Nat.lt_succ_self attempt
          · rw [attempts_execute_from_retried h hPermanent]
            exact Nat.lt_succ_self attempt
  | succ rounds ih =>
      cases h : func attempt with
      | ok value =>
          rw [execute_from_ok h]
          exact Nat.lt_succ_self attempt
      | error e =>
          by_cases hPermanent : classifier e = .permanent
          · rw [execute_from_permanent h hPermanent]
            exact Nat.lt_succ_self attempt
          · rw [attempts_execute_from_retried h hPermanent]
            have hRest := ih (attempt + 1) (some e)
            omega

variable {func}

/-- Attempts go on until the first success. -/
theorem execute_from_first_ok (later rounds attempt : Nat) (last_error : Option ε) {value : α}
    (hLater : later < rounds) (hBefore : ∀ j < later, Retried classifier func (attempt + j))
    (hOk : func (attempt + later) = .ok value) :
    (config.execute_from classifier random func rounds attempt last_error).attempts =
        attempt + later + 1 ∧
      (config.execute_from classifier random func rounds attempt last_error).result =
        .ok value := by
  induction later generalizing rounds attempt last_error with
  | zero =>
      cases rounds with
      | zero => cases hLater
      | succ rounds =>
          rw [Nat.add_zero] at hOk
          rw [execute_from_ok hOk]
          exact ⟨rfl, rfl⟩
  | succ later ih =>
      cases rounds with
      | zero => cases hLater
      | succ rounds =>
          obtain ⟨e, hError, hRetried⟩ := hBefore 0 (Nat.succ_pos later)
          rw [Nat.add_zero] at hError
          have hShift : ∀ j, attempt + (j + 1) = attempt + 1 + j := fun j => by omega
          rw [attempts_execute_from_retried hError hRetried,
            result_execute_from_retried hError hRetried, hShift later]
          apply ih rounds (attempt + 1) (some e) (Nat.lt_of_succ_lt_succ hLater)
          · intro j hj
            rw [← hShift j]
            exact hBefore (j + 1) (Nat.succ_lt_succ hj)
          · rw [← hShift later]
            exact hOk

/-- There are at most `max_attempts` of them. -/
theorem attempts_execute_le :
    (config.execute classifier random func).attempts ≤ config.max_attempts := by
  have h := config.attempts_execute_from_le classifier random func config.max_attempts 0 none
  rwa [Nat.zero_add] at h

/-- The first success is the result. -/
theorem execute_first_ok {later : Nat} {value : α} (hLater : later < config.max_attempts)
    (hBefore : ∀ j < later, Retried classifier func j) (hOk : func later = .ok value) :
    (config.execute classifier random func).attempts = later + 1 ∧
      (config.execute classifier random func).result = .ok value := by
  have h := config.execute_from_first_ok classifier random later config.max_attempts 0 none
    hLater (fun j hj => (Nat.zero_add j).symm ▸ hBefore j hj) ((Nat.zero_add later).symm ▸ hOk)
  rwa [Nat.zero_add] at h

/-- What goes wrong once and not for good is the only attempt just when no second one is
allowed. -/
theorem execute_once_iff (h : Retried classifier func 0) :
    (config.execute classifier random func).attempts = 1 ↔ config.max_attempts = 1 := by
  obtain ⟨e, hError, hRetried⟩ := h
  unfold execute
  cases config.max_attempts with
  | zero => exact ⟨fun h => (Nat.zero_ne_one h).elim, fun h => (Nat.zero_ne_one h).elim⟩
  | succ rounds =>
      rw [attempts_execute_from_retried hError hRetried]
      cases rounds with
      | zero => exact ⟨fun _ => rfl, fun _ => rfl⟩
      | succ rounds =>
          have hMore := config.lt_attempts_execute_from classifier random func rounds (0 + 1)
            (some e)
          omega

/-- With one attempt its error is the result. -/
theorem result_execute_once (h : Retried classifier func 0) (hOne : config.max_attempts = 1) :
    ∃ e, (config.execute classifier random func).result = .error (some e) := by
  obtain ⟨e, hError, hRetried⟩ := h
  refine ⟨e, ?_⟩
  unfold execute
  rw [hOne, result_execute_from_retried hError hRetried]
  rfl

end RetryConfig

end Execute

/-- The state of a circuit. -/
inductive CircuitState where
  | closed
  | open
  | half_open
  deriving DecidableEq, Repr

/-- When a circuit opens, and for how long. -/
structure CircuitBreakerConfig where
  failure_threshold : Nat := 50
  success_threshold : Nat := 2
  open_duration : Time := 10
  half_open_max : Nat := 3

/-- The breaker of a node, with its count of failures in a row. -/
structure CircuitBreaker where
  state : CircuitState := .closed
  failure_count : Nat := 0
  success_count : Nat := 0
  last_failure_time : Time := 0
  half_open_count : Nat := 0
  deriving DecidableEq

namespace CircuitBreaker

variable (config : CircuitBreakerConfig) (now : Time) (b : CircuitBreaker)

/-- The second half of `acquire`, for a breaker that is not open. -/
def take_permit : CircuitBreaker × Bool :=
  if b.state = .half_open then
    if config.half_open_max ≤ b.half_open_count then (b, false)
    else ({ b with half_open_count := b.half_open_count + 1 }, true)
  else (b, true)

/-- An open circuit is tried again when its time is over, by a few calls at once. -/
def acquire : CircuitBreaker × Bool :=
  if b.state = .open then
    if config.open_duration ≤ now - b.last_failure_time then
      { b with state := .half_open, half_open_count := 0, success_count := 0 }.take_permit config
    else (b, false)
  else b.take_permit config

/-- A call has succeeded. -/
def record_success : CircuitBreaker :=
  if b.state = .half_open then
    if config.success_threshold ≤ b.success_count + 1 then
      { b with success_count := b.success_count + 1, state := .closed, failure_count := 0 }
    else { b with success_count := b.success_count + 1 }
  else { b with failure_count := 0 }

/-- A call has failed. -/
def record_failure : CircuitBreaker :=
  let b := { b with failure_count := b.failure_count + 1, last_failure_time := now }
  if b.state = .half_open then { b with state := .open }
  else if config.failure_threshold ≤ b.failure_count then { b with state := .open }
  else b

end CircuitBreaker

end Cluster
