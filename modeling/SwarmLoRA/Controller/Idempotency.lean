import Mathlib.Algebra.Group.Nat.Defs
import Mathlib.Data.List.AList
import Mathlib.Logic.Function.Basic
import SwarmLoRA.Machine.System

/-! The idempotency cache of the two controllers. A request looks its key up when it arrives and
stores its result when it is through, and between the two it waits for executions upstream,
which the global controller may start more than once for one request. -/
namespace Controller.Idempotency

open Machine

/-- Requests are numbered as they arrive. -/
abbrev RequestId := Nat

/-- An execution of a request upstream. It stands for the result that it returns. -/
abbrev ExecutionId := Nat

/-- What `_handle_inference` reads of the configuration of the cluster. -/
structure ClusterConfig where
  max_queue_size : Nat := 1000
  retry_max_attempts : Nat := 3
  forward_max_attempts : Nat := 2

/-- The two handlers that use a cache, one of a local and one of the global controller. -/
inductive Server where
  | openai_completions
  | handle_inference (cfg : ClusterConfig)

/-- The place of a request in its handler: before its first wait, in one of the attempts of
the global controller, in `route_request` of a local one, or at the end. -/
inductive Pc where
  | arrived
  | get_node_for_request (attempt : Nat)
  | forwarding (attempt post : Nat) (execution : ExecutionId)
  | sleeping (attempt post : Nat)
  | route_request (execution : ExecutionId)
  | returned (result : ExecutionId) (cached : Bool)
  | failed
  deriving DecidableEq

/-- The execution whose answer the request waits for. -/
def Pc.execution : Pc → Option ExecutionId
  | .forwarding _ _ e | .route_request e => some e
  | _ => none

/-- The request is between its look-up and the storing of its result. -/
def Pc.inProgress : Pc → Bool
  | .get_node_for_request _ | .forwarding _ _ _ | .sleeping _ _ | .route_request _ => true
  | .arrived | .returned _ _ | .failed => false

/-- What has become of an execution upstream. -/
inductive Status where
  | running
  | succeeded
  | failed
  deriving DecidableEq

/-- A request upstream, with the key that it was made for. -/
structure Execution where
  idem_key : Option String := none
  status : Status := .failed

/-- A request of a client, which may have brought a key. -/
structure Request where
  idem_key : Option String := none
  pc : Pc := .failed

/-- In microseconds, as the clock. -/
def idempotency_ttl : Nat := 3600 * 10 ^ 6

/-- What a controller keeps, with the executions upstream that it has started. An execution goes on
when its request is given up, which the controller does not see. -/
structure State where
  idempotency_cache : AList fun _ : String => Nat × ExecutionId
  now : Nat
  pending_requests : Nat
  requests : RequestId → Request
  nextRequest : RequestId
  executions : ExecutionId → Execution
  nextExecution : ExecutionId

namespace State

/-- The request is at this point. -/
def setPc (s : State) (r : RequestId) (pc : Pc) : State :=
  { s with requests := Function.update s.requests r { s.requests r with pc } }

/-- The result that is stored for the key, unless it is too old. -/
def check_idempotency (s : State) (key : String) : Option ExecutionId :=
  match s.idempotency_cache.lookup key with
  | some (ts, result) => if s.now - ts < idempotency_ttl then some result else none
  | none => none

/-- The result is stored under the key, with the time. -/
def cache_idempotency (s : State) (key : String) (result : ExecutionId) : State :=
  { s with idempotency_cache := s.idempotency_cache.insert key (s.now, result) }

/-- Only a key that is true in Python is looked up. -/
def lookup (s : State) : Option String → Option ExecutionId
  | some key => if key = "" then none else s.check_idempotency key
  | none => none

/-- A key that is false in Python is not used. -/
def store (s : State) (result : ExecutionId) : Option String → State
  | some key => if key = "" then s else s.cache_idempotency key result
  | none => s

/-- The request is taken in. -/
def accept (s : State) (idem_key : Option String) : State :=
  { s with
    requests := Function.update s.requests s.nextRequest { idem_key, pc := .arrived }
    nextRequest := s.nextRequest + 1 }

/-- An execution upstream begins for the request, which waits for it at `pc`. -/
def start (s : State) (r : RequestId) (pc : Pc) : State :=
  { s.setPc r pc with
    executions := Function.update s.executions s.nextExecution
      { idem_key := (s.requests r).idem_key, status := .running }
    nextExecution := s.nextExecution + 1 }

/-- The execution has succeeded: its result is cached and returned. -/
def succeed (s : State) (r : RequestId) (e : ExecutionId) : State :=
  (s.store e (s.requests r).idem_key).setPc r (.returned e false)

/-- The handler of the global controller is left, by its `finally`. -/
def leave (s : State) : State := { s with pending_requests := s.pending_requests - 1 }

/-- The next attempt, if one is left, looks for a node. -/
def attempt (cfg : ClusterConfig) (s : State) (r : RequestId) (n : Nat) : State :=
  if n < cfg.forward_max_attempts then s.setPc r (.get_node_for_request n)
  else (s.setPc r .failed).leave

/-- `_forward_to_node` has raised: the first attempt is repeated with another node. -/
def forward_failed (cfg : ClusterConfig) (s : State) (r : RequestId) (n : Nat) : State :=
  if n = 0 then s.attempt cfg r 1 else (s.setPc r .failed).leave

/-- One post of `RetryExecutor.execute`, if there are any. -/
def post (cfg : ClusterConfig) (s : State) (r : RequestId) (n j : Nat) : State :=
  if j < cfg.retry_max_attempts then s.start r (.forwarding n j s.nextExecution)
  else s.forward_failed cfg r n

/-- The post has raised, by an error that is not to be retried or by another one. -/
def post_failed (cfg : ClusterConfig) (s : State) (r : RequestId) (n j : Nat) (permanent : Bool) :
    State :=
  if permanent = false ∧ j + 1 < cfg.retry_max_attempts then s.setPc r (.sleeping n (j + 1))
  else s.forward_failed cfg r n

/-- A request that is not answered from the cache, up to its first wait. -/
def execute (server : Server) (s : State) (r : RequestId) : State :=
  match server with
  | .openai_completions => s.start r (.route_request s.nextExecution)
  | .handle_inference cfg =>
      if cfg.max_queue_size ≤ s.pending_requests then s.setPc r .failed
      else { s with pending_requests := s.pending_requests + 1 }.attempt cfg r 0

/-- A handler from its beginning to its first wait. -/
def handle (server : Server) (s : State) (idem_key : Option String) : State :=
  match s.lookup idem_key with
  | some result => (s.accept idem_key).setPc s.nextRequest (.returned result true)
  | none => (s.accept idem_key).execute server s.nextRequest

/-- The execution ends. -/
def finish (s : State) (e : ExecutionId) (status : Status) : State :=
  { s with executions := Function.update s.executions e { s.executions e with status } }

/-- What is too old goes. -/
def cleanup (s : State) : State :=
  let expired := s.idempotency_cache.entries.filter fun entry => idempotency_ttl < s.now - entry.2.1
  { s with
    idempotency_cache := expired.foldl (fun cache entry => cache.erase entry.1) s.idempotency_cache }

end State

open Idempotency.State

/-- Requests arrive and go on, executions upstream end, time passes and the cache is cleaned up. -/
inductive Label where
  | request (idem_key : Option String)
  /-- The wait for a node ends, with one or without, and its circuit breaker lets the request
  pass or not. -/
  | node (r : RequestId) (found acquired : Bool)
  /-- The execution has ended, and the request learns how. -/
  | answer (r : RequestId)
  /-- The request gives the call up, by a timeout or a lost connection. -/
  | lost (r : RequestId) (permanent : Bool)
  | wake (r : RequestId)
  | finish (e : ExecutionId) (ok : Bool)
  | tick (d : Nat)
  | cleanup

/-- A request goes on where it stands; what it meets there is in the label. -/
def step (server : Server) (s : State) : Label → Option State
  | .request idem_key => some (s.handle server idem_key)
  | .node r found acquired =>
      match server, (s.requests r).pc with
      | .handle_inference cfg, .get_node_for_request n =>
          if !found then some (s.setPc r .failed).leave
          else if !acquired then some (s.forward_failed cfg r n)
          else some (s.post cfg r n 0)
      | _, _ => none
  | .answer r =>
      match server, (s.requests r).pc with
      | .openai_completions, .route_request e =>
          match (s.executions e).status with
          | .running => none
          | .succeeded => some (s.succeed r e)
          | .failed => some (s.setPc r .failed)
      | .handle_inference cfg, .forwarding n j e =>
          match (s.executions e).status with
          | .running => none
          | .succeeded => some (s.succeed r e).leave
          | .failed => some (s.post_failed cfg r n j false)
      | _, _ => none
  | .lost r permanent =>
      match server, (s.requests r).pc with
      | .openai_completions, .route_request _ => some (s.setPc r .failed)
      | .handle_inference cfg, .forwarding n j _ => some (s.post_failed cfg r n j permanent)
      | _, _ => none
  | .wake r =>
      match server, (s.requests r).pc with
      | .handle_inference cfg, .sleeping n j => some (s.post cfg r n j)
      | _, _ => none
  | .finish e ok =>
      if e < s.nextExecution ∧ (s.executions e).status = .running then
        some (s.finish e (if ok then .succeeded else .failed))
      else none
  | .tick d => some { s with now := s.now + d }
  | .cleanup => some s.cleanup

/-- Nothing has been taken in and nothing is stored. -/
structure Initial (s : State) : Prop where
  idempotency_cache : s.idempotency_cache = ∅
  requests : ∀ r, s.requests r = {}
  nextRequest : s.nextRequest = 0
  nextExecution : s.nextExecution = 0

/-- Starts empty, and then takes steps in any order. -/
def machine (server : Server) : System State Label := ⟨Initial, step server⟩

/-- For a key that is not empty: at most one execution upstream succeeds, none is started while
another one runs, and a request that succeeds returns the result of the one that did. -/
structure Idempotent (s : State) : Prop where
  once : ∀ key ≠ "", ∀ e e', e < s.nextExecution → e' < s.nextExecution →
    (s.executions e).idem_key = some key → (s.executions e').idem_key = some key →
    (s.executions e).status = .succeeded → (s.executions e').status = .succeeded → e = e'
  alone : ∀ key ≠ "", ∀ e e', e < s.nextExecution → e' < s.nextExecution →
    (s.executions e).idem_key = some key → (s.executions e').idem_key = some key →
    (s.executions e).status = .running → (s.executions e').status = .running → e = e'
  result : ∀ key ≠ "", ∀ r < s.nextRequest, (s.requests r).idem_key = some key → ∀ e cached,
    (s.requests r).pc = .returned e cached → e < s.nextExecution ∧
      (s.executions e).idem_key = some key ∧ (s.executions e).status = .succeeded

/-- A request with a key that is not empty is looked up in vain only while no other one with
the key is being handled, a call is given up only when the execution has failed, and the clock
stays within the lifetime of what is cached. -/
def Sequential (s : State) : Label → Prop
  | .request idem_key => ∀ key ∈ idem_key, key ≠ "" → s.lookup idem_key = none →
      ∀ r < s.nextRequest, (s.requests r).idem_key = some key → (s.requests r).pc.inProgress = false
  | .lost r _ => ∀ e ∈ (s.requests r).pc.execution, (s.executions e).status = .failed
  | .tick d => ∀ entry ∈ s.idempotency_cache.entries, s.now + d - entry.2.1 < idempotency_ttl
  | _ => True

variable {server : Server} {s s' : State} {l : Label} {r : RequestId} {e : ExecutionId} {pc : Pc}

/-- What is so of the requests, the executions and the cache in every guarded run: a key has one
request in progress at most, and every execution of it that has not failed is that of this request
or the one in the cache. -/
structure Invariant (s : State) : Prop where
  unborn : ∀ r, s.nextRequest ≤ r → (s.requests r).pc = .failed
  current : ∀ r e, (s.requests r).pc.execution = some e →
    e < s.nextExecution ∧ (s.executions e).idem_key = (s.requests r).idem_key
  alone : ∀ key ≠ "", ∀ r r', (s.requests r).idem_key = some key →
    (s.requests r').idem_key = some key → (s.requests r).pc.inProgress = true →
    (s.requests r').pc.inProgress = true → r = r'
  accounted : ∀ key ≠ "", ∀ e < s.nextExecution, (s.executions e).idem_key = some key →
    (s.executions e).status ≠ .failed → (∃ r, (s.requests r).pc.execution = some e) ∨
      (s.executions e).status = .succeeded ∧ ∃ ts, s.idempotency_cache.lookup key = some (ts, e)
  cached : ∀ key ts e, s.idempotency_cache.lookup key = some (ts, e) → key ≠ "" ∧ e < s.nextExecution ∧
    (s.executions e).idem_key = some key ∧ (s.executions e).status = .succeeded ∧
    s.now - ts < idempotency_ttl ∧
    ∀ r, (s.requests r).idem_key = some key → (s.requests r).pc.inProgress = false
  returned : ∀ r e cached, (s.requests r).pc = .returned e cached → e < s.nextExecution ∧
    (s.executions e).idem_key = (s.requests r).idem_key ∧ (s.executions e).status = .succeeded

/-- Nobody else is at work on the key of the request, and nothing is cached for it. -/
def Clear (s : State) (r : RequestId) : Prop :=
  ∀ key ≠ "", (s.requests r).idem_key = some key → s.idempotency_cache.lookup key = none ∧
    ∀ r', r' ≠ r → (s.requests r').idem_key = some key → (s.requests r').pc.inProgress = false

/-- Whoever has an execution is in progress. -/
theorem inProgress_of_execution (hExecution : pc.execution = some e) : pc.inProgress = true := by
  cases pc <;> simp_all [Pc.execution, Pc.inProgress]

/-- A request in progress has no result in the cache under its key. -/
theorem Invariant.clear (h : Invariant s) (hProgress : (s.requests r).pc.inProgress = true) :
    Clear s r := by
  intro key hKey hRequest
  refine ⟨?_, fun r' hOther hSame => ?_⟩
  · cases hCached : s.idempotency_cache.lookup key with
    | none => rfl
    | some entry =>
        have hNot := (h.cached key entry.1 entry.2 hCached).2.2.2.2.2 r hRequest
        rw [hProgress] at hNot
        exact absurd hNot (by simp)
  · apply Bool.eq_false_iff.mpr
    exact fun hBoth => hOther (h.alone key hKey r' r hSame hRequest hBoth hProgress)

/-- As long as a request is at work on a key, no execution for the key can count that is not its
own. -/
theorem Invariant.own (h : Invariant s) (hClear : Clear s r) {key : String} (hKey : key ≠ "")
    (hRequest : (s.requests r).idem_key = some key) (hMade : e < s.nextExecution)
    (hSame : (s.executions e).idem_key = some key) (hStatus : (s.executions e).status ≠ .failed) :
    (s.requests r).pc.execution = some e := by
  obtain ⟨hNone, hOthers⟩ := hClear key hKey hRequest
  rcases h.accounted key hKey e hMade hSame hStatus with ⟨r', hCurrent⟩ | ⟨-, ts, hCached⟩
  · by_cases hr : r' = r
    · exact hr ▸ hCurrent
    · have hIdle := hOthers r' hr ((h.current r' e hCurrent).2 ▸ hSame)
      rw [inProgress_of_execution hCurrent] at hIdle
      exact absurd hIdle (by simp)
  · rw [hNone] at hCached
    exact absurd hCached (by simp)

/-- Moving a request changes its point only. -/
theorem request_setPc (s : State) (r r' : RequestId) (pc : Pc) :
    ((s.setPc r pc).requests r').idem_key = (s.requests r').idem_key ∧
      ((s.setPc r pc).requests r').pc = if r' = r then pc else (s.requests r').pc := by
  simp only [setPc, Function.update_apply]
  split
  next hr => exact ⟨by rw [hr], rfl⟩
  next => exact ⟨rfl, rfl⟩

section Move

variable (h : Invariant s) (hClear : pc.inProgress = true → Clear s r)

include h

/-- Requests that have not arrived stay as they are. -/
theorem Invariant.unborn_setPc (hMade : r < s.nextRequest) (r' : RequestId)
    (hr' : s.nextRequest ≤ r') : ((s.setPc r pc).requests r').pc = .failed := by
  have hOther : r' ≠ r := by
    rintro rfl
    exact absurd hMade (Nat.not_lt.mpr hr')
  rw [(request_setPc s r r' pc).2, if_neg hOther]
  exact h.unborn r' hr'

include hClear

/-- Of the requests with one key no more than one is in progress. -/
theorem Invariant.alone_setPc {key : String} (hTrue : key ≠ "") {r₁ r₂ : RequestId}
    (hKey₁ : ((s.setPc r pc).requests r₁).idem_key = some key)
    (hKey₂ : ((s.setPc r pc).requests r₂).idem_key = some key)
    (hIn₁ : ((s.setPc r pc).requests r₁).pc.inProgress = true)
    (hIn₂ : ((s.setPc r pc).requests r₂).pc.inProgress = true) : r₁ = r₂ := by
  rw [(request_setPc s r _ pc).1] at hKey₁ hKey₂
  rw [(request_setPc s r _ pc).2] at hIn₁ hIn₂
  split at hIn₁ <;> split at hIn₂
  next hr₁ hr₂ => rw [hr₁, hr₂]
  next hr₁ hr₂ =>
    have hIdle := (hClear hIn₁ key hTrue (hr₁ ▸ hKey₁)).2 r₂ hr₂ hKey₂
    rw [hIn₂] at hIdle
    exact absurd hIdle (by simp)
  next hr₁ hr₂ =>
    have hIdle := (hClear hIn₂ key hTrue (hr₂ ▸ hKey₂)).2 r₁ hr₁ hKey₁
    rw [hIn₁] at hIdle
    exact absurd hIdle (by simp)
  next => exact h.alone key hTrue r₁ r₂ hKey₁ hKey₂ hIn₁ hIn₂

/-- With a stored result nobody with the key is in progress. -/
theorem Invariant.idle_setPc {key : String} {ts : Nat}
    (hCached : s.idempotency_cache.lookup key = some (ts, e)) {r' : RequestId}
    (hRequest : ((s.setPc r pc).requests r').idem_key = some key) :
    ((s.setPc r pc).requests r').pc.inProgress = false := by
  obtain ⟨hTrue, -, -, -, -, hIdle⟩ := h.cached key ts e hCached
  rw [(request_setPc s r r' pc).1] at hRequest
  rw [(request_setPc s r r' pc).2]
  split
  next hr =>
    apply Bool.eq_false_iff.mpr
    intro hIn
    have hNone := (hClear hIn key hTrue (hr ▸ hRequest)).1
    rw [hCached] at hNone
    exact absurd hNone (by simp)
  next => exact hIdle r' hRequest

end Move

/-- A request goes on and waits for no execution, having seen the one it waited for fail. -/
theorem Invariant.move (h : Invariant s) (hMade : r < s.nextRequest)
    (hOld : ∀ e, (s.requests r).pc.execution = some e → (s.executions e).status = .failed)
    (hNone : pc.execution = none) (hClear : pc.inProgress = true → Clear s r)
    (hReturned : ∀ e cached, pc = .returned e cached → e < s.nextExecution ∧
      (s.executions e).idem_key = (s.requests r).idem_key ∧ (s.executions e).status = .succeeded) :
    Invariant (s.setPc r pc) where
  unborn := h.unborn_setPc hMade
  current r' e hCurrent := by
    rw [(request_setPc s r r' pc).2] at hCurrent
    rw [(request_setPc s r r' pc).1]
    split at hCurrent
    next =>
      rw [hNone] at hCurrent
      exact absurd hCurrent (by simp)
    next => exact h.current r' e hCurrent
  alone key hTrue r₁ r₂ := h.alone_setPc hClear hTrue
  accounted key hTrue e hLt hSame hStatus := by
    rcases h.accounted key hTrue e hLt hSame hStatus with ⟨r', hCurrent⟩ | hCached
    · have hOther : r' ≠ r := by
        rintro rfl
        exact hStatus (hOld e hCurrent)
      refine .inl ⟨r', ?_⟩
      rw [(request_setPc s r r' pc).2, if_neg hOther]
      exact hCurrent
    · exact .inr hCached
  cached key ts e hCached := by
    obtain ⟨hTrue, hLt, hSame, hStatus, hFresh, -⟩ := h.cached key ts e hCached
    exact ⟨hTrue, hLt, hSame, hStatus, hFresh, fun r' => h.idle_setPc hClear hCached⟩
  returned r' e cached hDone := by
    rw [(request_setPc s r r' pc).2] at hDone
    rw [(request_setPc s r r' pc).1]
    split at hDone
    next hr => exact hr ▸ hReturned e cached hDone
    next => exact h.returned r' e cached hDone

/-- An execution begins for a request that nobody competes with. -/
theorem Invariant.start (h : Invariant s) (hMade : r < s.nextRequest)
    (hOld : ∀ e, (s.requests r).pc.execution = some e → (s.executions e).status = .failed)
    (hExecution : pc.execution = some s.nextExecution) (hClear : Clear s r) :
    Invariant (s.start r pc) := by
  have hSame : ∀ e < s.nextExecution, (s.start r pc).executions e = s.executions e :=
    fun e hLt => Function.update_of_ne (Nat.ne_of_lt hLt) _ _
  have hNew : (s.start r pc).executions s.nextExecution =
      { idem_key := (s.requests r).idem_key, status := .running } := Function.update_self _ _ _
  have hKey : ∀ r', ((s.start r pc).requests r').idem_key = (s.requests r').idem_key :=
    fun r' => (request_setPc s r r' pc).1
  have hPc : ∀ r', ((s.start r pc).requests r').pc = if r' = r then pc else (s.requests r').pc :=
    fun r' => (request_setPc s r r' pc).2
  refine ⟨h.unborn_setPc hMade, fun r' e hCurrent => ?_,
    fun key hTrue r₁ r₂ => h.alone_setPc (fun _ => hClear) hTrue,
    fun key hTrue e hLt hRequest hStatus => ?_, fun key ts e hCached => ?_,
    fun r' e cached hDone => ?_⟩
  · rw [hPc] at hCurrent
    rw [hKey]
    split at hCurrent
    next hr =>
      rw [hExecution] at hCurrent
      obtain rfl := Option.some.inj hCurrent
      rw [hNew, hr]
      exact ⟨Nat.lt_succ_self _, rfl⟩
    next =>
      obtain ⟨hLt, hRequest⟩ := h.current r' e hCurrent
      rw [hSame e hLt]
      exact ⟨Nat.lt_succ_of_lt hLt, hRequest⟩
  · rcases Nat.lt_or_eq_of_le (Nat.lt_succ_iff.mp hLt) with hLt | rfl
    · rw [hSame e hLt] at hRequest hStatus ⊢
      rcases h.accounted key hTrue e hLt hRequest hStatus with ⟨r', hCurrent⟩ | hCached
      · have hOther : r' ≠ r := by
          rintro rfl
          exact hStatus (hOld e hCurrent)
        refine .inl ⟨r', ?_⟩
        rw [hPc, if_neg hOther]
        exact hCurrent
      · exact .inr hCached
    · refine .inl ⟨r, ?_⟩
      rw [hPc, if_pos rfl]
      exact hExecution
  · obtain ⟨hTrue, hLt, hRequest, hStatus, hFresh, -⟩ := h.cached key ts e hCached
    rw [hSame e hLt]
    exact ⟨hTrue, Nat.lt_succ_of_lt hLt, hRequest, hStatus, hFresh,
      fun r' => h.idle_setPc (fun _ => hClear) hCached⟩
  · rw [hPc] at hDone
    rw [hKey]
    split at hDone
    next =>
      rw [hDone] at hExecution
      exact absurd hExecution (by simp [Pc.execution])
    next =>
      obtain ⟨hLt, hRequest, hStatus⟩ := h.returned r' e cached hDone
      rw [hSame e hLt]
      exact ⟨Nat.lt_succ_of_lt hLt, hRequest, hStatus⟩

/-- Storing concerns one key only, and no key that is false. -/
theorem idempotency_cache_store (s : State) (e : ExecutionId) (idem_key : Option String)
    (key : String) : (s.store e idem_key).idempotency_cache.lookup key =
      if idem_key = some key ∧ key ≠ "" then some (s.now, e) else s.idempotency_cache.lookup key := by
  unfold store
  split
  next other =>
    by_cases hOther : other = ""
    · rw [if_pos hOther, if_neg]
      rintro ⟨hSame, hKey⟩
      exact hKey (Option.some.inj hSame ▸ hOther)
    · rw [if_neg hOther]
      simp only [cache_idempotency, Option.some.injEq]
      by_cases hKey : key = other
      · rw [if_pos ⟨hKey.symm, hKey ▸ hOther⟩, hKey, AList.lookup_insert]
      · rw [if_neg (fun hBoth => hKey hBoth.1.symm), AList.lookup_insert_ne hKey]
  next => rw [if_neg (by simp)]

/-- Storing changes the cache only. -/
theorem store_frame (s : State) (e : ExecutionId) (idem_key : Option String) :
    (s.store e idem_key).requests = s.requests ∧ (s.store e idem_key).executions = s.executions ∧
      (s.store e idem_key).nextRequest = s.nextRequest ∧
      (s.store e idem_key).nextExecution = s.nextExecution ∧ (s.store e idem_key).now = s.now := by
  unfold store
  split
  next key => split <;> exact ⟨rfl, rfl, rfl, rfl, rfl⟩
  next => exact ⟨rfl, rfl, rfl, rfl, rfl⟩

/-- The execution that a request waits for has succeeded. -/
theorem Invariant.succeed (h : Invariant s) (hMade : r < s.nextRequest)
    (hCurrent : (s.requests r).pc.execution = some e)
    (hStatus : (s.executions e).status = .succeeded) : Invariant (s.succeed r e) := by
  obtain ⟨hRequests, hExecutions, hNextRequest, hNextExecution, hNow⟩ :=
    store_frame s e (s.requests r).idem_key
  obtain ⟨hLt, hOwn⟩ := h.current r e hCurrent
  have hClear := h.clear (inProgress_of_execution hCurrent)
  have hKey : ∀ r', ((s.succeed r e).requests r').idem_key = (s.requests r').idem_key :=
    fun r' => (request_setPc _ r r' _).1.trans (by rw [hRequests])
  have hPc : ∀ r', ((s.succeed r e).requests r').pc =
      if r' = r then .returned e false else (s.requests r').pc :=
    fun r' => (request_setPc _ r r' _).2.trans (by rw [hRequests])
  have hCache : ∀ key, (s.succeed r e).idempotency_cache.lookup key =
      if (s.requests r).idem_key = some key ∧ key ≠ "" then some (s.now, e)
      else s.idempotency_cache.lookup key := idempotency_cache_store s e (s.requests r).idem_key
  have hProgress : ∀ r', ((s.succeed r e).requests r').pc.inProgress = true →
      r' ≠ r ∧ (s.requests r').pc.inProgress = true := by
    intro r' hIn
    rw [hPc] at hIn
    split at hIn
    next => exact absurd hIn (by simp [Pc.inProgress])
    next hOther => exact ⟨hOther, hIn⟩
  have hExecution : ∀ e', (s.succeed r e).executions e' = s.executions e' :=
    fun e' => congrFun hExecutions e'
  have hNext : (s.succeed r e).nextExecution = s.nextExecution := hNextExecution
  have hClock : (s.succeed r e).now = s.now := hNow
  refine ⟨fun r' hr' => ?_, fun r' e' hHolds => ?_, fun key hTrue r₁ r₂ hKey₁ hKey₂ hIn₁ hIn₂ => ?_,
    fun key hTrue e' hLt' hSame hCounts => ?_, fun key ts e' hCached => ?_,
    fun r' e' cached hDone => ?_⟩
  · have hNot : r' ≠ r := by
      rintro rfl
      exact absurd hMade (Nat.not_lt.mpr (hNextRequest ▸ hr'))
    rw [hPc, if_neg hNot]
    exact h.unborn r' (hNextRequest ▸ hr')
  · rw [hPc] at hHolds
    rw [hKey, hExecution, hNext]
    split at hHolds
    next => exact absurd hHolds (by simp [Pc.execution])
    next => exact h.current r' e' hHolds
  · rw [hKey] at hKey₁ hKey₂
    exact h.alone key hTrue r₁ r₂ hKey₁ hKey₂ (hProgress r₁ hIn₁).2 (hProgress r₂ hIn₂).2
  · rw [hExecution] at hSame hCounts ⊢
    rw [hNext] at hLt'
    by_cases hMine : (s.requests r).idem_key = some key
    · have hHolds := h.own hClear hTrue hMine hLt' hSame hCounts
      obtain rfl := Option.some.inj (hCurrent.symm.trans hHolds)
      refine .inr ⟨hStatus, s.now, ?_⟩
      rw [hCache, if_pos ⟨hMine, hTrue⟩]
    · rcases h.accounted key hTrue e' hLt' hSame hCounts with ⟨r', hHolds⟩ | ⟨hDone, ts, hCached⟩
      · have hNot : r' ≠ r := by
          rintro rfl
          exact hMine ((h.current r' e' hHolds).2 ▸ hSame)
        refine .inl ⟨r', ?_⟩
        rw [hPc, if_neg hNot]
        exact hHolds
      · refine .inr ⟨hDone, ts, ?_⟩
        rw [hCache, if_neg (fun hBoth => hMine hBoth.1)]
        exact hCached
  · rw [hExecution, hNext, hClock]
    rw [hCache] at hCached
    have hIdle : ∀ r', (r' ≠ r → (s.requests r').pc.inProgress = false) →
        ((s.succeed r e).requests r').pc.inProgress = false := by
      intro r' hOther
      apply Bool.eq_false_iff.mpr
      intro hIn
      obtain ⟨hNot, hOld⟩ := hProgress r' hIn
      exact absurd hOld (by simp [hOther hNot])
    split at hCached
    next hMine =>
      obtain ⟨rfl, rfl⟩ := Prod.mk.inj (Option.some.inj hCached)
      refine ⟨hMine.2, hLt, hOwn.trans hMine.1, hStatus, ?_, fun r' hRequest => ?_⟩
      · rw [Nat.sub_self]
        decide
      · rw [hKey] at hRequest
        exact hIdle r' fun hNot => (hClear key hMine.2 hMine.1).2 r' hNot hRequest
    next =>
      obtain ⟨hTrue, hLt', hSame, hDone, hFresh, hOthers⟩ := h.cached key ts e' hCached
      refine ⟨hTrue, hLt', hSame, hDone, hFresh, fun r' hRequest => ?_⟩
      rw [hKey] at hRequest
      exact hIdle r' fun _ => hOthers r' hRequest
  · rw [hPc] at hDone
    rw [hKey, hExecution, hNext]
    split at hDone
    next hr =>
      obtain ⟨rfl, -⟩ := Pc.returned.inj hDone
      exact ⟨hLt, hr ▸ hOwn, hStatus⟩
    next => exact h.returned r' e' cached hDone

/-- A request that has no key, or one that nobody uses, is taken in. -/
theorem Invariant.accept (h : Invariant s) (idem_key : Option String) :
    Invariant (s.accept idem_key) := by
  have hNew : (s.accept idem_key).requests s.nextRequest = { idem_key, pc := .arrived } :=
    Function.update_self _ _ _
  have hSame : ∀ r, r ≠ s.nextRequest → (s.accept idem_key).requests r = s.requests r :=
    fun r hr => Function.update_of_ne hr _ _
  have hIdle : ∀ r, ((s.accept idem_key).requests r).pc.inProgress = true →
      r ≠ s.nextRequest ∧ (s.accept idem_key).requests r = s.requests r := by
    intro r hIn
    by_cases hr : r = s.nextRequest
    · rw [hr, hNew] at hIn
      exact absurd hIn (by simp [Pc.inProgress])
    · exact ⟨hr, hSame r hr⟩
  refine ⟨fun r hr => ?_, fun r e hCurrent => ?_, fun key hTrue r r' hKey hKey' hIn hIn' => ?_,
    fun key hTrue e hLt hKey hStatus => ?_, fun key ts e hCached => ?_, fun r e cached hDone => ?_⟩
  · rw [hSame r (Nat.ne_of_gt hr)]
    exact h.unborn r (Nat.le_of_succ_le hr)
  · obtain ⟨-, hOld⟩ := hIdle r (inProgress_of_execution hCurrent)
    rw [hOld] at hCurrent ⊢
    exact h.current r e hCurrent
  · rw [(hIdle r hIn).2] at hKey hIn
    rw [(hIdle r' hIn').2] at hKey' hIn'
    exact h.alone key hTrue r r' hKey hKey' hIn hIn'
  · rcases h.accounted key hTrue e hLt hKey hStatus with ⟨r, hCurrent⟩ | hCached
    · refine .inl ⟨r, ?_⟩
      rw [hSame r ?_]
      · exact hCurrent
      · rintro rfl
        rw [h.unborn _ (Nat.le_refl _)] at hCurrent
        exact absurd hCurrent (by simp [Pc.execution])
    · exact .inr hCached
  · obtain ⟨hTrue, hLt, hKey, hStatus, hFresh, hOthers⟩ := h.cached key ts e hCached
    refine ⟨hTrue, hLt, hKey, hStatus, hFresh, fun r hRequest => ?_⟩
    apply Bool.eq_false_iff.mpr
    intro hIn
    rw [(hIdle r hIn).2] at hRequest hIn
    exact absurd hIn (by simp [hOthers r hRequest])
  · by_cases hr : r = s.nextRequest
    · rw [hr, hNew] at hDone
      exact absurd hDone (by simp)
    · rw [hSame r hr] at hDone ⊢
      exact h.returned r e cached hDone

/-- An execution that runs may end. -/
theorem Invariant.finish (h : Invariant s) {status : Status}
    (hRunning : (s.executions e).status = .running) : Invariant (s.finish e status) := by
  have hKey : ∀ e', ((s.finish e status).executions e').idem_key = (s.executions e').idem_key := by
    intro e'
    simp only [State.finish, Function.update_apply]
    split
    next he => rw [he]
    next => rfl
  have hOther : ∀ e', (s.executions e').status ≠ .running →
      (s.finish e status).executions e' = s.executions e' := by
    intro e' hStatus
    refine Function.update_of_ne ?_ _ _
    rintro rfl
    exact hStatus hRunning
  refine ⟨h.unborn, fun r e' hCurrent => ?_, h.alone, fun key hTrue e' hLt hSame hStatus => ?_,
    fun key ts e' hCached => ?_, fun r e' cached hDone => ?_⟩
  · rw [hKey]
    exact h.current r e' hCurrent
  · rw [hKey] at hSame
    by_cases hOld : (s.executions e').status = .running
    · rcases h.accounted key hTrue e' hLt hSame (by simp [hOld]) with hHolds | ⟨hDone, -⟩
      · exact .inl hHolds
      · rw [hOld] at hDone
        exact absurd hDone (by simp)
    · rw [hOther e' hOld] at hStatus ⊢
      exact h.accounted key hTrue e' hLt hSame hStatus
  · obtain ⟨hTrue, hLt, hSame, hStatus, hFresh, hIdle⟩ := h.cached key ts e' hCached
    rw [hOther e' (by simp [hStatus])]
    exact ⟨hTrue, hLt, hSame, hStatus, hFresh, hIdle⟩
  · obtain ⟨hLt, hSame, hStatus⟩ := h.returned r e' cached hDone
    rw [hOther e' (by simp [hStatus])]
    exact ⟨hLt, hSame, hStatus⟩

/-- The count of the pending requests has no part in the invariant. -/
theorem Invariant.setPending (h : Invariant s) (n : Nat) :
    Invariant { s with pending_requests := n } :=
  ⟨h.unborn, h.current, h.alone, h.accounted, h.cached, h.returned⟩

/-- Nor has the end of a request. -/
theorem Invariant.leave (h : Invariant s) : Invariant s.leave :=
  h.setPending (s.pending_requests - 1)

/-- Everything that is stored is younger than the time to live. -/
theorem Invariant.fresh (h : Invariant s) {entry : Sigma fun _ : String => Nat × ExecutionId}
    (hEntry : entry ∈ s.idempotency_cache.entries) : s.now - entry.2.1 < idempotency_ttl :=
  (h.cached entry.1 entry.2.1 entry.2.2 (AList.mem_lookup_iff.mpr hEntry)).2.2.2.2.1

/-- So the clean-up finds nothing to take. -/
theorem Invariant.cleanup (h : Invariant s) : Invariant s.cleanup := by
  have hNone : s.idempotency_cache.entries.filter
      (fun entry => idempotency_ttl < s.now - entry.2.1) = [] := by
    apply List.filter_eq_nil_iff.mpr
    intro entry hEntry
    simpa using Nat.le_of_lt (h.fresh hEntry)
  rw [State.cleanup, hNone]
  exact h

/-- A request that its place in the code does not let wait for an execution. -/
theorem Invariant.attempt (h : Invariant s) {cfg : ClusterConfig} {n : Nat}
    (hMade : r < s.nextRequest)
    (hOld : ∀ e, (s.requests r).pc.execution = some e → (s.executions e).status = .failed)
    (hClear : Clear s r) : Invariant (s.attempt cfg r n) := by
  unfold State.attempt
  split
  next => exact h.move hMade hOld rfl (fun _ => hClear) (by simp)
  next => exact (h.move hMade hOld rfl (by simp [Pc.inProgress]) (by simp)).leave

/-- A forward has failed, and its execution with it. -/
theorem Invariant.forward_failed (h : Invariant s) {cfg : ClusterConfig} {n : Nat}
    (hMade : r < s.nextRequest)
    (hOld : ∀ e, (s.requests r).pc.execution = some e → (s.executions e).status = .failed)
    (hClear : Clear s r) : Invariant (s.forward_failed cfg r n) := by
  unfold State.forward_failed
  split
  next => exact h.attempt hMade hOld hClear
  next => exact (h.move hMade hOld rfl (by simp [Pc.inProgress]) (by simp)).leave

/-- The request is posted once more, after its last execution has failed. -/
theorem Invariant.post (h : Invariant s) {cfg : ClusterConfig} {n j : Nat}
    (hMade : r < s.nextRequest)
    (hOld : ∀ e, (s.requests r).pc.execution = some e → (s.executions e).status = .failed)
    (hClear : Clear s r) : Invariant (s.post cfg r n j) := by
  unfold State.post
  split
  next => exact h.start hMade hOld rfl hClear
  next => exact h.forward_failed hMade hOld hClear

/-- A post has failed, and its execution with it. -/
theorem Invariant.post_failed (h : Invariant s) {cfg : ClusterConfig} {n j : Nat}
    {permanent : Bool} (hMade : r < s.nextRequest)
    (hOld : ∀ e, (s.requests r).pc.execution = some e → (s.executions e).status = .failed)
    (hClear : Clear s r) : Invariant (s.post_failed cfg r n j permanent) := by
  unfold State.post_failed
  split
  next => exact h.move hMade hOld rfl (fun _ => hClear) (by simp)
  next => exact h.forward_failed hMade hOld hClear

/-- Only requests that have arrived get anywhere. -/
theorem Invariant.made (h : Invariant s) (hPc : (s.requests r).pc ≠ .failed) :
    r < s.nextRequest :=
  Nat.lt_of_not_le fun hLe => hPc (h.unborn r hLe)

/-- What is looked up is what an execution for the key has returned. -/
theorem Invariant.hit (h : Invariant s) {idem_key : Option String}
    (hLookup : s.lookup idem_key = some e) : e < s.nextExecution ∧
      (s.executions e).idem_key = idem_key ∧ (s.executions e).status = .succeeded := by
  unfold lookup check_idempotency at hLookup
  split at hLookup
  next key =>
    split at hLookup
    next => simp at hLookup
    next =>
      split at hLookup
      next ts result hCached =>
        split at hLookup
        next =>
          obtain rfl := Option.some.inj hLookup
          obtain ⟨-, hLt, hSame, hStatus, -⟩ := h.cached key ts result hCached
          exact ⟨hLt, hSame, hStatus⟩
        next => simp at hLookup
      next => simp at hLookup
  next => simp at hLookup

/-- A request that finds nothing in the cache is alone with its key. -/
theorem Invariant.clear_of_miss (h : Invariant s) {idem_key : Option String}
    (hGuard : Sequential s (.request idem_key)) (hMiss : s.lookup idem_key = none) :
    Clear (s.accept idem_key) s.nextRequest := by
  intro key hTrue hRequest
  have hSame : idem_key = some key := by simpa [State.accept] using hRequest
  subst hSame
  refine ⟨?_, fun r hOther hKey => ?_⟩
  · cases hCached : (s.accept (some key)).idempotency_cache.lookup key with
    | none => rfl
    | some entry =>
        have hEntry : s.idempotency_cache.lookup key = some (entry.1, entry.2) := hCached
        have hFresh := (h.cached key entry.1 entry.2 hEntry).2.2.2.2.1
        simp [lookup, check_idempotency, hTrue, hEntry, hFresh] at hMiss
  · have hOld : (s.accept (some key)).requests r = s.requests r := Function.update_of_ne hOther _ _
    rw [hOld] at hKey ⊢
    by_cases hMade : r < s.nextRequest
    · exact hGuard key rfl hTrue hMiss r hMade hKey
    · rw [h.unborn r (Nat.le_of_not_lt hMade)]
      rfl

/-- A request arrives when no other with its key is in progress. -/
theorem Invariant.handle (h : Invariant s) {idem_key : Option String}
    (hGuard : Sequential s (.request idem_key)) : Invariant (s.handle server idem_key) := by
  have hAccept := h.accept idem_key
  have hNew : (s.accept idem_key).requests s.nextRequest = { idem_key, pc := .arrived } :=
    Function.update_self _ _ _
  have hMade : s.nextRequest < (s.accept idem_key).nextRequest := Nat.lt_succ_self _
  have hOld : ∀ e, ((s.accept idem_key).requests s.nextRequest).pc.execution = some e →
      ((s.accept idem_key).executions e).status = .failed := by
    intro e hCurrent
    rw [hNew] at hCurrent
    exact absurd hCurrent (by simp [Pc.execution])
  unfold State.handle
  split
  next result hLookup =>
    refine hAccept.move hMade hOld rfl (by simp [Pc.inProgress]) fun e cached hReturned => ?_
    obtain ⟨rfl, -⟩ := Pc.returned.inj hReturned
    rw [hNew]
    exact h.hit hLookup
  next hMiss =>
    have hClear := h.clear_of_miss hGuard hMiss
    unfold execute
    split
    next => exact hAccept.start hMade hOld rfl hClear
    next cfg =>
      split
      next => exact hAccept.move hMade hOld rfl (by simp [Pc.inProgress]) (by simp)
      next => exact (hAccept.setPending _).attempt hMade hOld hClear

/-- Every sequential step keeps the invariant. -/
theorem Invariant.step (h : Invariant s) (hGuard : Sequential s l)
    (hStep : Idempotency.step server s l = some s') : Invariant s' := by
  cases l with
  | request idem_key =>
      obtain rfl := Option.some.inj hStep
      exact h.handle hGuard
  | node r found acquired =>
      simp only [Idempotency.step] at hStep
      split at hStep
      next cfg n hPc =>
        have hMade := h.made (r := r) (by simp [hPc])
        have hClear := h.clear (r := r) (by simp [hPc, Pc.inProgress])
        have hOld : ∀ e, (s.requests r).pc.execution = some e → (s.executions e).status = .failed := by
          simp [hPc, Pc.execution]
        split at hStep
        next =>
          obtain rfl := Option.some.inj hStep
          exact (h.move hMade hOld rfl (by simp [Pc.inProgress]) (by simp)).leave
        next =>
          split at hStep
          next =>
            obtain rfl := Option.some.inj hStep
            exact h.forward_failed hMade hOld hClear
          next =>
            obtain rfl := Option.some.inj hStep
            exact h.post hMade hOld hClear
      next => simp at hStep
  | answer r =>
      simp only [Idempotency.step] at hStep
      split at hStep
      next e hPc =>
        have hMade := h.made (r := r) (by simp [hPc])
        split at hStep
        next => simp at hStep
        next hStatus =>
          obtain rfl := Option.some.inj hStep
          exact h.succeed hMade (by simp [hPc, Pc.execution]) hStatus
        next hStatus =>
          obtain rfl := Option.some.inj hStep
          refine h.move hMade ?_ rfl (by simp [Pc.inProgress]) (by simp)
          simpa [hPc, Pc.execution] using hStatus
      next cfg n j e hPc =>
        have hMade := h.made (r := r) (by simp [hPc])
        have hClear := h.clear (r := r) (by simp [hPc, Pc.inProgress])
        split at hStep
        next => simp at hStep
        next hStatus =>
          obtain rfl := Option.some.inj hStep
          exact (h.succeed hMade (by simp [hPc, Pc.execution]) hStatus).leave
        next hStatus =>
          obtain rfl := Option.some.inj hStep
          refine h.post_failed hMade ?_ hClear
          simpa [hPc, Pc.execution] using hStatus
      next => simp at hStep
  | lost r permanent =>
      simp only [Idempotency.step] at hStep
      split at hStep
      next e hPc =>
        obtain rfl := Option.some.inj hStep
        exact h.move (h.made (by simp [hPc])) hGuard rfl (by simp [Pc.inProgress]) (by simp)
      next cfg n j e hPc =>
        obtain rfl := Option.some.inj hStep
        have hMade := h.made (r := r) (by simp [hPc])
        have hClear := h.clear (r := r) (by simp [hPc, Pc.inProgress])
        exact h.post_failed hMade hGuard hClear
      next => simp at hStep
  | wake r =>
      simp only [Idempotency.step] at hStep
      split at hStep
      next cfg n j hPc =>
        obtain rfl := Option.some.inj hStep
        have hMade := h.made (r := r) (by simp [hPc])
        have hClear := h.clear (r := r) (by simp [hPc, Pc.inProgress])
        exact h.post hMade (by simp [hPc, Pc.execution]) hClear
      next => simp at hStep
  | finish e ok =>
      simp only [Idempotency.step, Option.ite_none_right_eq_some, Option.some.injEq] at hStep
      obtain ⟨⟨-, hRunning⟩, rfl⟩ := hStep
      exact h.finish hRunning
  | tick d =>
      obtain rfl := Option.some.inj hStep
      refine ⟨h.unborn, h.current, h.alone, h.accounted, fun key ts e hCached => ?_, h.returned⟩
      obtain ⟨hTrue, hLt, hSame, hStatus, -, hIdle⟩ := h.cached key ts e hCached
      exact ⟨hTrue, hLt, hSame, hStatus, hGuard ⟨key, ts, e⟩ (AList.mem_lookup_iff.mp hCached), hIdle⟩
  | cleanup =>
      obtain rfl := Option.some.inj hStep
      exact h.cleanup

/-- It holds at the start. -/
theorem Initial.invariant (hInitial : Initial s) : Invariant s := by
  refine ⟨fun r _ => ?_, fun r e hCurrent => ?_, fun key _ r _ hKey => ?_, fun key _ e hLt => ?_,
    fun key ts e hCached => ?_, fun r e cached hDone => ?_⟩
  · rw [hInitial.requests]
  · simp [hInitial.requests, Pc.execution] at hCurrent
  · simp [hInitial.requests] at hKey
  · rw [hInitial.nextExecution] at hLt
    exact absurd hLt (Nat.not_lt_zero e)
  · simp [hInitial.idempotency_cache] at hCached
  · simp [hInitial.requests] at hDone

/-- Of the executions for a key all but one have failed. -/
theorem Invariant.unique (h : Invariant s) {key : String} (hTrue : key ≠ "") {e e' : ExecutionId}
    (hLt : e < s.nextExecution) (hLt' : e' < s.nextExecution)
    (hKey : (s.executions e).idem_key = some key) (hKey' : (s.executions e').idem_key = some key)
    (hStatus : (s.executions e).status ≠ .failed) (hStatus' : (s.executions e').status ≠ .failed) :
    e = e' := by
  have hOwned : ∀ e₁ e₂, e₁ < s.nextExecution → e₂ < s.nextExecution →
      (s.executions e₁).idem_key = some key → (s.executions e₂).idem_key = some key →
      (s.executions e₂).status ≠ .failed → (∃ r, (s.requests r).pc.execution = some e₁) →
      e₁ = e₂ := by
    rintro e₁ e₂ - hLt₂ hKey₁ hKey₂ hStatus₂ ⟨r, hCurrent⟩
    have hClear := h.clear (inProgress_of_execution hCurrent)
    have hRequest := (h.current r e₁ hCurrent).2.symm.trans hKey₁
    have hSame := h.own hClear hTrue hRequest hLt₂ hKey₂ hStatus₂
    exact Option.some.inj (hCurrent.symm.trans hSame)
  rcases h.accounted key hTrue e hLt hKey hStatus with hCurrent | ⟨-, ts, hCached⟩
  · exact hOwned e e' hLt hLt' hKey hKey' hStatus' hCurrent
  · rcases h.accounted key hTrue e' hLt' hKey' hStatus' with hCurrent' | ⟨-, ts', hCached'⟩
    · exact (hOwned e' e hLt' hLt hKey' hKey hStatus hCurrent').symm
    · rw [hCached] at hCached'
      exact (Prod.mk.inj (Option.some.inj hCached')).2

/-- Where no request arrives while another with its key is in progress, a key stands for one result
as long as it is kept. A result is only kept when it is there: of two requests that miss at the same
time both are executed. -/
theorem idempotent_of_reach (run : (machine server).Reach Sequential s) : Idempotent s := by
  have h : Invariant s := run.invariant Invariant (fun _ => Initial.invariant)
    fun _ _ _ hOld hGuard hStep => hOld.step hGuard hStep
  refine ⟨?_, ?_, ?_⟩
  · intro key hTrue e e' hLt hLt' hKey hKey' hStatus hStatus'
    exact h.unique hTrue hLt hLt' hKey hKey' (by simp [hStatus]) (by simp [hStatus'])
  · intro key hTrue e e' hLt hLt' hKey hKey' hStatus hStatus'
    exact h.unique hTrue hLt hLt' hKey hKey' (by simp [hStatus]) (by simp [hStatus'])
  · intro key hTrue r hMade hRequest e cached hDone
    obtain ⟨hLt, hSame, hStatus⟩ := h.returned r e cached hDone
    exact ⟨hLt, hSame.trans hRequest, hStatus⟩

instance : ∀ s l, Decidable (Sequential s l)
  | s, .request idem_key => inferInstanceAs (Decidable (∀ key ∈ idem_key, key ≠ "" →
      s.lookup idem_key = none → ∀ r < s.nextRequest, (s.requests r).idem_key = some key →
        (s.requests r).pc.inProgress = false))
  | s, .lost r _ => inferInstanceAs (Decidable (∀ e ∈ (s.requests r).pc.execution,
      (s.executions e).status = .failed))
  | s, .tick d => inferInstanceAs (Decidable (∀ entry ∈ s.idempotency_cache.entries,
      s.now + d - entry.2.1 < idempotency_ttl))
  | _, .node _ _ _ | _, .answer _ | _, .wake _ | _, .finish _ _ | _, .cleanup => .isTrue trivial

/-- A controller that has just been started. -/
def empty : State where
  idempotency_cache := ∅
  now := 0
  pending_requests := 0
  requests := fun _ => {}
  nextRequest := 0
  executions := fun _ => {}
  nextExecution := 0

theorem empty_initial : Initial empty := ⟨rfl, fun _ => rfl, rfl, rfl⟩

/-- The first node fails, the second one succeeds, and a later request with the key is answered
from the cache. -/
theorem idempotent_of_retry : ∃ s, (machine (.handle_inference {})).Reach Sequential s ∧
    (s.requests 1).pc = .returned 3 true ∧ Idempotent s := by
  have hRun : ((machine (.handle_inference {})).replayUnder Sequential empty
      [.request (some "k"), .node 0 true true, .finish 0 false, .answer 0, .wake 0, .finish 1 false,
        .answer 0, .wake 0, .finish 2 false, .answer 0, .node 0 true true, .finish 3 true, .answer 0,
        .tick 1000000, .request (some "k")]).map (fun s => (s.requests 1).pc) =
      some (.returned 3 true) := by decide +kernel
  obtain ⟨s, hReplay, hPc⟩ := Option.map_eq_some_iff.mp hRun
  have run := System.reach_of_replayUnder (.start empty_initial) hReplay
  exact ⟨s, run, hPc, idempotent_of_reach run⟩

/-- Two requests with one key arrive one after the other, and both are executed. -/
def twice : Server → List Label
  | .openai_completions => [.request (some "k"), .request (some "k")]
  | .handle_inference _ =>
      [.request (some "k"), .request (some "k"), .node 0 true true, .node 1 true true]

/-- What is left to check is that both executions run. -/
theorem not_idempotent_of_twice
    (hRun : ((machine server).replay empty (twice server)).map (fun s => (s.nextExecution,
        ((s.executions 0).idem_key, (s.executions 0).status),
        (s.executions 1).idem_key, (s.executions 1).status)) =
      some (2, (some "k", .running), some "k", .running)) :
    ∃ s, (machine server).Reachable s ∧ ¬ Idempotent s := by
  obtain ⟨s, hReplay, hEnd⟩ := Option.map_eq_some_iff.mp hRun
  simp only [Prod.mk.injEq] at hEnd
  obtain ⟨hNext, ⟨hKey, hStatus⟩, hKey', hStatus'⟩ := hEnd
  refine ⟨s, System.reachable_of_replay (.start empty_initial) hReplay, fun hIdempotent => ?_⟩
  have hSame := hIdempotent.alone "k" (by decide) 0 1 (by rw [hNext]; decide)
    (by rw [hNext]; decide) hKey hKey' hStatus hStatus'
  exact absurd hSame (by decide)

/-- Neither controller keeps the second request from running while the first one does. -/
theorem concurrent_requests_run_twice :
    (∃ s, (machine .openai_completions).Reachable s ∧ ¬ Idempotent s) ∧
      ∃ s, (machine (.handle_inference {})).Reachable s ∧ ¬ Idempotent s :=
  ⟨not_idempotent_of_twice (by decide +kernel), not_idempotent_of_twice (by decide +kernel)⟩

end Controller.Idempotency
