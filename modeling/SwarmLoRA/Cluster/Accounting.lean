import Mathlib.Data.Finset.Insert
import SwarmLoRA.Cluster.Registry
import SwarmLoRA.Machine.System

/-! The counters of the global controller. A request runs undisturbed from one suspension to the
next; how long it looks for a node, and what becomes of its forwards, is up to its environment.
-/
namespace Cluster.Accounting

/-- Requests are numbered as they come. -/
abbrev RequestId := Nat

/-- How `_get_node_for_request` goes on. It returns none of the nodes that were tried. -/
inductive Outcome where
  | found (node_id : NodeId)
  | nothing
  | suspends
  | raises
  deriving DecidableEq

/-- Where a request is, as far as the counters go. -/
inductive Pc where
  | seeking
  | forwarding (node_id : NodeId)
  | ended
  deriving DecidableEq

/-- A call of `_handle_inference` that has been let in: the nodes it was forwarded to, its attempts,
and where it is suspended. -/
structure Request where
  tried_nodes : Finset NodeId := ∅
  attempt : Nat := 0
  pc : Pc := .seeking

/-- The request has not ended. -/
def Request.handled (req : Request) : Bool := req.pc ≠ .ended

/-- The request is forwarded to the node. -/
def Request.forwarded_to (node_id : NodeId) (req : Request) : Bool := req.pc = .forwarding node_id

/-- The request is handled, and the node is one of those that it has tried. -/
def Request.charges (node_id : NodeId) (req : Request) : Bool :=
  req.handled && node_id ∈ req.tried_nodes

/-- What limits the queue and the attempts. -/
structure Config where
  max_queue_size : Int := 1000
  forward_max_attempts : Nat := 2

/-- The counters of the global controller and the requests that they count. Of the search for a node
only the outcome is left. -/
structure State where
  total_requests : Int := 0
  completed_requests : Int := 0
  failed_requests : Int := 0
  pending_requests : Int := 0
  inflight_per_node : NodeId → Int := fun _ => 0
  requests : List Request := []

/-- A request arrives or goes on, with the outcome of its search. -/
inductive Label where
  | arrive (outcome : Outcome)
  | resume (r : RequestId) (outcome : Outcome)
  | succeed (r : RequestId)
  /-- With what the search for another node gives, if there is one. -/
  | fail (r : RequestId) (outcome : Outcome)
  | cancel (r : RequestId)

namespace State

variable (s : State)

/-- The `finally` of `_handle_inference`. -/
def finish (r : RequestId) (req : Request) : State :=
  { s with
    pending_requests := s.pending_requests - 1
    inflight_per_node := fun n =>
      if n ∈ req.tried_nodes then max 0 (s.inflight_per_node n - 1) else s.inflight_per_node n
    requests := s.requests.set r { req with pc := .ended } }

/-- The request ends with an error that is counted. -/
def fail (r : RequestId) (req : Request) : State :=
  { s with failed_requests := s.failed_requests + 1 }.finish r req

/-- The search for a node up to the next suspension. -/
def seek (r : RequestId) (req : Request) : Outcome → Option State
  | .found node_id =>
      if node_id ∈ req.tried_nodes then none
      else some { s with
        inflight_per_node := Function.update s.inflight_per_node node_id
          (s.inflight_per_node node_id + 1)
        requests := s.requests.set r
          { req with tried_nodes := insert node_id req.tried_nodes, pc := .forwarding node_id } }
  | .nothing => some (s.fail r req)
  | .suspends => some { s with requests := s.requests.set r { req with pc := .seeking } }
  | .raises => some (s.finish r req)

/-- A new request, which counts as pending. -/
def enter : State :=
  { s with
    total_requests := s.total_requests + 1
    pending_requests := s.pending_requests + 1
    requests := s.requests ++ [{}] }

end State

/-- Another attempt follows on a failure of the first one only. -/
def Config.retries (cfg : Config) (req : Request) : Bool :=
  req.attempt = 0 && 1 < cfg.forward_max_attempts

/-- How a request goes on from one suspension to the next. -/
def step (cfg : Config) (s : State) : Label → Option State
  | .arrive outcome =>
      if cfg.max_queue_size ≤ s.pending_requests then some s
      else if cfg.forward_max_attempts = 0 then some (s.enter.fail s.requests.length {})
      else s.enter.seek s.requests.length {} outcome
  | .resume r outcome =>
      match s.requests[r]? with
      | some req => if req.pc = .seeking then s.seek r req outcome else none
      | none => none
  | .succeed r =>
      match s.requests[r]? with
      | some req =>
          match req.pc with
          | .forwarding _ =>
              some ({ s with completed_requests := s.completed_requests + 1 }.finish r req)
          | _ => none
      | none => none
  | .fail r outcome =>
      match s.requests[r]? with
      | some req =>
          match req.pc with
          | .forwarding _ =>
              if cfg.retries req then s.seek r { req with attempt := 1 } outcome
              else some (s.fail r req)
          | _ => none
      | none => none
  | .cancel r =>
      match s.requests[r]? with
      | some req => if req.handled then some (s.finish r req) else none
      | none => none

/-- Starts with nothing on the books. -/
def machine (cfg : Config) : Machine.System State Label := ⟨fun s => s = {}, step cfg⟩

/-- What the counters are to say at every suspension: each request is completed, failed or pending,
a node is charged with the requests that are being forwarded to it, and at rest nothing is left. -/
structure Exact (s : State) : Prop where
  total : s.total_requests = s.completed_requests + s.failed_requests + s.pending_requests
  inflight : ∀ n, s.inflight_per_node n = s.requests.countP (Request.forwarded_to n)
  rest : s.requests.countP Request.handled = 0 →
    s.pending_requests = 0 ∧ ∀ n, s.inflight_per_node n = 0

/-- No request is cancelled, no search for a node raises, and the search after a failed forward
ends the request at once. -/
def Regular (cfg : Config) (s : State) : Label → Bool
  | .arrive outcome | .resume _ outcome => outcome ≠ .raises
  | .succeed _ => true
  | .fail r outcome =>
      match s.requests[r]? with
      | some req => !cfg.retries req || outcome = .nothing
      | none => true
  | .cancel _ => false

/-- One request changes, and a count by what it adds and what it takes. -/
theorem countP_set {p : Request → Bool} {l : List Request} {r : RequestId} {old : Request}
    (hOld : l[r]? = some old) (new : Request) :
    ((l.set r new).countP p : Int) =
      l.countP p - (if p old then 1 else 0) + if p new then 1 else 0 := by
  obtain ⟨hLt, hGet⟩ := List.getElem?_eq_some_iff.mp hOld
  rw [List.countP_set hLt, hGet]
  have hPos : p old = true → 0 < l.countP p := fun hp =>
    List.countP_pos_iff.mpr ⟨old, List.mem_of_getElem? hOld, hp⟩
  cases hp : p old with
  | false => simp
  | true =>
      have := hPos hp
      cases p new <;> simp <;> omega

/-- What the counters say in any run. A node is charged with all the requests that have tried it,
also with those that have gone on to another node. -/
structure Books (s : State) : Prop where
  pending : s.pending_requests = s.requests.countP Request.handled
  inflight : ∀ n, s.inflight_per_node n = s.requests.countP (Request.charges n)

namespace Books

variable {cfg : Config} {s s' : State} {r : RequestId} {old req : Request} {outcome : Outcome}

/-- At the start there is nothing to count. -/
theorem initial : Books {} := ⟨rfl, fun _ => rfl⟩

/-- A request that ends is counted no more, and gives back its nodes. -/
theorem finish (h : Books s) (hOld : s.requests[r]? = some old) (hHandled : old.handled = true)
    (hTried : req.tried_nodes = old.tried_nodes) : Books (s.finish r req) where
  pending := by
    have hCount := countP_set hOld { req with pc := .ended } (p := Request.handled)
    rw [hHandled] at hCount
    simp only [State.finish, h.pending, hCount]
    simp [Request.handled]
  inflight := by
    intro n
    have hCount := countP_set hOld { req with pc := .ended } (p := Request.charges n)
    have hEnded : Request.charges n { req with pc := .ended } = false := by
      simp [Request.charges, Request.handled]
    have hCharges : old.charges n = decide (n ∈ req.tried_nodes) := by
      simp [Request.charges, hHandled, hTried]
    rw [hEnded, hCharges] at hCount
    simp only [State.finish, h.inflight n]
    by_cases hMem : n ∈ req.tried_nodes
    · simp only [hMem, decide_true, if_true, Bool.false_eq_true, if_false] at hCount ⊢
      omega
    · simp only [hMem, decide_false, Bool.false_eq_true, if_false] at hCount ⊢
      omega

/-- One that fails is counted as failed besides. -/
theorem fail (h : Books s) (hOld : s.requests[r]? = some old) (hHandled : old.handled = true)
    (hTried : req.tried_nodes = old.tried_nodes) : Books (s.fail r req) :=
  Books.finish (s := { s with failed_requests := s.failed_requests + 1 }) ⟨h.pending, h.inflight⟩
    hOld hHandled hTried

/-- A search charges the node that is found, or ends the request. -/
theorem seek (h : Books s) (hOld : s.requests[r]? = some old) (hHandled : old.handled = true)
    (hTried : req.tried_nodes = old.tried_nodes) (hSeek : s.seek r req outcome = some s') :
    Books s' := by
  cases outcome with
  | found node_id =>
      simp only [State.seek, Option.ite_none_left_eq_some] at hSeek
      obtain ⟨hNew, hSeek⟩ := hSeek
      obtain rfl := Option.some.inj hSeek
      constructor
      · have hCount := countP_set hOld
          { req with tried_nodes := insert node_id req.tried_nodes, pc := .forwarding node_id }
          (p := Request.handled)
        rw [hHandled] at hCount
        simp only [h.pending, hCount]
        simp [Request.handled]
      · intro n
        have hCount := countP_set hOld
          { req with tried_nodes := insert node_id req.tried_nodes, pc := .forwarding node_id }
          (p := Request.charges n)
        simp only [Request.charges, hHandled, ← hTried] at hCount
        simp only [Function.update_apply, h.inflight, hCount]
        by_cases hn : n = node_id
        · subst hn
          simp [hNew, Request.handled]
        · simp [hn, Request.handled]
  | nothing =>
      obtain rfl := Option.some.inj hSeek
      exact h.fail hOld hHandled hTried
  | suspends =>
      obtain rfl := Option.some.inj hSeek
      constructor
      · have hCount := countP_set hOld { req with pc := .seeking } (p := Request.handled)
        rw [hHandled] at hCount
        simp only [h.pending, hCount]
        simp [Request.handled]
      · intro n
        have hCount := countP_set hOld { req with pc := .seeking } (p := Request.charges n)
        simp only [Request.charges, hHandled, ← hTried] at hCount
        simp only [h.inflight, hCount]
        simp [Request.handled]
  | raises =>
      obtain rfl := Option.some.inj hSeek
      exact h.finish hOld hHandled hTried

/-- A request that comes in is pending. -/
theorem enter (h : Books s) : Books s.enter where
  pending := by
    simp only [State.enter, h.pending, List.countP_append]
    rfl
  inflight := by
    intro n
    simp only [State.enter, h.inflight n, List.countP_append]
    rfl

/-- It is the last one. -/
theorem entered : s.enter.requests[s.requests.length]? = some {} := by
  simp [State.enter]

/-- Every step keeps the books. -/
theorem step {l : Label} (h : Books s) (hStep : Accounting.step cfg s l = some s') : Books s' := by
  cases l with
  | arrive outcome =>
      simp only [Accounting.step] at hStep
      split at hStep
      · obtain rfl := Option.some.inj hStep
        exact h
      · split at hStep
        · obtain rfl := Option.some.inj hStep
          exact h.enter.fail entered rfl rfl
        · exact h.enter.seek entered rfl rfl hStep
  | resume r outcome =>
      simp only [Accounting.step] at hStep
      split at hStep
      · rename_i req hReq
        simp only [Option.ite_none_right_eq_some] at hStep
        exact h.seek hReq (by simp [Request.handled, hStep.1]) rfl hStep.2
      · cases hStep
  | succeed r =>
      simp only [Accounting.step] at hStep
      split at hStep
      · rename_i req hReq
        split at hStep
        · rename_i hPc
          obtain rfl := Option.some.inj hStep
          exact Books.finish (s := { s with completed_requests := s.completed_requests + 1 })
            ⟨h.pending, h.inflight⟩ hReq (by simp [Request.handled, hPc]) rfl
        · cases hStep
      · cases hStep
  | fail r outcome =>
      simp only [Accounting.step] at hStep
      split at hStep
      · rename_i req hReq
        split at hStep
        · rename_i hPc
          have hHandled : req.handled = true := by simp [Request.handled, hPc]
          split at hStep
          · exact h.seek hReq hHandled (by exact rfl) hStep
          · obtain rfl := Option.some.inj hStep
            exact h.fail hReq hHandled rfl
        · cases hStep
      · cases hStep
  | cancel r =>
      simp only [Accounting.step] at hStep
      split at hStep
      · rename_i req hReq
        simp only [Option.ite_none_right_eq_some, Option.some.injEq] at hStep
        obtain ⟨hHandled, rfl⟩ := hStep
        exact h.finish hReq hHandled rfl
      · cases hStep

/-- Whatever happens, nothing is left on the books of a controller at rest. -/
theorem rest (h : Books s) (hRest : s.requests.countP Request.handled = 0) :
    s.pending_requests = 0 ∧ ∀ n, s.inflight_per_node n = 0 := by
  constructor
  · rw [h.pending, hRest]
    rfl
  · intro n
    rw [h.inflight n]
    have hNone : s.requests.countP (Request.charges n) = 0 := by
      rw [List.countP_eq_zero] at hRest ⊢
      intro req hMem hCharges
      exact hRest req hMem (Bool.and_eq_true_iff.mp hCharges).1
    rw [hNone]
    rfl

end Books

/-- The nodes on the books for a request: the one that it is forwarded to, if there is one. -/
def Pc.nodes : Pc → Finset NodeId
  | .forwarding node_id => {node_id}
  | .seeking | .ended => ∅

/-- What holds besides in regular runs: the total is the sum of its parts, and no request has tried
a node that it is not being forwarded to. -/
structure Plain (s : State) : Prop where
  total : s.total_requests = s.completed_requests + s.failed_requests + s.pending_requests
  tried : ∀ req ∈ s.requests, req.handled = true → req.tried_nodes = req.pc.nodes

namespace Plain

variable {cfg : Config} {s s' : State} {r : RequestId} {old req : Request} {outcome : Outcome}

/-- It is so at the start. -/
theorem initial : Plain {} := ⟨rfl, fun _ hMem => (List.not_mem_nil hMem).elim⟩

/-- What is known of one request does not depend on the others. -/
theorem tried_set (h : Plain s) {new : Request}
    (hNew : new.handled = true → new.tried_nodes = new.pc.nodes) :
    ∀ req ∈ s.requests.set r new, req.handled = true → req.tried_nodes = req.pc.nodes := by
  intro req hMem
  rcases List.mem_or_eq_of_mem_set hMem with hOld | rfl
  · exact h.tried req hOld
  · exact hNew

/-- A request fails. -/
theorem fail (h : Plain s) : Plain (s.fail r req) where
  total := by
    have hTotal := h.total
    simp only [State.fail, State.finish]
    omega
  tried := h.tried_set fun hHandled => by cases hHandled

/-- A request succeeds. -/
theorem succeed (h : Plain s) :
    Plain ({ s with completed_requests := s.completed_requests + 1 }.finish r req) where
  total := by
    have hTotal := h.total
    simp only [State.finish]
    omega
  tried := h.tried_set fun hHandled => by cases hHandled

/-- A first search that does not raise. -/
theorem seek (h : Plain s) (hTried : req.tried_nodes = ∅) (hOutcome : outcome ≠ .raises)
    (hSeek : s.seek r req outcome = some s') : Plain s' := by
  cases outcome with
  | found node_id =>
      simp only [State.seek, Option.ite_none_left_eq_some] at hSeek
      obtain rfl := Option.some.inj hSeek.2
      refine ⟨h.total, h.tried_set fun _ => ?_⟩
      show insert node_id req.tried_nodes = {node_id}
      rw [hTried]
      rfl
  | nothing =>
      obtain rfl := Option.some.inj hSeek
      exact h.fail
  | suspends =>
      obtain rfl := Option.some.inj hSeek
      exact ⟨h.total, h.tried_set fun _ => hTried⟩
  | raises => exact (hOutcome rfl).elim

/-- A request comes in. -/
theorem enter (h : Plain s) : Plain s.enter where
  total := by
    have hTotal := h.total
    simp only [State.enter]
    omega
  tried := by
    intro req hMem
    rcases List.mem_append.mp hMem with hOld | hNew
    · exact h.tried req hOld
    · rw [List.mem_singleton.mp hNew]
      exact fun _ => rfl

/-- Every regular step keeps it so. -/
theorem step {l : Label} (h : Plain s) (hRegular : Regular cfg s l = true)
    (hStep : Accounting.step cfg s l = some s') : Plain s' := by
  cases l with
  | arrive outcome =>
      simp only [Accounting.step] at hStep
      split at hStep
      · obtain rfl := Option.some.inj hStep
        exact h
      · split at hStep
        · obtain rfl := Option.some.inj hStep
          exact h.enter.fail
        · exact h.enter.seek rfl (of_decide_eq_true hRegular) hStep
  | resume r outcome =>
      simp only [Accounting.step] at hStep
      split at hStep
      · rename_i req hReq
        simp only [Option.ite_none_right_eq_some] at hStep
        obtain ⟨hPc, hSeek⟩ := hStep
        have hTried := h.tried req (List.mem_of_getElem? hReq) (by simp [Request.handled, hPc])
        rw [hPc] at hTried
        exact h.seek hTried (of_decide_eq_true hRegular) hSeek
      · cases hStep
  | succeed r =>
      simp only [Accounting.step] at hStep
      split at hStep
      · split at hStep
        · obtain rfl := Option.some.inj hStep
          exact h.succeed
        · cases hStep
      · cases hStep
  | fail r outcome =>
      simp only [Accounting.step] at hStep
      simp only [Regular] at hRegular
      split at hStep
      · rename_i req hReq
        rw [hReq] at hRegular
        split at hStep
        · split at hStep
          · rename_i hRetries
            -- the search ends the request
            simp only [hRetries, Bool.not_true, Bool.false_or] at hRegular
            obtain rfl := of_decide_eq_true hRegular
            obtain rfl := Option.some.inj hStep
            exact h.fail
          · obtain rfl := Option.some.inj hStep
            exact h.fail
        · cases hStep
      · cases hStep
  | cancel r => cases hRegular

end Plain

/-- The books are right in every state of a run. -/
theorem books_of_reachable {cfg : Config} {s : State} (run : (machine cfg).Reachable s) :
    Books s := by
  apply run.invariant Books
  · rintro s rfl
    exact .initial
  · intro s l s' hPrior _ hStep
    exact hPrior.step hStep

/-- In any run at all, a controller that handles no request has none on its books. -/
theorem rest_of_reachable {cfg : Config} {s : State} (run : (machine cfg).Reachable s)
    (hRest : s.requests.countP Request.handled = 0) :
    s.pending_requests = 0 ∧ ∀ n, s.inflight_per_node n = 0 :=
  (books_of_reachable run).rest hRest

/-- In every run in which no request is cancelled or fails over, and no search for a node
raises, the counters are exact at every suspension. -/
theorem exact_of_reach {cfg : Config} {s : State}
    (run : (machine cfg).Reach (fun s l => Regular cfg s l = true) s) : Exact s := by
  have hBoth : Books s ∧ Plain s := by
    apply run.invariant fun s => Books s ∧ Plain s
    · rintro s rfl
      exact ⟨.initial, .initial⟩
    · rintro s l s' ⟨hBooks, hPlain⟩ hRegular hStep
      exact ⟨hBooks.step hStep, hPlain.step hRegular hStep⟩
  obtain ⟨hBooks, hPlain⟩ := hBoth
  refine ⟨hPlain.total, ?_, hBooks.rest⟩
  intro n
  rw [hBooks.inflight n]
  congr 1
  apply List.countP_congr
  intro req hMem
  cases hPc : req.pc with
  | ended => simp [Request.charges, Request.handled, Request.forwarded_to, hPc]
  | seeking =>
      have hTried := hPlain.tried req hMem (by simp [Request.handled, hPc])
      simp [Request.charges, Request.forwarded_to, hPc, hTried, Pc.nodes]
  | forwarding node_id =>
      have hTried := hPlain.tried req hMem (by simp [Request.handled, hPc])
      simp [Request.charges, Request.handled, Request.forwarded_to, hPc, hTried, Pc.nodes,
        eq_comm]

/-- One request looks for a node and is served there, one finds no node, and one has failed on
its node and finds no other. -/
theorem exact_of_three_requests : ∃ s, (machine {}).Reach (fun s l => Regular {} s l = true) s ∧
    s.completed_requests = 1 ∧ s.failed_requests = 2 ∧ Exact s := by
  have hRun : ((machine {}).replayUnder (fun s l => Regular {} s l = true) {}
      [.arrive .suspends, .arrive .nothing, .resume 0 (.found "n1"), .arrive (.found "n1"),
        .succeed 0, .fail 2 .nothing]).map
        (fun s => (s.completed_requests, s.failed_requests)) = some (1, 2) := by
    decide +kernel
  obtain ⟨s, hReplay, hEnd⟩ := Option.map_eq_some_iff.mp hRun
  obtain ⟨hCompleted, hFailed⟩ := Prod.mk.inj hEnd
  have run := Machine.System.reach_of_replayUnder (M := machine {}) (.start rfl) hReplay
  exact ⟨s, run, hCompleted, hFailed, exact_of_reach run⟩

/-- A request that has failed on one node and is forwarded to another still counts for the
first, and a request that is cancelled is neither completed nor failed. -/
theorem failover_and_cancellation_miscount : ∃ s, (machine {}).Reachable s ∧
    (s.inflight_per_node "n1" = 1 ∧ s.requests.countP (Request.forwarded_to "n1") = 0) ∧
      s.total_requests = 2 ∧ s.completed_requests + s.failed_requests + s.pending_requests = 1 ∧
        ¬Exact s := by
  have hRun : ((machine {}).replay {} [.arrive (.found "n1"), .fail 0 (.found "n2"),
      .arrive .suspends, .cancel 1]).map (fun s =>
        (s.inflight_per_node "n1", s.requests.countP (Request.forwarded_to "n1"),
          s.total_requests, s.completed_requests + s.failed_requests + s.pending_requests)) =
      some (1, 0, 2, 1) := by
    decide +kernel
  obtain ⟨s, hReplay, hEnd⟩ := Option.map_eq_some_iff.mp hRun
  simp only [Prod.mk.injEq] at hEnd
  obtain ⟨hInflight, hForwarded, hTotal, hCounted⟩ := hEnd
  refine ⟨s, Machine.System.reachable_of_replay (M := machine {}) (.start rfl) hReplay,
    ⟨hInflight, hForwarded⟩, hTotal, hCounted, ?_⟩
  intro hExact
  have hCount := hExact.inflight "n1"
  rw [hInflight, hForwarded] at hCount
  cases hCount

end Cluster.Accounting
