import SwarmLoRA.Cluster.Resilience

/-! The two hops of a request: from the global controller to the agent of a node and from there
to the local controller, each with its retries. The caller of the retries decides by the error
that it raises whether an answer counts as permanent. -/
namespace Cluster

/-- A complete answer. `json` is the parsed body, or why it does not parse; `detail` is the
text that an error answer is reported with, cut to 200 characters, or why it cannot be cut. -/
structure Answer (β : Type) where
  status : Int
  text : String
  json : Except String β
  detail : Except String String

/-- What a post comes to. An answer that breaks off counts as an error of the post. -/
abbrev Post (β : Type) := Except PyError (Answer β)

/-- The first 200 characters. -/
def cut (text : String) : String := String.ofList (text.toList.take 200)

/-- A result with what the global controller adds under `_routing`. -/
structure Routed (β : Type) where
  result : β
  node_id : NodeId
  node_host : String
  base_model : Option BaseModel

variable {β : Type}

namespace GlobalController

def do_forward (node : NodeInfo) : Post β → Except PyError (Routed β)
  | .error e => .error e
  | .ok response =>
      if response.status = 200 then
        match response.json with
        | .ok result => .ok
            { result := result
              node_id := node.node_id
              node_host := node.host
              base_model := node.base_model }
        | .error e => .error
            { kind := .exception
              message := "Invalid JSON from node " ++ node.node_id ++ ": " ++ e }
      else .error
        { kind := .exception
          message := "Node returned " ++ toString response.status ++ ": " ++ cut response.text }

/-- The forwarding of an admitted request; `posts` is what each attempt comes to. -/
def forward_to_node (retry : RetryConfig) (node : NodeInfo) (random : Nat → ℚ)
    (posts : Nat → Post β) : Execution PyError (Routed β) :=
  retry.execute classify_error random fun attempt => do_forward node (posts attempt)

end GlobalController

namespace NodeAgent

def do_forward : Post β → Except PyError β
  | .error e => .error e
  | .ok response =>
      if response.status ≠ 200 then
        match response.detail with
        | .ok detail => .error { kind := .http_exception response.status, message := detail }
        | .error e => .error { kind := .exception, message := e }
      else
        match response.json with
        | .ok result => .ok result
        | .error e => .error
            { kind := .http_exception 502
              message := "Invalid JSON from controller: " ++ e ++ ", body: " ++
                cut response.text }

def retry : RetryConfig where
  max_attempts := 2
  base_delay := 1 / 10

/-- An `HTTPException` goes on as it is, any other error as one with status 502. -/
def as_http_exception (e : PyError) : PyError :=
  match e.kind with
  | .http_exception _ => e
  | _ => { kind := .http_exception 502, message := e.message }

def forward_to_controller (running : Bool) (random : Nat → ℚ) (posts : Nat → Post β) :
    Execution PyError β :=
  if running then
    let run := retry.execute classify_error random fun attempt => do_forward (posts attempt)
    { run with result := run.result.mapError fun e => e.map as_http_exception }
  else
    { attempts := 0
      delays := []
      result := .error (some
        { kind := .http_exception 503, message := "Controller not running" }) }

end NodeAgent

/-- The statuses of client errors, timeouts and rate limits apart. -/
def PermanentStatus (status : Int) : Prop :=
  400 ≤ status ∧ status < 500 ∧ status ≠ 408 ∧ status ≠ 429

instance (status : Int) : Decidable (PermanentStatus status) :=
  inferInstanceAs (Decidable (_ ∧ _))

/-- The statuses themselves are classified as they should be. -/
theorem classify_http_status_permanent_iff (status : Int) :
    classify_http_status status = .permanent ↔ PermanentStatus status := by
  unfold classify_http_status PermanentStatus
  simp only [List.mem_cons, List.not_mem_nil, or_false]
  split
  · simp only [reduceCtorEq, false_iff]
    omega
  · split
    · simp only [true_iff]
      omega
    · simp only [reduceCtorEq, false_iff]
      omega

theorem status_ne_ok_of_permanent {status : Int} (h : PermanentStatus status) :
    status ≠ 200 := by
  obtain ⟨hLow, -⟩ := h
  omega

theorem status_ne_ok_of_transient {status : Int}
    (h : classify_http_status status = .transient) : status ≠ 200 := by
  rintro rfl
  cases h

section Retries

variable {posts : Nat → Post β} {attempt : Nat} {response : Answer β}

/-- The error that stands for an answer without success has no attribute `status`, so no
status makes it permanent. -/
theorem GlobalController.retried_of_status (node : NodeInfo)
    (hPost : posts attempt = .ok response) (hStatus : response.status ≠ 200) :
    Retried classify_error (fun attempt => do_forward node (posts attempt)) attempt := by
  simp only [Retried, hPost, do_forward, if_neg hStatus]
  exact ⟨_, rfl, by rintro ⟨⟩⟩

theorem NodeAgent.retried_of_status (hPost : posts attempt = .ok response)
    (hStatus : response.status ≠ 200) :
    Retried classify_error (fun attempt => do_forward (posts attempt)) attempt := by
  simp only [Retried, hPost, do_forward, if_pos hStatus]
  cases response.detail with
  | ok detail => exact ⟨_, rfl, by rintro ⟨⟩⟩
  | error e => exact ⟨_, rfl, by rintro ⟨⟩⟩

end Retries

/-- One attempt was made and its error is what the caller sees. -/
def TriedOnce {α : Type} (run : Execution PyError α) : Prop :=
  run.attempts = 1 ∧ ∃ e, run.result = .error (some e)

/-- No more than so many attempts are made, and the first success among them is returned when
all before it were answered with a transient status. -/
def ReturnsFirstSuccess {α : Type} (max_attempts : Nat) (run : Execution PyError α)
    (posts : Nat → Post β) (success : Post β → Except PyError α) : Prop :=
  run.attempts ≤ max_attempts ∧
    ∀ later value, later < max_attempts →
      (∀ j < later, ∃ response, posts j = .ok response ∧
        classify_http_status response.status = .transient) →
      success (posts later) = .ok value →
      run.attempts = later + 1 ∧ run.result = .ok value

section Hops

variable (retry : RetryConfig) (node : NodeInfo) (random : Nat → ℚ) (posts : Nat → Post β)

theorem GlobalController.returns_first_success :
    ReturnsFirstSuccess retry.max_attempts (forward_to_node retry node random posts) posts
      (do_forward node) := by
  constructor
  · exact retry.attempts_execute_le classify_error random
  · intro later value hLater hBefore hSuccess
    apply retry.execute_first_ok classify_error random hLater _ hSuccess
    intro j hj
    obtain ⟨response, hPost, hTransient⟩ := hBefore j hj
    exact retried_of_status node hPost (status_ne_ok_of_transient hTransient)

theorem NodeAgent.returns_first_success :
    ReturnsFirstSuccess NodeAgent.retry.max_attempts (forward_to_controller true random posts)
      posts do_forward := by
  constructor
  · exact NodeAgent.retry.attempts_execute_le classify_error random
  · intro later value hLater hBefore hSuccess
    have hRetried : ∀ j < later,
        Retried classify_error (fun attempt => do_forward (posts attempt)) j := by
      intro j hj
      obtain ⟨response, hPost, hTransient⟩ := hBefore j hj
      exact retried_of_status hPost (status_ne_ok_of_transient hTransient)
    obtain ⟨hAttempts, hResult⟩ :=
      NodeAgent.retry.execute_first_ok classify_error random hLater hRetried hSuccess
    refine ⟨hAttempts, ?_⟩
    show Except.mapError _ (Execution.result _) = _
    rw [hResult]
    rfl

/-- A node that answers with a permanent status is asked just once if and only if no retries
are configured at all, and the local controller is always asked twice. Attempts and first
successes after transient statuses are as they should be on both hops. -/
theorem permanent_tried_once_iff {response : Answer β} (hPost : posts 0 = .ok response)
    (hPermanent : PermanentStatus response.status) :
    (TriedOnce (GlobalController.forward_to_node retry node random posts) ↔
        retry.max_attempts = 1) ∧
      ¬TriedOnce (NodeAgent.forward_to_controller true random posts) ∧
      (∀ random (posts : Nat → Post β), ReturnsFirstSuccess retry.max_attempts
        (GlobalController.forward_to_node retry node random posts) posts
          (GlobalController.do_forward node)) ∧
      ∀ random (posts : Nat → Post β), ReturnsFirstSuccess NodeAgent.retry.max_attempts
        (NodeAgent.forward_to_controller true random posts) posts NodeAgent.do_forward := by
  have hStatus := status_ne_ok_of_permanent hPermanent
  have hNode := GlobalController.retried_of_status node hPost hStatus
  have hController := NodeAgent.retried_of_status hPost hStatus
  refine ⟨⟨?_, ?_⟩, ?_, ?_, ?_⟩
  · rintro ⟨hOnce, -⟩
    exact (retry.execute_once_iff classify_error random hNode).mp hOnce
  · intro hOne
    exact ⟨(retry.execute_once_iff classify_error random hNode).mpr hOne,
      retry.result_execute_once classify_error random hNode hOne⟩
  · rintro ⟨hOnce, -⟩
    have hOne := (NodeAgent.retry.execute_once_iff classify_error random hController).mp hOnce
    cases hOne
  · exact fun random posts => GlobalController.returns_first_success retry node random posts
  · exact fun random posts => NodeAgent.returns_first_success random posts

end Hops

/-- A node that has no use for the request. -/
def badRequest : Answer String where
  status := 400
  text := "bad request"
  json := .error "not an object"
  detail := .ok "bad request"

def gpuNode : NodeInfo where
  node_id := "n1"
  host := "gpu-1"
  port := 8100
  last_heartbeat := 0

theorem permanent_tried_once_iff_bad_request :
    PermanentStatus 400 ∧
      TriedOnce (GlobalController.forward_to_node { max_attempts := 1 } gpuNode (fun _ => 0)
        fun _ => .ok badRequest) := by
  have hPermanent : PermanentStatus badRequest.status := by decide +kernel
  exact ⟨hPermanent, (permanent_tried_once_iff { max_attempts := 1 } gpuNode (fun _ => 0)
    (fun _ => .ok badRequest) rfl hPermanent).1.mpr rfl⟩

/-- With the configuration that the global controller starts with, a node that answers
`400 Bad Request` is asked three times, and the local controller is asked twice. -/
theorem bad_request_is_retried :
    PermanentStatus badRequest.status ∧
      (GlobalController.forward_to_node {} gpuNode (fun _ => 0)
        fun _ => .ok badRequest).attempts = 3 ∧
      (NodeAgent.forward_to_controller true (fun _ => 0)
        fun _ => .ok badRequest).attempts = 2 ∧
      ¬∀ (retry : RetryConfig) (posts : Nat → Post String) (response : Answer String),
        posts 0 = .ok response → PermanentStatus response.status →
          TriedOnce (GlobalController.forward_to_node retry gpuNode (fun _ => 0) posts) ∧
          TriedOnce (NodeAgent.forward_to_controller true (fun _ => 0) posts) := by
  refine ⟨by decide +kernel, rfl, rfl, ?_⟩
  intro h
  have hNode := (h {} (fun _ => .ok badRequest) badRequest rfl (by decide +kernel)).1.1
  cases hNode

end Cluster
