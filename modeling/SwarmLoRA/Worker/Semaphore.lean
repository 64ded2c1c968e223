import Mathlib.Data.Finset.Card
import SwarmLoRA.Worker.Inference
import SwarmLoRA.Worker.SingleSlot

namespace Worker

open Machine

/-- The requests whose threads have a permit that they have not given back. -/
def State.holders (s : State) : Finset RequestId :=
  (Finset.range s.nextRequest).filter fun r => (s.requests r).handler.holds

/-- All handlers have returned or raised. -/
def State.Idle (s : State) : Prop :=
  ∀ r, (s.requests r).handler ≠ .parsing ∧ (s.requests r).handler ≠ .waiting

/-- No permit is lost or made up: each is with the semaphore or with a thread that holds it. -/
structure Accounted (max_slots : Nat) (s : State) : Prop where
  permits : s.semaphore + s.holders.card = max_slots
  unborn : ∀ r, s.nextRequest ≤ r → (s.requests r).handler = .refused

/-- The threads of the server and their permits are left alone. -/
structure Unheeded (s s' : State) : Prop where
  semaphore : s'.semaphore = s.semaphore
  nextRequest : s'.nextRequest = s.nextRequest
  handler : ∀ r, (s'.requests r).handler = (s.requests r).handler

/-- The moves that a thread makes up to the end of its reading. -/
def Label.reads : Label → Bool
  | .inference | .refuse _ | .abort _ | .submit_request _ _ => true
  | _ => false

variable {cfg : Config} {s s' : State} {l : Label} {r : RequestId} {max_slots : Nat}

namespace Unheeded

/-- The next operation is none of the handlers' business. -/
theorem next (slots : Dict) (rest : List (Op × Nat)) : Unheeded s (s.next slots rest) := by
  cases rest <;> exact ⟨rfl, rfl, fun _ => rfl⟩

/-- Nor are two steps one after the other, if neither is. -/
theorem trans {s'' : State} (h : Unheeded s s') (h' : Unheeded s' s'') : Unheeded s s'' :=
  ⟨h'.semaphore.trans h.semaphore, h'.nextRequest.trans h.nextRequest,
    fun r => (h'.handler r).trans (h.handler r)⟩

/-- Nor is the taking of tokens. -/
theorem get_tokens (s : State) (slots : Dict) : Unheeded s (slots.foldl State.get_token s) := by
  refine ⟨?_, ?_, Continues.get_tokens_handler s slots⟩
  · rw [State.get_tokens_eq]
  · rw [State.get_tokens_eq]

/-- Nor the end of a call. -/
theorem collect (s : State) (slots : Dict) (command : Command) (rest : List (Op × Nat)) :
    Unheeded s (s.collect slots command rest) := by
  unfold State.collect
  split
  next => exact next slots rest
  next => exact (get_tokens s slots).trans (next slots rest)
  all_goals
    split
    next => exact next slots rest
    next => exact ⟨rfl, rfl, fun _ => rfl⟩

/-- Nor anything that the engine does. -/
theorem engine {move : Move} (hMove : Worker.engine cfg s move = some s') : Unheeded s s' := by
  cases engine_move hMove with
  | @prepare slot_id length r hPc =>
      refine ⟨rfl, rfl, fun r' => ?_⟩
      by_cases hr : r' = r
      · simp [State.prepare, State.setRequest, hr]
      · simp [State.prepare, State.setRequest, hr]
  | activate hPc =>
      refine ⟨rfl, rfl, fun r => ?_⟩
      simp only [State.try_activate_pending_slots]
      split <;> rfl
  | @sync slots command rest executed hPc => exact collect s slots command rest
  | _ => exact ⟨rfl, rfl, fun _ => rfl⟩

end Unheeded

/-- Whoever else moves leaves the permits alone, or is a thread that is through with waiting. -/
theorem unheeded_or_release (hReads : l.reads = false) (hStep : Worker.step cfg s l = some s') :
    Unheeded s s' ∨ ∃ r handler, (s.requests r).handler = .waiting ∧ handler.holds = false ∧
      s' = s.release r handler := by
  cases l with
  | inference | refuse r | abort r | submit_request r max_tokens => cases hReads
  | answer r =>
      simp only [Worker.step, Option.ite_none_right_eq_some, Option.some.injEq] at hStep
      exact .inr ⟨r, .returned, hStep.1.1, rfl, hStep.2.symm⟩
  | timeout r =>
      simp only [Worker.step, Option.ite_none_right_eq_some, Option.some.injEq] at hStep
      exact .inr ⟨r, .gave_up, hStep.1.1, rfl, hStep.2.symm⟩
  | engine move =>
      simp only [Worker.step, Option.ite_none_right_eq_some] at hStep
      exact .inl (.engine hStep.2)
  | act =>
      simp only [Worker.step] at hStep
      split at hStep
      all_goals cases hStep
      exact .inl ⟨rfl, rfl, fun _ => rfl⟩
  | execute value =>
      simp only [Worker.step] at hStep
      split at hStep
      next =>
        split at hStep
        all_goals cases hStep
        exact .inl ⟨rfl, rfl, fun _ => rfl⟩
      next => cases hStep
  | raise | write slot_id value =>
      simp only [Worker.step] at hStep
      split at hStep
      all_goals cases hStep
      exact .inl ⟨rfl, rfl, fun _ => rfl⟩
  | shutdown | stop | join slot_id | leave slot_id | evict slot_id =>
      obtain rfl := Option.some.inj hStep
      exact .inl ⟨rfl, rfl, fun _ => rfl⟩

/-- A thread goes on with its permit. -/
theorem holders_of_holds (hNext : s'.nextRequest = s.nextRequest)
    (hSame : ∀ r, (s'.requests r).handler.holds = (s.requests r).handler.holds) :
    s'.holders = s.holders := by
  unfold State.holders
  rw [hNext]
  exact Finset.filter_congr fun r _ => by rw [hSame]

/-- A handler that gives its permit back has none. -/
theorem holders_release {handler : Handler} (hNot : handler.holds = false) :
    (s.release r handler).holders = s.holders.erase r := by
  ext r'
  simp only [State.holders, Finset.mem_filter, Finset.mem_erase, Finset.mem_range]
  by_cases hr : r' = r
  · simp [State.release, State.setHandler, State.setRequest, hr, hNot]
  · simp [State.release, State.setHandler, State.setRequest, hr]

/-- A new request is among the holders if its thread has got a permit. -/
theorem holders_new {request : Request} (hNext : s'.nextRequest = s.nextRequest + 1)
    (hRequests : s'.requests = Function.update s.requests s.nextRequest request) :
    s'.holders = if request.handler.holds then insert s.nextRequest s.holders else s.holders := by
  have hOld : (Finset.range s.nextRequest).filter (fun r => (s'.requests r).handler.holds) =
      s.holders := by
    refine Finset.filter_congr fun r hr => ?_
    rw [hRequests, Function.update_of_ne (Finset.mem_range.mp hr).ne]
  unfold State.holders at hOld ⊢
  rw [hNext, Finset.range_add_one, Finset.filter_insert, hOld, hRequests, Function.update_self]

namespace Accounted

/-- A request whose handler has a permit is one of the holders. -/
theorem mem_holders (h : Accounted max_slots s) (hHolds : (s.requests r).handler.holds = true) :
    r ∈ s.holders := by
  refine Finset.mem_filter.mpr ⟨Finset.mem_range.mpr (Nat.lt_of_not_le fun hLe => ?_), hHolds⟩
  rw [h.unborn r hLe] at hHolds
  cases hHolds

/-- As long as nobody takes or gives back a permit. -/
theorem of_holds (h : Accounted max_slots s) (hSemaphore : s'.semaphore = s.semaphore)
    (hNext : s'.nextRequest = s.nextRequest)
    (hHandler : ∀ r, (s'.requests r).handler.holds = (s.requests r).handler.holds ∧
      ((s.requests r).handler = .refused → (s'.requests r).handler = .refused)) :
    Accounted max_slots s' where
  permits := by
    rw [hSemaphore, holders_of_holds hNext fun r => (hHandler r).1]
    exact h.permits
  unborn r hLe := (hHandler r).2 (h.unborn r (hNext ▸ hLe))

/-- What is none of the handlers' business changes no account. -/
theorem of_unheeded (h : Accounted max_slots s) (hSame : Unheeded s s') : Accounted max_slots s' :=
  h.of_holds hSame.semaphore hSame.nextRequest fun r => by rw [hSame.handler]; exact ⟨rfl, id⟩

/-- A handler ends, with its permit given back. -/
theorem release (h : Accounted max_slots s) {handler : Handler}
    (hHolds : (s.requests r).handler.holds = true) (hNot : handler.holds = false) :
    Accounted max_slots (s.release r handler) where
  permits := by
    have hMem := h.mem_holders hHolds
    have hCard := Finset.card_erase_add_one hMem
    have hPermits := h.permits
    rw [holders_release hNot]
    change s.semaphore + 1 + _ = max_slots
    omega
  unborn r' hLe := by
    have hOther : r' ≠ r := by
      rintro rfl
      exact absurd (Finset.mem_range.mp (Finset.mem_filter.mp (h.mem_holders hHolds)).1) hLe.not_gt
    simpa [State.release, State.setHandler, State.setRequest, hOther] using h.unborn r' hLe

/-- The thread of a request goes on with its permit. -/
theorem keep (h : Accounted max_slots s) {request : Request}
    (hHolds : (s.requests r).handler.holds = true) (hStill : request.handler.holds = true)
    (request_queue : List RequestId) :
    Accounted max_slots { s.setRequest r request with request_queue } := by
  refine h.of_holds rfl rfl fun r' => ?_
  by_cases hr : r' = r
  · have hNot : (s.requests r).handler ≠ .refused := by
      intro hRefused
      rw [hRefused] at hHolds
      cases hHolds
    simp [State.setRequest, hr, hHolds, hStill, hNot]
  · simp [State.setRequest, hr]

/-- A request arrives, and has no permit yet. -/
theorem inference (h : Accounted max_slots s) : Accounted max_slots s.inference := by
  have hUnborn : ∀ request r', s.nextRequest + 1 ≤ r' →
      (Function.update s.requests s.nextRequest request r').handler = .refused := by
    intro request r' hLe
    rw [Function.update_of_ne (Nat.lt_of_succ_le hLe).ne']
    exact h.unborn r' (Nat.le_of_succ_le hLe)
  have hPermits := h.permits
  have hNew : s.nextRequest ∉ s.holders := by simp [State.holders]
  unfold State.inference
  split
  next hFree =>
    refine ⟨?_, hUnborn { handler := .parsing }⟩
    rw [holders_new (s := s) rfl rfl]
    change s.semaphore - 1 + (insert s.nextRequest s.holders).card = max_slots
    rw [Finset.card_insert_of_notMem hNew]
    omega
  next =>
    refine ⟨?_, hUnborn {}⟩
    rw [holders_new (s := s) rfl rfl]
    exact hPermits

/-- Every step of the worker keeps the account. -/
theorem step (h : Accounted max_slots s) (hStep : Worker.step cfg s l = some s') :
    Accounted max_slots s' := by
  cases hReads : l.reads with
  | false =>
      rcases unheeded_or_release hReads hStep with hSame | ⟨r, handler, hWaiting, hNot, rfl⟩
      · exact h.of_unheeded hSame
      · exact h.release (by rw [hWaiting]; rfl) hNot
  | true =>
      cases l with
      | inference =>
          obtain rfl := Option.some.inj hStep
          exact h.inference
      | refuse r =>
          simp only [Worker.step, Option.ite_none_right_eq_some, Option.some.injEq] at hStep
          obtain ⟨hParsing, rfl⟩ := hStep
          exact h.release (by rw [hParsing]; rfl) rfl
      | abort r =>
          simp only [Worker.step, Option.ite_none_right_eq_some, Option.some.injEq] at hStep
          obtain ⟨hParsing, rfl⟩ := hStep
          exact h.keep (by rw [hParsing]; rfl) rfl s.request_queue
      | submit_request r max_tokens =>
          simp only [Worker.step, Option.ite_none_right_eq_some, Option.some.injEq] at hStep
          obtain ⟨hParsing, rfl⟩ := hStep
          exact h.keep (by rw [hParsing]; rfl) rfl (s.request_queue ++ [r])
      | _ => cases hReads

end Accounted

/-- A worker with what the threads of its server have read. -/
structure Server where
  worker : State
  /-- The body of each request whose thread has got a permit. -/
  bodies : RequestId → Option Body

namespace Server

/-- A thread reads its body in one go, and everybody else moves meanwhile. -/
inductive Event where
  | post (body : Body)
  | parse (r : RequestId) (now : ℚ)
  | move (l : Label)

/-- The move of a thread that has read its body. -/
def reading (literals : Literals) (cfg : Config) (r : RequestId) (now : ℚ) (body : Body) : Label :=
  match inference_request literals cfg now body with
  | .error _ => .abort r
  | .ok none => .refuse r
  | .ok (some req) => .submit_request r req.max_tokens

/-- A body arrives, is read, or the worker goes on. -/
def step (literals : Literals) (cfg : Config) (s : Server) : Event → Option Server
  | .post body =>
      some {
        worker := s.worker.inference
        bodies := if s.worker.worker_running = true ∧ 0 < s.worker.semaphore then
          Function.update s.bodies s.worker.nextRequest (some body)
          else s.bodies }
  | .parse r now => do
      let body ← s.bodies r
      let worker ← Worker.step cfg s.worker (reading literals cfg r now body)
      some { s with worker }
  | .move l =>
      if l.reads then none
      else (Worker.step cfg s.worker l).map fun worker => { s with worker }

/-- Apart from the number of its permits, a worker that has just started. -/
structure Initial (max_slots : Nat) (s : Server) : Prop where
  worker : Worker.Initial { s.worker with semaphore := 1 }
  semaphore : s.worker.semaphore = max_slots
  bodies : ∀ r, s.bodies r = none

/-- Any number of posts, and the worker behind them. -/
def machine (literals : Literals) (cfg : Config) (max_slots : Nat) : System Server Event :=
  ⟨Initial max_slots, step literals cfg⟩

/-- What is so of the bodies that have been read. -/
structure Read (literals : Literals) (cfg : Config) (s : Server) : Prop where
  fresh : ∀ r, s.worker.nextRequest ≤ r → s.bodies r = none
  raised : ∀ r, (s.worker.requests r).handler = .raised →
    ∃ body, s.bodies r = some body ∧ ¬ Readable literals cfg body
  read : ∀ r body, s.bodies r = some body → (s.worker.requests r).handler = .parsing ∨
    (s.worker.requests r).handler = .raised ∨ Readable literals cfg body

variable {literals : Literals} {s s' : Server} {event : Event} {now : ℚ} {body : Body}

/-- What becomes of a body: it is read, it is refused, or the handler raises. -/
theorem reading_cases (literals : Literals) (cfg : Config) (r : RequestId) (now : ℚ) (body : Body) :
    (reading literals cfg r now body = .abort r ∧ ¬ Readable literals cfg body) ∨
      (reading literals cfg r now body = .refuse r ∧ Readable literals cfg body) ∨
        ∃ max_tokens, reading literals cfg r now body = .submit_request r max_tokens ∧
          Readable literals cfg body := by
  have hRead : Readable literals cfg body ↔ Succeeds (inference_request literals cfg now body) :=
    succeeds_inference_request.symm
  unfold reading
  rw [hRead]
  cases hRequest : inference_request literals cfg now body with
  | error e => exact .inl ⟨rfl, not_succeeds_iff.mpr ⟨e, rfl⟩⟩
  | ok req =>
      cases req with
      | none => exact .inr (.inl ⟨rfl, none, rfl⟩)
      | some req => exact .inr (.inr ⟨req.max_tokens, rfl, some req, rfl⟩)

namespace Read

/-- The thread of one request is at another place, and what it has read accounts for that. -/
theorem setHandler (h : Read literals cfg s) {worker : State} (r : RequestId) (handler : Handler)
    (hNext : worker.nextRequest = s.worker.nextRequest)
    (hHandler : ∀ r', (worker.requests r').handler =
      if r' = r then handler else (s.worker.requests r').handler)
    (hRaised : handler = .raised → ∃ body, s.bodies r = some body ∧ ¬ Readable literals cfg body)
    (hRead : ∀ body, s.bodies r = some body → handler = .raised ∨ Readable literals cfg body) :
    Read literals cfg { s with worker } where
  fresh r' hLe := h.fresh r' (hNext ▸ hLe)
  raised r' hR := by
    change (worker.requests r').handler = .raised at hR
    rw [hHandler] at hR
    split at hR
    next hSame => exact hSame ▸ hRaised hR
    next => exact h.raised r' hR
  read r' body hBody := by
    change (worker.requests r').handler = _ ∨ (worker.requests r').handler = _ ∨ _
    rw [hHandler]
    split
    next hSame => exact .inr (hRead body (hSame ▸ hBody))
    next => exact h.read r' body hBody

/-- What is none of the handlers' business concerns no body. -/
theorem of_unheeded (h : Read literals cfg s) {worker : State} (hSame : Unheeded s.worker worker) :
    Read literals cfg { s with worker } where
  fresh r hLe := h.fresh r (hSame.nextRequest ▸ hLe)
  raised r hR := h.raised r (hSame.handler r ▸ hR)
  read r body hBody := by
    change (worker.requests r).handler = _ ∨ (worker.requests r).handler = _ ∨ _
    rw [hSame.handler]
    exact h.read r body hBody

/-- A request comes in, and its body is kept if its thread is going to read it. -/
theorem new (h : Read literals cfg s) {worker : State} {handler : Handler} {read : Option Body}
    (hNext : worker.nextRequest = s.worker.nextRequest + 1)
    (hHandler : ∀ r, (worker.requests r).handler =
      if r = s.worker.nextRequest then handler else (s.worker.requests r).handler)
    (hNew : handler ≠ .raised) (hRead : ∀ body ∈ read, handler = .parsing) :
    Read literals cfg { worker, bodies := Function.update s.bodies s.worker.nextRequest read } where
  fresh r hLe := by
    change worker.nextRequest ≤ r at hLe
    change Function.update s.bodies s.worker.nextRequest read r = none
    rw [hNext] at hLe
    rw [Function.update_of_ne (Nat.lt_of_succ_le hLe).ne']
    exact h.fresh r (Nat.le_of_succ_le hLe)
  raised r hR := by
    change (worker.requests r).handler = .raised at hR
    rw [hHandler] at hR
    split at hR
    next => exact absurd hR hNew
    next hOther =>
      change ∃ body, Function.update s.bodies s.worker.nextRequest read r = some body ∧ _
      rw [Function.update_of_ne hOther]
      exact h.raised r hR
  read r body hBody := by
    change Function.update s.bodies s.worker.nextRequest read r = some body at hBody
    change (worker.requests r).handler = _ ∨ (worker.requests r).handler = _ ∨ _
    rw [hHandler]
    split
    next hSame =>
      rw [hSame, Function.update_self] at hBody
      exact .inl (hRead body hBody)
    next hOther =>
      rw [Function.update_of_ne hOther] at hBody
      exact h.read r body hBody

/-- A body arrives. -/
theorem post (h : Read literals cfg s) (hStep : Server.step literals cfg s (.post body) = some s') :
    Read literals cfg s' := by
  obtain rfl := Option.some.inj hStep
  have hHandler (request : Request) (r : RequestId) :
      (Function.update s.worker.requests s.worker.nextRequest request r).handler =
        if r = s.worker.nextRequest then request.handler else (s.worker.requests r).handler := by
    rw [Function.update_apply]
    split <;> rfl
  by_cases hFree : s.worker.worker_running = true ∧ 0 < s.worker.semaphore
  · simp only [State.inference, if_pos hFree]
    exact h.new rfl (hHandler { handler := .parsing }) nofun fun _ _ => rfl
  · have hSame : s.bodies = Function.update s.bodies s.worker.nextRequest none := by
      rw [← h.fresh s.worker.nextRequest (Nat.le_refl _), Function.update_eq_self]
    simp only [State.inference, if_neg hFree]
    rw [hSame]
    exact h.new rfl (hHandler {}) nofun nofun

/-- A body is read. -/
theorem parse (h : Read literals cfg s) (hStep : Server.step literals cfg s (.parse r now) = some s') :
    Read literals cfg s' := by
  simp only [Server.step, Option.bind_eq_bind, Option.bind_eq_some_iff] at hStep
  obtain ⟨body, hBody, worker, hWorker, hSame⟩ := hStep
  obtain rfl := Option.some.inj hSame
  have hOnly {P : Body → Prop} (hP : P body) : ∀ b, s.bodies r = some b → P b := by
    intro b hb
    rw [hBody] at hb
    exact Option.some.inj hb ▸ hP
  rcases reading_cases literals cfg r now body with
    ⟨hLabel, hUnreadable⟩ | ⟨hLabel, hReadable⟩ | ⟨max_tokens, hLabel, hReadable⟩
  · rw [hLabel] at hWorker
    simp only [Worker.step, Option.ite_none_right_eq_some, Option.some.injEq] at hWorker
    obtain ⟨-, rfl⟩ := hWorker
    refine h.setHandler r .raised rfl (fun r' => ?_) (fun _ => ⟨body, hBody, hUnreadable⟩)
      (hOnly (.inl rfl))
    simp only [State.setHandler, State.setRequest, Function.update_apply]
    split <;> rfl
  · rw [hLabel] at hWorker
    simp only [Worker.step, Option.ite_none_right_eq_some, Option.some.injEq] at hWorker
    obtain ⟨-, rfl⟩ := hWorker
    refine h.setHandler r .refused rfl (fun r' => ?_) (fun hRaised => by cases hRaised)
      (hOnly (.inr hReadable))
    simp only [State.release, State.setHandler, State.setRequest, Function.update_apply]
    split <;> rfl
  · rw [hLabel] at hWorker
    simp only [Worker.step, Option.ite_none_right_eq_some, Option.some.injEq] at hWorker
    obtain ⟨-, rfl⟩ := hWorker
    refine h.setHandler r .waiting rfl (fun r' => ?_) (fun hRaised => by cases hRaised)
      (hOnly (.inr hReadable))
    simp only [State.submit_request, State.setRequest, Function.update_apply]
    split <;> rfl

/-- Every step keeps what is known of the bodies. -/
theorem step (h : Read literals cfg s) (hStep : Server.step literals cfg s event = some s') :
    Read literals cfg s' := by
  cases event with
  | post body => exact h.post hStep
  | parse r now => exact h.parse hStep
  | move l =>
      simp only [Server.step, Option.ite_none_left_eq_some, Option.map_eq_some_iff,
        Bool.not_eq_true] at hStep
      obtain ⟨hReads, worker, hWorker, rfl⟩ := hStep
      rcases unheeded_or_release hReads hWorker with hSame | ⟨r, handler, hWaiting, hNot, rfl⟩
      · exact h.of_unheeded hSame
      · refine h.setHandler r handler rfl (fun r' => ?_) ?_ fun body hBody => ?_
        · simp only [State.release, State.setHandler, State.setRequest, Function.update_apply]
          split <;> rfl
        · rintro rfl
          cases hNot
        · rcases h.read r body hBody with hOld | hOld | hReadable
          · rw [hWaiting] at hOld
            cases hOld
          · rw [hWaiting] at hOld
            cases hOld
          · exact .inr hReadable

end Read

/-- At the start all permits are there. -/
theorem Initial.accounted (h : Initial max_slots s) : Accounted max_slots s.worker := by
  have hHandler : ∀ r, s.worker.requests r = {} := h.worker.requests
  have hNobody : s.worker.holders = ∅ := by
    refine Finset.filter_false_of_mem fun r _ => ?_
    rw [hHandler]
    exact nofun
  refine ⟨?_, fun r _ => by rw [hHandler]⟩
  rw [hNobody, Finset.card_empty]
  exact h.semaphore

/-- At the start there are no bodies. -/
theorem Initial.read (h : Initial max_slots s) : Read literals cfg s where
  fresh r _ := h.bodies r
  raised r hR := by
    have hHandler : s.worker.requests r = {} := h.worker.requests r
    rw [hHandler] at hR
    cases hR
  read r body hBody := by
    rw [h.bodies] at hBody
    cases hBody

/-- Every step of the server keeps the account. -/
theorem Accounted.server_step (h : Accounted max_slots s.worker)
    (hStep : step literals cfg s event = some s') : Accounted max_slots s'.worker := by
  cases event with
  | post body =>
      obtain rfl := Option.some.inj hStep
      exact h.inference
  | parse r now =>
      simp only [step, Option.bind_eq_bind, Option.bind_eq_some_iff] at hStep
      obtain ⟨body, -, worker, hWorker, hSame⟩ := hStep
      obtain rfl := Option.some.inj hSame
      exact h.step hWorker
  | move l =>
      simp only [step, Option.ite_none_left_eq_some, Option.map_eq_some_iff] at hStep
      obtain ⟨-, worker, hWorker, rfl⟩ := hStep
      exact h.step hWorker

/-- What is invariant in every run of the server. -/
theorem permits_of_reach (run : (machine literals cfg max_slots).Reachable s) :
    Accounted max_slots s.worker ∧ Read literals cfg s :=
  run.invariant (fun s => Accounted max_slots s.worker ∧ Read literals cfg s)
    (fun _ (hInitial : Initial max_slots _) => ⟨hInitial.accounted, hInitial.read⟩)
    fun _ _ _ hOld _ hStep => ⟨Accounted.server_step hOld.1 hStep, hOld.2.step hStep⟩

/-- When all handlers have ended, only one that has raised can still have a permit. -/
theorem raised_of_holds (hIdle : s.worker.Idle)
    (hHolds : (s.worker.requests r).handler.holds = true) :
    (s.worker.requests r).handler = .raised := by
  obtain ⟨hParsing, hWaiting⟩ := hIdle r
  cases hHandler : (s.worker.requests r).handler with
  | raised => rfl
  | parsing => exact absurd hHandler hParsing
  | waiting => exact absurd hHandler hWaiting
  | refused | returned | gave_up =>
      rw [hHandler] at hHolds
      cases hHolds

/-- After any run, once all handlers are through, the semaphore has its permits again exactly if
every body that was read by a thread with a permit was readable. -/
theorem semaphore_restored_iff (run : (machine literals cfg max_slots).Reachable s)
    (hIdle : s.worker.Idle) :
    s.worker.semaphore = max_slots ↔
      ∀ r body, s.bodies r = some body → Readable literals cfg body := by
  obtain ⟨hAccounted, hRead⟩ := permits_of_reach run
  have hPermits := hAccounted.permits
  constructor
  · intro hFull r body hBody
    have hNobody : s.worker.holders = ∅ := Finset.card_eq_zero.mp (by omega)
    rcases hRead.read r body hBody with hParsing | hRaised | hReadable
    · exact absurd hParsing (hIdle r).1
    · have hMem : r ∈ s.worker.holders := hAccounted.mem_holders (by rw [hRaised]; rfl)
      rw [hNobody] at hMem
      exact absurd hMem (Finset.notMem_empty r)
    · exact hReadable
  · intro hReadable
    have hNobody : s.worker.holders = ∅ := by
      refine Finset.eq_empty_of_forall_notMem fun r hMem => ?_
      obtain ⟨body, hBody, hNot⟩ :=
        hRead.raised r (raised_of_holds hIdle (Finset.mem_filter.mp hMem).2)
      exact hNot (hReadable r body hBody)
    rw [hNobody, Finset.card_empty] at hPermits
    exact hPermits

/-- It is enough to look at the requests that have come in. -/
theorem idle_of_reach (run : (machine literals cfg max_slots).Reachable s)
    (hThrough : ∀ r < s.worker.nextRequest, (s.worker.requests r).handler ≠ .parsing ∧
      (s.worker.requests r).handler ≠ .waiting) : s.worker.Idle := by
  intro r
  by_cases hBorn : r < s.worker.nextRequest
  · exact hThrough r hBorn
  · rw [(permits_of_reach run).1.unborn r (Nat.le_of_not_lt hBorn)]
    exact ⟨nofun, nofun⟩

/-- Decimal literals only. -/
def decimals : Literals := ⟨String.toInt?, fun s => s.toInt?.map fun n => .finite n⟩

/-- A worker that listens, with one permit. -/
def listening : Server := ⟨started, fun _ => none⟩

/-- That is how it starts. -/
theorem listening_initial : Initial 1 listening := ⟨started_initial, rfl, fun _ => rfl⟩

/-- A request that its thread gives up at last. -/
def gives_up (data : List (String × Json)) : List Event :=
  [.post (.ok (.dict data)), .parse 0 0, .move (.timeout 0)]

/-- A body is read and its request times out, and the permit is back. -/
theorem semaphore_restored_of_timeout : ∃ s, (machine decimals oneLayer 1).Reachable s ∧
    (∃ body, s.bodies 0 = some body) ∧ (s.worker.semaphore = 1 ↔
      ∀ r body, s.bodies r = some body → Readable decimals oneLayer body) := by
  have hRun : ((machine decimals oneLayer 1).replay listening
      (gives_up [("prompt", .str "Hello"), ("top_k", .bool true)])).map (fun s =>
        ((s.bodies 0).isSome, s.worker.nextRequest, (s.worker.requests 0).handler)) =
      some (true, 1, .gave_up) := by decide +kernel
  obtain ⟨s, hReplay, hEnd⟩ := Option.map_eq_some_iff.mp hRun
  obtain ⟨hBody, hNext, hHandler⟩ := by simpa only [Prod.mk.injEq] using hEnd
  have run := System.reachable_of_replay (.start listening_initial) hReplay
  refine ⟨s, run, Option.isSome_iff_exists.mp hBody, semaphore_restored_iff run ?_⟩
  refine idle_of_reach run fun r hr => ?_
  obtain rfl : r = 0 := Nat.lt_one_iff.mp (hNext ▸ hr)
  rw [hHandler]
  exact ⟨nofun, nofun⟩

/-- An exception at the conversion of a field takes the only permit with it. -/
theorem permit_lost_to_null : ∃ s, (machine decimals oneLayer 1).Reachable s ∧ s.worker.Idle ∧
    s.worker.semaphore ≠ 1 := by
  have hRun : ((machine decimals oneLayer 1).replay listening
      ((gives_up [("prompt", .str "Hello"), ("max_tokens", .null)]).take 2)).map (fun s =>
        (s.worker.semaphore, s.worker.nextRequest, (s.worker.requests 0).handler)) =
      some (0, 1, .raised) := by decide +kernel
  obtain ⟨s, hReplay, hEnd⟩ := Option.map_eq_some_iff.mp hRun
  obtain ⟨hNone, hNext, hHandler⟩ := by simpa only [Prod.mk.injEq] using hEnd
  have run := System.reachable_of_replay (.start listening_initial) hReplay
  refine ⟨s, run, idle_of_reach run fun r hr => ?_, by rw [hNone]; decide⟩
  obtain rfl : r = 0 := Nat.lt_one_iff.mp (hNext ▸ hr)
  rw [hHandler]
  exact ⟨nofun, nofun⟩

end Server

end Worker
