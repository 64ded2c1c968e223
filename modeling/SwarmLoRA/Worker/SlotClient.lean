import SwarmLoRA.Data.Framing
import SwarmLoRA.Machine.System

/-! The slot connection of a worker. A call sends one request and takes the next frame from the
connection as its response. There are no request ids, and a call whose receive has timed out
leaves the connection as it is for the next call. -/
namespace Worker.SlotClient

open Data.Framing Machine

/-- The largest payload that a receive takes. -/
def max_msg_bytes : Nat := 200 * 1024 * 1024

def socket_recv_buffer : Nat := 65536

inductive Request where
  | claim
  | release (slot_id : Int)
  deriving DecidableEq

/-- A release of a negative slot id returns before it sends anything. -/
def Request.is_sent : Request → Bool
  | .claim => true
  | .release slot_id => 0 ≤ slot_id

/-- `receiving` keeps what `recv_msg` has read of the current frame. -/
inductive Pc where
  | idle
  | receiving (got : Bytes)
  deriving DecidableEq

/-- A payload that a call has taken as its response: the number of its request, and the place
of the frame in all that the aggregator has sent. -/
structure Response where
  request : Nat
  start : Nat
  payload : Bytes
  deriving DecidableEq

/-- The lock of the socket is held for a whole call, so there is one call at a time. `replies`
are the payloads that the aggregator has sent, in the order of the requests, and `stream` are
the bytes of them that have not been read. Once `closed`, no more bytes come. -/
structure State where
  requests : List Request := []
  replies : List Bytes := []
  stream : Bytes := []
  consumed : Nat := 0
  closed : Bool := false
  pc : Pc := .idle
  responses : List Response := []

inductive Label where
  | send (request : Request)
  /-- The aggregator answers the oldest request that it has not answered. -/
  | reply (payload : Bytes)
  /-- The connection goes down, and so many of the unread bytes still come through. -/
  | close (left : Nat)
  /-- One `recv` of the socket returns so many bytes. -/
  | recv (count : Nat)
  | timeout
  | eof

namespace State

variable (s : State)

/-- What the aggregator has written so far. -/
def written : Bytes := s.replies.flatMap frame

/-- The rest of `recv_msg` when a `recv` has returned: a length over the limit raises, and a
whole frame is the response to the call. -/
def received (got : Bytes) (rest : Bytes) : State :=
  let s := { s with stream := rest, consumed := s.consumed + (s.stream.length - rest.length) }
  if 4 ≤ got.length ∧ max_msg_bytes < size got then { s with pc := .idle }
  else if complete got then
    { s with
      pc := .idle
      responses := s.responses ++
        [{ request := s.requests.length - 1
           start := s.consumed - got.length
           payload := got.drop 4 }] }
  else { s with pc := .receiving got }

end State

def step (s : State) : Label → Option State
  | .send request =>
      if s.pc = .idle ∧ request.is_sent then
        some { s with requests := s.requests ++ [request], pc := .receiving [] }
      else none
  | .reply payload =>
      if s.closed = false ∧ s.replies.length < s.requests.length ∧ payload.length < 2 ^ 32 then
        some { s with replies := s.replies ++ [payload], stream := s.stream ++ frame payload }
      else none
  | .close left =>
      if s.closed then none else some { s with closed := true, stream := s.stream.take left }
  | .recv count =>
      match s.pc with
      | .receiving got =>
          if 0 < count ∧ count ≤ s.stream.length ∧ count ≤ missing got ∧
              count ≤ socket_recv_buffer then
            some (s.received (got ++ s.stream.take count) (s.stream.drop count))
          else none
      | .idle => none
  | .timeout =>
      match s.pc with
      | .receiving _ => some { s with pc := .idle }
      | .idle => none
  | .eof =>
      match s.pc with
      | .receiving _ =>
          if s.stream = [] ∧ s.closed = true then some { s with pc := .idle } else none
      | .idle => none

def machine : System State Label where
  initial s := s = {}
  step := step

/-- Every response is the reply to the request of its call: it starts where the replies to the
earlier requests end, and it has the payload of the reply. -/
def Paired (s : State) : Prop :=
  ∀ p ∈ s.responses, s.replies[p.request]? = some p.payload ∧
    p.start = ((s.replies.take p.request).flatMap frame).length

/-- A request is sent when nothing of an earlier reply is still to come or to be read, and no
reply is over the limit. -/
def Prompt (s : State) : Label → Prop
  | .send _ => s.stream = [] ∧ (s.replies.length = s.requests.length ∨ s.closed = true)
  | .reply payload => payload.length ≤ max_msg_bytes
  | _ => True

instance (s : State) (l : Label) : Decidable (Prompt s l) :=
  match l with
  | .send _ => inferInstanceAs (Decidable (_ ∧ _))
  | .reply payload => inferInstanceAs (Decidable (payload.length ≤ max_msg_bytes))
  | .close _ | .recv _ | .timeout | .eof => inferInstanceAs (Decidable True)

/-- Where a call stands that has read `got` of its response: no byte will ever come, or the reply
is still to come, or the reply is being read. -/
inductive Reading (s : State) (got : Bytes) : Prop where
  | dead (hClosed : s.closed = true) (hEmpty : s.stream = [])
  | waiting (hNothing : got = []) (hEmpty : s.stream = [])
      (hNext : s.replies.length + 1 = s.requests.length)
  | within (payload : Bytes) (hReply : s.replies[s.requests.length - 1]? = some payload)
      (hLast : s.replies.length = s.requests.length) (hLimit : payload.length ≤ max_msg_bytes)
      (hPrefix : got ++ s.stream <+: frame payload)
      (hStart : s.consumed =
        ((s.replies.take (s.requests.length - 1)).flatMap frame).length + got.length)

structure Invariant (s : State) : Prop where
  flow : s.closed = false → s.consumed + s.stream.length = s.written.length
  bound : s.replies.length ≤ s.requests.length
  reading : ∀ got, s.pc = .receiving got → Reading s got
  paired : Paired s

namespace Invariant

variable {s s' : State}

theorem initial : Invariant {} := by
  constructor
  · intro _
    rfl
  · exact Nat.le_refl 0
  · rintro got ⟨⟩
  · rintro p ⟨⟩

theorem send (h : Invariant s) {request : Request} (hSettled : s.stream = [] ∧
    (s.replies.length = s.requests.length ∨ s.closed = true)) :
    Invariant { s with requests := s.requests ++ [request], pc := .receiving [] } := by
  obtain ⟨hEmpty, hAll⟩ := hSettled
  constructor
  · exact h.flow
  · show s.replies.length ≤ (s.requests ++ [request]).length
    rw [List.length_append]
    exact Nat.le_add_right_of_le h.bound
  · rintro got ⟨⟩
    rcases hAll with hReplied | hClosed
    · refine .waiting rfl hEmpty ?_
      show s.replies.length + 1 = (s.requests ++ [request]).length
      rw [List.length_append, List.length_singleton, hReplied]
    · exact .dead hClosed hEmpty
  · exact h.paired

theorem reply (h : Invariant s) {payload : Bytes} (hOpen : s.closed = false)
    (hOwed : s.replies.length < s.requests.length) (hLimit : payload.length ≤ max_msg_bytes) :
    Invariant { s with
      replies := s.replies ++ [payload], stream := s.stream ++ frame payload } := by
  have hFlow := h.flow hOpen
  constructor
  · intro _
    show s.consumed + (s.stream ++ frame payload).length =
      ((s.replies ++ [payload]).flatMap frame).length
    rw [List.flatMap_append, List.flatMap_singleton, List.length_append, List.length_append]
    unfold State.written at hFlow
    omega
  · show (s.replies ++ [payload]).length ≤ s.requests.length
    rw [List.length_append]
    exact hOwed
  · intro got hPc
    cases h.reading got hPc with
    | dead hClosed hEmpty =>
        rw [hOpen] at hClosed
        cases hClosed
    | waiting hNothing hEmpty hNext =>
        have hIndex : s.requests.length - 1 = s.replies.length := by omega
        refine .within payload ?_ ?_ hLimit ?_ ?_
        · show (s.replies ++ [payload])[s.requests.length - 1]? = some payload
          rw [hIndex]
          exact List.getElem?_concat_length
        · show (s.replies ++ [payload]).length = s.requests.length
          rw [List.length_append]
          exact hNext
        · show got ++ (s.stream ++ frame payload) <+: frame payload
          rw [hNothing, hEmpty]
          exact List.prefix_rfl
        · show s.consumed = (((s.replies ++ [payload]).take (s.requests.length - 1)).flatMap
            frame).length + got.length
          rw [hIndex, List.take_left' rfl, hNothing, List.length_nil, Nat.add_zero]
          rw [hEmpty] at hFlow
          exact hFlow
    | within other hReply hLast =>
        rw [hLast] at hOwed
        exact (Nat.lt_irrefl _ hOwed).elim
  · intro p hMem
    obtain ⟨hReply, hStart⟩ := h.paired p hMem
    have hBound : p.request < s.replies.length := (List.getElem?_eq_some_iff.mp hReply).1
    constructor
    · exact (List.getElem?_append_left hBound).trans hReply
    · show p.start = (((s.replies ++ [payload]).take p.request).flatMap frame).length
      rw [List.take_append_of_le_length (Nat.le_of_lt hBound)]
      exact hStart

theorem close (h : Invariant s) (left : Nat) :
    Invariant { s with closed := true, stream := s.stream.take left } where
  flow hOpen := by cases hOpen
  bound := h.bound
  reading got hPc := by
    cases h.reading got hPc with
    | dead hClosed hEmpty =>
        refine .dead rfl ?_
        show s.stream.take left = []
        rw [hEmpty, List.take_nil]
    | waiting hNothing hEmpty hNext =>
        refine .dead rfl ?_
        show s.stream.take left = []
        rw [hEmpty, List.take_nil]
    | within payload hReply hLast hLimit hPrefix hStart =>
        refine .within payload hReply hLast hLimit ?_ hStart
        exact ((List.prefix_append_right_inj got).mpr (List.take_prefix left s.stream)).trans
          hPrefix
  paired := h.paired

/-- A receive that gives up, whatever it has read. -/
theorem give_up (h : Invariant s) : Invariant { s with pc := .idle } :=
  { h with
    reading := by rintro got ⟨⟩ }

/-- Bytes move from the connection to the call. -/
theorem take (h : Invariant s) {rest : Bytes} {count : Nat}
    (hRest : rest.length + count = s.stream.length) {pc : Pc} (hPc : ∀ got, pc = .receiving got →
      Reading { s with stream := rest, consumed := s.consumed + count, pc := pc } got) :
    Invariant { s with stream := rest, consumed := s.consumed + count, pc := pc } where
  flow hOpen := by
    have hFlow := h.flow hOpen
    show s.consumed + count + rest.length = s.written.length
    omega
  bound := h.bound
  reading := hPc
  paired := h.paired

theorem respond (h : Invariant s) {p : Response}
    (hReply : s.replies[p.request]? = some p.payload)
    (hStart : p.start = ((s.replies.take p.request).flatMap frame).length) :
    Invariant { s with responses := s.responses ++ [p] } :=
  { h with
    reading := by
      intro got hPc
      cases h.reading got hPc with
      | dead hClosed hEmpty => exact .dead hClosed hEmpty
      | waiting hNothing hEmpty hNext => exact .waiting hNothing hEmpty hNext
      | within payload hReply hLast hLimit hPrefix hStart =>
          exact .within payload hReply hLast hLimit hPrefix hStart
    paired := by
      intro q hMem
      rcases List.mem_append.mp hMem with hOld | hNew
      · exact h.paired q hOld
      · rw [List.mem_singleton.mp hNew]
        exact ⟨hReply, hStart⟩ }

theorem recv (h : Invariant s) {got : Bytes} (hPc : s.pc = .receiving got) {count : Nat}
    (hCount : 0 < count) (hThere : count ≤ s.stream.length) :
    Invariant (s.received (got ++ s.stream.take count) (s.stream.drop count)) := by
  have hRest : (s.stream.drop count).length + count = s.stream.length := by
    rw [List.length_drop]
    omega
  have hMoved : s.stream.length - (s.stream.drop count).length = count := by omega
  have hSome : s.stream ≠ [] := by
    intro hEmpty
    rw [hEmpty, List.length_nil] at hThere
    omega
  cases h.reading got hPc with
  | dead hClosed hEmpty => exact (hSome hEmpty).elim
  | waiting hNothing hEmpty hNext => exact (hSome hEmpty).elim
  | within payload hReply hLast hLimit hPrefix hStart =>
      have hFits : payload.length < 2 ^ 32 := by
        unfold max_msg_bytes at hLimit
        omega
      have hWhole : (got ++ s.stream.take count) ++ s.stream.drop count <+: frame payload := by
        rw [List.append_assoc, List.take_append_drop]
        exact hPrefix
      have hGot : got ++ s.stream.take count <+: frame payload :=
        (List.prefix_append _ _).trans hWhole
      have hLength : (got ++ s.stream.take count).length = got.length + count := by
        rw [List.length_append, List.length_take, Nat.min_eq_left hThere]
      unfold State.received
      dsimp only
      rw [hMoved]
      split
      · rename_i hOver
        rw [size_of_part hFits hGot hOver.1] at hOver
        exact (Nat.not_lt_of_le hLimit hOver.2).elim
      · split
        · rename_i hComplete
          have hFrame := (complete_iff hFits hGot).mp hComplete
          have hTaken : Invariant { s with
              stream := s.stream.drop count, consumed := s.consumed + count, pc := .idle } :=
            h.take hRest (by rintro other ⟨⟩)
          apply hTaken.respond
          · rw [hFrame, drop_frame]
            exact hReply
          · show s.consumed + count - (got ++ s.stream.take count).length = _
            rw [hStart, hLength]
            show _ = ((s.replies.take (s.requests.length - 1)).flatMap frame).length
            omega
        · apply h.take hRest
          rintro other ⟨⟩
          refine .within payload hReply hLast hLimit hWhole ?_
          show s.consumed + count = _
          rw [hStart, hLength, Nat.add_assoc]

theorem step (h : Invariant s) {l : Label} (hPrompt : Prompt s l)
    (hStep : SlotClient.step s l = some s') : Invariant s' := by
  cases l with
  | send request =>
      simp only [SlotClient.step] at hStep
      split at hStep
      · obtain rfl := Option.some.inj hStep
        exact h.send hPrompt
      · cases hStep
  | reply payload =>
      simp only [SlotClient.step] at hStep
      split at hStep
      · rename_i hReply
        obtain rfl := Option.some.inj hStep
        exact h.reply hReply.1 hReply.2.1 hPrompt
      · cases hStep
  | close left =>
      simp only [SlotClient.step] at hStep
      split at hStep
      · cases hStep
      · obtain rfl := Option.some.inj hStep
        exact h.close left
  | recv count =>
      simp only [SlotClient.step] at hStep
      split at hStep
      · rename_i got hPc
        split at hStep
        · rename_i hCount
          obtain rfl := Option.some.inj hStep
          exact h.recv hPc hCount.1 hCount.2.1
        · cases hStep
      · cases hStep
  | timeout =>
      simp only [SlotClient.step] at hStep
      split at hStep
      · obtain rfl := Option.some.inj hStep
        exact h.give_up
      · cases hStep
  | eof =>
      simp only [SlotClient.step] at hStep
      split at hStep
      · split at hStep
        · obtain rfl := Option.some.inj hStep
          exact h.give_up
        · cases hStep
      · cases hStep

end Invariant

/-- When requests are only sent on a connection that owes nothing and has nothing left to read,
every response is the reply to the request of its call. -/
theorem paired_of_reach {s : State} (run : machine.Reach Prompt s) : Paired s := by
  have hInvariant : Invariant s := by
    apply run.invariant Invariant
    · rintro _ rfl
      exact Invariant.initial
    · intro s l s' hPrior hPrompt hStep
      exact hPrior.step hPrompt hStep
  exact hInvariant.paired

/-- Two claims, and the bytes of the replies come in two pieces each. -/
def promptClaims : List Label :=
  [ .send .claim, .reply [48], .recv 3, .recv 1, .recv 1,
    .send .claim, .reply [49], .recv 4, .recv 1 ]

theorem paired_of_prompt_claims : ∃ s, machine.Reach Prompt s ∧
    s.responses = [⟨0, 0, [48]⟩, ⟨1, 5, [49]⟩] ∧ Paired s := by
  have hRun : (machine.replayUnder Prompt {} promptClaims).map (·.responses) =
      some [⟨0, 0, [48]⟩, ⟨1, 5, [49]⟩] := by decide +kernel
  obtain ⟨s, hReplay, hResponses⟩ := Option.map_eq_some_iff.mp hRun
  have run := System.reach_of_replayUnder (.start rfl) hReplay
  exact ⟨s, run, hResponses, paired_of_reach run⟩

/-- The first claim times out before its reply comes, and another claim follows. -/
def lateReply : List Label :=
  [ .send .claim, .timeout, .send .claim, .reply [48], .reply [49], .recv 4, .recv 1 ]

/-- The second claim takes the reply to the first one as its response. -/
theorem late_reply_answers_next_claim : ∃ s, machine.Reachable s ∧
    s.replies = [[48], [49]] ∧ s.responses = [⟨1, 0, [48]⟩] ∧ ¬Paired s := by
  have hRun : (machine.replay {} lateReply).map (fun s => (s.replies, s.responses)) =
      some ([[48], [49]], [⟨1, 0, [48]⟩]) := by decide +kernel
  obtain ⟨s, hReplay, hEnd⟩ := Option.map_eq_some_iff.mp hRun
  obtain ⟨hReplies, hResponses⟩ := Prod.mk.inj hEnd
  refine ⟨s, System.reachable_of_replay (.start rfl) hReplay, hReplies, hResponses, ?_⟩
  intro hPaired
  have hFirst := (hPaired ⟨1, 0, [48]⟩ (by rw [hResponses]; exact List.mem_singleton_self _)).1
  rw [hReplies] at hFirst
  exact absurd hFirst (by decide)

end Worker.SlotClient
