import SwarmLoRA.Data.Framing
import SwarmLoRA.Data.Stream
import SwarmLoRA.Worker.WireCodec

namespace Worker.Wire

open Data Framing Stream

def _MAX_MSG_BYTES : Nat := 200 * 1024 * 1024

def _SOCKET_RECV_BUFFER : Nat := 65536

variable (json : JsonText)

/-- The bytes that go out for a message. -/
def send_msg (v : Value) : Except Failure Bytes := do
  let data ← body json v
  if data.length < 2 ^ 32 then .ok (frame data)
  else .error (.struct_error "'I' format requires 0 <= number <= 4294967295")

def send_msgs : List Value → Except Failure Bytes
  | [] => .ok []
  | v :: rest => do
      let first ← send_msg json v
      let more ← send_msgs rest
      return first ++ more

/-- The two loops, with the check of the length between them. -/
def recv_msg (s : Socket) : Except Failure Value × Socket :=
  match fill 4 4 [] s with
  | (none, s) => (.error (.connection_error "Connection closed during recv"), s)
  | (some raw_len, s) =>
      let size := unpack raw_len
      if _MAX_MSG_BYTES < size then
        (.error (.value_error s!"Message too large: {size} bytes"), s)
      else
        match fill _SOCKET_RECV_BUFFER size [] s with
        | (none, s) => (.error (.connection_error "Connection closed mid-message"), s)
        | (some data, s) => (read json data, s)

def recv_msgs : Nat → Socket → List (Except Failure Value) × Socket
  | 0, s => ([], s)
  | n + 1, s =>
      let first := recv_msg json s
      let more := recv_msgs n first.2
      (first.1 :: more.1, more.2)

section Receive

variable {s : Socket} {header payload more : Bytes}

theorem recv_msg_of_header (hLength : header.length = 4) (hRest : s.rest = header ++ more) :
    ∃ t : Socket, t.rest = more ∧ recv_msg json s =
      if _MAX_MSG_BYTES < unpack header then
        let size := unpack header
        (.error (.value_error s!"Message too large: {size} bytes"), t)
      else
        match fill _SOCKET_RECV_BUFFER (unpack header) [] t with
        | (none, t) => (.error (.connection_error "Connection closed mid-message"), t)
        | (some data, t) => (read json data, t) := by
  obtain ⟨hResult, hLeft⟩ := fill_of_append (by omega : 0 < 4) hRest
  rw [hLength] at hResult hLeft
  refine ⟨(fill 4 4 [] s).2, hLeft, ?_⟩
  unfold recv_msg
  rw [show fill 4 4 [] s = (some header, (fill 4 4 [] s).2) from Prod.ext hResult rfl]

/-- A message is read to its end and no further. -/
theorem recv_msg_of_frame (hSize : payload.length ≤ _MAX_MSG_BYTES)
    (hRest : s.rest = frame payload ++ more) :
    (recv_msg json s).1 = read json payload ∧ (recv_msg json s).2.rest = more := by
  have hUnpack : unpack (pack payload.length) = payload.length := by
    apply unpack_pack
    unfold _MAX_MSG_BYTES at hSize
    omega
  rw [frame, List.append_assoc] at hRest
  obtain ⟨t, hLeft, hRecv⟩ := recv_msg_of_header json (length_pack _) hRest
  rw [hUnpack, if_neg (Nat.not_lt.mpr hSize)] at hRecv
  obtain ⟨hResult, hMore⟩ := fill_of_append (by decide : 0 < _SOCKET_RECV_BUFFER) hLeft
  rw [show fill _SOCKET_RECV_BUFFER payload.length [] t = (some payload, _) from
    Prod.ext hResult rfl] at hRecv
  rw [hRecv]
  exact ⟨rfl, hMore⟩

/-- A length above the cap is refused before any byte of the payload is read. -/
theorem recv_msg_of_large (hLength : header.length = 4) (hLarge : _MAX_MSG_BYTES < unpack header)
    (hRest : s.rest = header ++ more) :
    (recv_msg json s).1 =
        (let size := unpack header
         .error (.value_error s!"Message too large: {size} bytes")) ∧
      (recv_msg json s).2.rest = more := by
  obtain ⟨t, hLeft, hRecv⟩ := recv_msg_of_header json hLength hRest
  rw [if_pos hLarge] at hRecv
  rw [hRecv]
  exact ⟨rfl, hLeft⟩

/-- A stream that ends inside a frame leads to an error. -/
theorem recv_msg_of_short (hSize : payload.length ≤ _MAX_MSG_BYTES)
    (hPart : s.rest <+: frame payload) (hShort : s.rest ≠ frame payload) :
    ∃ text, (recv_msg json s).1 = .error (.connection_error text) := by
  have hUnpack : unpack (pack payload.length) = payload.length := by
    apply unpack_pack
    unfold _MAX_MSG_BYTES at hSize
    omega
  have hLess : s.rest.length < 4 + payload.length := by
    rw [← length_frame]
    exact Nat.lt_of_le_of_ne hPart.length_le fun h => hShort (hPart.eq_of_length h)
  by_cases hHeader : s.rest.length < 4
  · refine ⟨"Connection closed during recv", ?_⟩
    have hNone : (fill 4 4 [] s).1 = none := fill_of_short hHeader
    unfold recv_msg
    rw [show fill 4 4 [] s = (none, (fill 4 4 [] s).2) from Prod.ext hNone rfl]
  · refine ⟨"Connection closed mid-message", ?_⟩
    have hTake := take_of_part hPart (by omega)
    have hRest : s.rest = pack payload.length ++ s.rest.drop 4 := by
      rw [← hTake, List.take_append_drop]
    obtain ⟨t, hLeft, hRecv⟩ := recv_msg_of_header json (length_pack _) hRest
    rw [hUnpack, if_neg (Nat.not_lt.mpr hSize)] at hRecv
    have hNone : (fill _SOCKET_RECV_BUFFER payload.length [] t).1 = none := by
      apply fill_of_short
      rw [hLeft, List.length_drop, List.length_nil]
      omega
    rw [show fill _SOCKET_RECV_BUFFER payload.length [] t = (none, _) from
      Prod.ext hNone rfl] at hRecv
    rw [hRecv]

/-- Every call of `recv` but the last one takes a byte from the stream. -/
theorem calls_recv_msg_le (s : Socket) :
    (recv_msg json s).2.calls + (recv_msg json s).2.rest.length ≤
      s.calls + s.rest.length + 1 := by
  have hHeader := calls_fill_le 4 4 [] s
  unfold recv_msg
  cases hFill : fill 4 4 [] s with
  | mk got t =>
      rw [hFill] at hHeader
      cases got with
      | none => exact hHeader
      | some raw_len =>
          have hBody := calls_fill_le _SOCKET_RECV_BUFFER (unpack raw_len) [] t
          dsimp only at hHeader ⊢
          rw [Option.isSome_some, if_pos rfl] at hHeader
          split
          · exact Nat.le_succ_of_le hHeader
          · cases hBodyFill : fill _SOCKET_RECV_BUFFER (unpack raw_len) [] t with
            | mk data t' =>
                rw [hBodyFill] at hBody
                cases data with
                | none => exact hBody.trans (Nat.succ_le_succ hHeader)
                | some data => exact hBody.trans (Nat.le_succ_of_le hHeader)

end Receive

/-- Messages that can be sent and are not too long, with the bytes that go out for them. -/
structure Sendable (messages : List Value) (stream : Bytes) : Prop where
  sent : send_msgs json messages = .ok stream
  short : ∀ v ∈ messages, ∀ data, body json v = .ok data → data.length ≤ _MAX_MSG_BYTES
  keeps : ∀ v ∈ messages, json.Keeps v

/-- What is expected of a socket, for these messages and at any other time: they are delivered in
order and whole, a stream that ends early and a message that is too long are errors, and no call
reads for ever. -/
structure Framed (messages : List Value) (stream : Bytes) : Prop where
  delivered : ∀ (s : Socket) (more : Bytes), s.rest = stream ++ more →
    (recv_msgs json messages.length s).1 = messages.map (fun v => .ok v.listed) ∧
      (recv_msgs json messages.length s).2.rest = more
  truncated : ∀ (s : Socket) (payload : Bytes), payload.length ≤ _MAX_MSG_BYTES →
    s.rest <+: frame payload → s.rest ≠ frame payload →
      ∃ text, (recv_msg json s).1 = .error (.connection_error text)
  refused : ∀ (s : Socket) (header more : Bytes), header.length = 4 →
    _MAX_MSG_BYTES < unpack header → s.rest = header ++ more →
      (recv_msg json s).1 =
          (let size := unpack header
           .error (.value_error s!"Message too large: {size} bytes")) ∧
        (recv_msg json s).2.rest = more
  finite : ∀ s : Socket, (recv_msg json s).2.calls + (recv_msg json s).2.rest.length ≤
    s.calls + s.rest.length + 1

section Messages

variable {json} {messages : List Value} {stream : Bytes}

theorem recv_msgs_of_sendable (h : Sendable json messages stream) {s : Socket} {more : Bytes}
    (hRest : s.rest = stream ++ more) :
    (recv_msgs json messages.length s).1 = messages.map (received json) ∧
      (recv_msgs json messages.length s).2.rest = more := by
  induction messages generalizing stream s with
  | nil =>
      obtain rfl := Except.ok.inj h.sent
      exact ⟨rfl, hRest⟩
  | cons v rest ih =>
      obtain ⟨first, hFirst, hRestSent⟩ := bind_ok_iff.mp h.sent
      obtain ⟨others, hOthers, hStream⟩ := bind_ok_iff.mp hRestSent
      obtain rfl := Except.ok.inj hStream
      obtain ⟨data, hBody, hFrame⟩ := bind_ok_iff.mp hFirst
      have hShort := h.short v List.mem_cons_self data hBody
      rw [if_pos (by unfold _MAX_MSG_BYTES at hShort; omega)] at hFrame
      obtain rfl := Except.ok.inj hFrame
      rw [List.append_assoc] at hRest
      obtain ⟨hRead, hLeft⟩ := recv_msg_of_frame json hShort hRest
      have hOthersSendable : Sendable json rest others :=
        ⟨hOthers, fun v' hMem => h.short v' (List.mem_cons_of_mem v hMem),
          fun v' hMem => h.keeps v' (List.mem_cons_of_mem v hMem)⟩
      obtain ⟨hMessages, hMore⟩ := ih hOthersSendable hLeft
      have hReceived : received json v = read json data := by
        unfold received
        rw [hBody]
        rfl
      rw [List.length_cons, recv_msgs, hMessages, hMore, hRead, ← hReceived]
      exact ⟨rfl, rfl⟩

/-- Messages come through, in order and whole, just when each of them is plain, however the socket
cuts the stream. A stream that ends early and a body over the limit are errors, the latter before
anything of the body is read. -/
theorem framed_iff (h : Sendable json messages stream) :
    Framed json messages stream ↔ ∀ v ∈ messages, v.plain false = true := by
  constructor
  · intro hFramed v hMem
    have hRest : ({ rest := stream, cuts := fun _ => 1 } : Socket).rest = stream ++ [] :=
      (List.append_nil stream).symm
    have hSame := (hFramed.delivered _ [] hRest).1
    rw [(recv_msgs_of_sendable h hRest).1] at hSame
    have hReceived := List.map_inj_left.mp hSame v hMem
    exact (v.arrives_iff false).mp ((received_iff (h.keeps v hMem)).mp hReceived)
  · intro hPlain
    constructor
    · intro s more hRest
      obtain ⟨hMessages, hLeft⟩ := recv_msgs_of_sendable h hRest
      refine ⟨?_, hLeft⟩
      rw [hMessages]
      apply List.map_congr_left
      intro v hMem
      exact (received_iff (h.keeps v hMem)).mpr ((v.arrives_iff false).mpr (hPlain v hMem))
    · intro s payload hSize hPart hShort
      exact recv_msg_of_short json hSize hPart hShort
    · intro s header more hLength hLarge hRest
      exact recv_msg_of_large json hLength hLarge hRest
    · exact calls_recv_msg_le json

end Messages

theorem sendable_oneDocument {text : String} {j : Json} {v : Value}
    (hDumps : v.encode.to_json = .ok j) (hShort : text.toList.length ≤ _MAX_MSG_BYTES) :
    Sendable (oneDocument text j) [v] (frame ((oneDocument text j).dumps j)) := by
  have hLength : ((oneDocument text j).dumps j).length = text.toList.length := List.length_map _
  have hBody : body (oneDocument text j) v = .ok ((oneDocument text j).dumps j) := by
    unfold body
    rw [hDumps]
    rfl
  constructor
  · have hSend : send_msg (oneDocument text j) v =
        .ok (frame ((oneDocument text j).dumps j)) := by
      unfold send_msg
      rw [hBody]
      refine if_pos ?_
      unfold _MAX_MSG_BYTES at hShort
      omega
    rw [send_msgs, hSend]
    exact congrArg Except.ok (List.append_nil _)
  · intro v' hMem data hData
    rw [List.mem_singleton.mp hMem, hBody] at hData
    rw [← Except.ok.inj hData, hLength]
    exact hShort
  · intro v' hMem
    rw [List.mem_singleton.mp hMem]
    exact keeps_oneDocument hDumps

/-- The text of a document that has nothing but a type. -/
def typed_text (type : String) : Bytes :=
  ("\x7b\"type\": \"" ++ type ++ "\"\x7d").toList.map fun c => UInt8.ofNat c.toNat

/-- A text library as far as two such documents go. -/
def ready_or_done : JsonText where
  dumps
    | .object [(_, .str type)] => typed_text type
    | _ => []
  loads data :=
    .ok (.object [("type", .str (if data = typed_text "ready" then "ready" else "done"))])

def ready_and_done : List Value := [.dict [("type", .str "ready")], .dict [("type", .str "done")]]

theorem sendable_ready_and_done : Sendable ready_or_done ready_and_done
    (frame (typed_text "ready") ++ frame (typed_text "done")) where
  sent := by rfl
  short v hMem data hData := by
    rw [ready_and_done, List.mem_pair] at hMem
    rcases hMem with rfl | rfl
    · cases hData
      decide
    · cases hData
      decide
  keeps v hMem := by
    rw [ready_and_done, List.mem_pair] at hMem
    rcases hMem with rfl | rfl <;> intro j hJson <;> cases hJson <;> rfl

/-- Two messages on a socket that hands out up to twelve bytes at a time. A piece of twelve would run
from the first frame into the second. -/
theorem framed_ready_and_done : ∃ stream, Framed ready_or_done ready_and_done stream ∧
    (recv_msgs ready_or_done 2 { rest := stream, cuts := fun _ => 12 }).1 =
      ready_and_done.map .ok := by
  have hFramed := (framed_iff sendable_ready_and_done).mpr (by decide)
  refine ⟨_, hFramed, ?_⟩
  exact (hFramed.delivered _ [] (List.append_nil _).symm).1

/-- A message may be a dictionary with the marker for its only key. -/
theorem marked_message_is_lost : ¬∀ (json : JsonText) (messages : List Value) (stream : Bytes),
    Sendable json messages stream → Framed json messages stream := by
  intro h
  have hSendable : Sendable (oneDocument "\x7b\"__b64__\": \"YQ==\"\x7d"
      (.object [("__b64__", .str "YQ==")])) [.dict [("__b64__", .str "YQ==")]] _ :=
    sendable_oneDocument rfl (by decide)
  have hRest : ∀ stream : Bytes,
      ({ rest := stream, cuts := fun _ => 1 } : Socket).rest = stream ++ [] :=
    fun stream => (List.append_nil stream).symm
  have hBack := ((h _ _ _ hSendable).delivered _ [] (hRest _)).1
  rw [(recv_msgs_of_sendable hSendable (hRest _)).1] at hBack
  have hBytes : received (oneDocument "\x7b\"__b64__\": \"YQ==\"\x7d"
      (.object [("__b64__", .str "YQ==")])) (.dict [("__b64__", .str "YQ==")]) =
        .ok (.bytes [97]) := rfl
  rw [List.map_singleton, hBytes] at hBack
  cases hBack

end Worker.Wire
