import SwarmLoRA.Worker.Permit

namespace Worker

open Machine

/-- The worker has one slot at most, and every token of a request was written by
an LM_HEAD command for its slot, submitted in the call that has read the token. -/
structure SingleSlot (s : State) : Prop where
  single : ∀ slot_id ∈ s.slots, ∀ slot_id' ∈ s.slots, slot_id = slot_id'
  produced : ∀ r, ∀ token ∈ (s.requests r).generated_tokens, ∃ command ∈ s.submitted,
    token.command = some command ∧ command.op = .lm_head ∧ command.slot_id = token.slot_id ∧
      command.call = token.call

variable {cfg : Config} {s s' : State} {l : Label}

/-- The command that the engine waits for, with its copy of the active slots. -/
def Pc.waiting : Pc → Option (Dict × Command × Bool)
  | .sync slots command _ executed => some (slots, command, executed)
  | _ => none

/-- Where the tokens of the requests are from, and the one that the engine waits for: a command of
the same call, for the slot that the worker has. -/
structure Traced (s : State) : Prop where
  produced : ∀ r, ∀ token ∈ (s.requests r).generated_tokens, ∃ command ∈ s.submitted,
    token.command = some command ∧ command.op = .lm_head ∧ command.slot_id = token.slot_id ∧
      command.call = token.call
  waiting : ∀ slots command executed, s.pc.waiting = some (slots, command, executed) →
    command ∈ s.submitted ∧ command.call = s.calls ∧ (∃ r rest, slots = (command.slot_id, r) :: rest) ∧
      (executed = true → (s.output command.slot_id).command = some command)

/-- The slot of the command is one of the worker's. -/
theorem Invariant.listed_of_waiting (h : Invariant s) {r : RequestId} {rest : Dict}
    {command : Command} {executed : Bool}
    (hWaiting : s.pc.waiting = some ((command.slot_id, r) :: rest, command, executed)) :
    command.slot_id ∈ s.slots := by
  have hSlots : (command.slot_id, r) :: rest ∈ s.pc.slots := by
    cases hPc : s.pc with
    | sync slots command' ops executed' =>
        rw [hPc] at hWaiting
        simp only [Pc.waiting, Option.some.injEq, Prod.mk.injEq] at hWaiting
        rw [hWaiting.1]
        rfl
    | _ => simp [hPc, Pc.waiting] at hWaiting
  have hSettled : (command.slot_id, r) ∈ s.settled.entries := by
    apply List.mem_append_right
    rw [← h.copy _ hSlots]
    exact List.mem_cons_self
  have hEntry := (Table.run_entries h.entries s.todo).subset hSettled
  exact List.mem_map_of_mem hEntry

namespace Traced

/-- No request has got a token, and the engine does not wait for a command. -/
theorem of_idle (h : Traced s)
    (hTokens : ∀ r, ∀ token ∈ (s'.requests r).generated_tokens, ∃ r', token ∈ (s.requests r').generated_tokens)
    (hSubmitted : s'.submitted = s.submitted) (hPc : s'.pc.waiting = none) : Traced s' := by
  refine ⟨fun r token hToken => ?_, by simp [hPc]⟩
  obtain ⟨r', hOld⟩ := hTokens r token hToken
  rw [hSubmitted]
  exact h.produced r' token hOld

/-- No request has got a token, and the engine waits for the command it waited for. -/
theorem of_same (h : Traced s)
    (hTokens : ∀ r, ∀ token ∈ (s'.requests r).generated_tokens, ∃ r', token ∈ (s.requests r').generated_tokens)
    (hSubmitted : s'.submitted = s.submitted) (hPc : s'.pc = s.pc) (hCalls : s'.calls = s.calls)
    (hOutput : s'.output = s.output) : Traced s' := by
  refine ⟨fun r token hToken => ?_, ?_⟩
  · obtain ⟨r', hOld⟩ := hTokens r token hToken
    rw [hSubmitted]
    exact h.produced r' token hOld
  · rw [hSubmitted, hPc, hCalls, hOutput]
    exact h.waiting

/-- A token that is read from the output that the command of the call has written. -/
theorem get_token (h : Traced s) {e : SlotId × RequestId} {command : Command}
    (hSubmitted : command ∈ s.submitted) (hOp : command.op = .lm_head) (hCall : command.call = s.calls)
    (hSlot : command.slot_id = e.1) (hOutput : (s.output command.slot_id).command = some command) :
    ∀ r, ∀ token ∈ ((s.get_token e).requests r).generated_tokens, ∃ command ∈ s.submitted,
      token.command = some command ∧ command.op = .lm_head ∧ command.slot_id = token.slot_id ∧
        command.call = token.call := by
  intro r token hToken
  by_cases hr : r = e.2
  · simp only [State.get_token] at hToken
    split at hToken
    next =>
      simp only [State.setRequest, hr, Function.update_self, List.mem_append, List.mem_singleton] at hToken
      rcases hToken with hOld | rfl
      · exact h.produced e.2 token hOld
      · exact ⟨command, hSubmitted, by rw [← hSlot]; exact hOutput, hOp, hSlot, hCall⟩
    next =>
      simp only [State.setRequest, hr, Function.update_self] at hToken
      exact h.produced e.2 token hToken
  · have hSame : (s.get_token e).requests r = s.requests r := by
      simp only [State.get_token]
      split <;> exact Function.update_of_ne hr _ _
    rw [hSame] at hToken
    exact h.produced r token hToken

theorem waiting_next (s : State) (slots : Dict) (rest : List (Op × Nat)) :
    (s.next slots rest).pc.waiting = none := by
  cases rest <;> rfl

theorem of_next (h : Traced s) (slots : Dict) (rest : List (Op × Nat)) : Traced (s.next slots rest) := by
  cases rest with
  | nil => exact h.of_idle (fun r _ hToken => ⟨r, hToken⟩) rfl rfl
  | cons op rest => exact h.of_idle (fun r _ hToken => ⟨r, hToken⟩) rfl rfl

/-- The engine has the output of the command it has waited for. An LM_HEAD
command has been executed, and there is no slot but its own. -/
theorem collect (h : Traced s) (hInv : Invariant s) (hTodo : s.todo = []) {slots : Dict}
    {command : Command} {rest : List (Op × Nat)} {executed : Bool}
    (hPc : s.pc = .sync slots command rest executed) (hGuard : s.pc.unexecuted = false) :
    Traced (s.collect slots command rest) := by
  unfold State.collect
  split
  next => exact h.of_next slots rest
  next hOp =>
    have hExecuted : executed = true := by simpa [hPc, Pc.unexecuted, hOp] using hGuard
    obtain ⟨hSubmitted, hCall, ⟨r, others, rfl⟩, hOutput⟩ :=
      h.waiting slots command executed (by rw [hPc]; rfl)
    have hCopy : (command.slot_id, r) :: others = s.table.active_slots :=
      hInv.copy_eq hTodo (by rw [hPc]; rfl)
    have hOne := hInv.entries
    simp only [Table.entries, ← hCopy, List.length_append, List.length_cons] at hOne
    obtain rfl : others = [] := List.eq_nil_of_length_eq_zero (by omega)
    have hTokens := h.get_token (e := (command.slot_id, r)) hSubmitted hOp hCall rfl (hOutput hExecuted)
    have hFold : Traced ({ s with requests := (s.get_token (command.slot_id, r)).requests, pc := .loop }) :=
      ⟨hTokens, by simp [Pc.waiting]⟩
    rw [State.get_tokens_eq]
    exact hFold.of_idle (fun r' _ hToken => ⟨r', by cases rest <;> exact hToken⟩)
      (by cases rest <;> rfl) (waiting_next _ _ _)
  all_goals
    split
    next => exact h.of_next slots rest
    next => exact h.of_idle (fun r _ hToken => ⟨r, hToken⟩) rfl rfl

/-- Whatever the engine does, the tokens of the requests are from commands. -/
theorem engine (h : Traced s) (hInv : Invariant s) (hTodo : s.todo = []) {move : Move}
    (hGuard : Attended s (.engine move)) (hMove : Worker.engine cfg s move = some s') : Traced s' := by
  have hKeep : ∀ r, ∀ token ∈ (s.requests r).generated_tokens,
      ∃ r', token ∈ (s.requests r').generated_tokens := fun r _ hToken => ⟨r, hToken⟩
  cases engine_move hMove with
  | sync hPc => exact h.collect hInv hTodo hPc hGuard
  | @submit slot_id r slots op rest hPc =>
      refine ⟨fun r' token hToken => ?_, fun slots' command executed hWaiting => ?_⟩
      · obtain ⟨command, hSubmitted, hRest⟩ := h.produced r' token hToken
        exact ⟨command, List.mem_cons_of_mem _ hSubmitted, hRest⟩
      · simp only [State.submit, Pc.waiting, Option.some.injEq, Prod.mk.injEq] at hWaiting
        obtain ⟨rfl, rfl, rfl⟩ := hWaiting
        exact ⟨List.mem_cons_self, rfl, ⟨r, slots, rfl⟩, by simp⟩
  | @prepare slot_id length r hPc =>
      refine h.of_idle (fun r' token hToken => ?_) rfl rfl
      by_cases hr : r' = r
      · simp [hr, State.prepare, State.setRequest] at hToken
      · exact ⟨r', by simpa [hr, State.prepare, State.setRequest] using hToken⟩
  | activate hPc =>
      refine h.of_idle (fun r token hToken => ⟨r, ?_⟩) rfl rfl
      simp only [State.try_activate_pending_slots] at hToken
      split at hToken <;> exact hToken
  | generate hPc =>
      refine h.of_idle hKeep rfl ?_
      simp only [State.begin_call]
      split <;> rfl
  | snapshot | check | loop =>
      refine h.of_idle hKeep rfl ?_
      dsimp only
      repeat' split
      all_goals rfl
  | accepted | take | answer | wake | complete | recover => exact h.of_idle hKeep rfl rfl

theorem step (h : Traced s) (hInv : Invariant s) (hGuard : Attended s l)
    (hStep : Worker.step cfg s l = some s') : Traced s' := by
  have hHandler : ∀ r handler r', ∀ token ∈ ((s.setHandler r handler).requests r').generated_tokens,
      ∃ r'', token ∈ (s.requests r'').generated_tokens := by
    intro r handler r' token hToken
    refine ⟨r', ?_⟩
    by_cases hr : r' = r
    · simpa [hr, State.setHandler, State.setRequest] using hToken
    · simpa [hr, State.setHandler, State.setRequest] using hToken
  cases l with
  | inference =>
      obtain rfl := Option.some.inj hStep
      have hNew : ∀ handler r, ∀ token ∈ (Function.update s.requests s.nextRequest
          { handler } r).generated_tokens, ∃ r', token ∈ (s.requests r').generated_tokens := by
        intro handler r token hToken
        by_cases hr : r = s.nextRequest
        · simp [hr] at hToken
        · exact ⟨r, by simpa [hr] using hToken⟩
      unfold State.inference
      split
      next => exact h.of_same (hNew .parsing) rfl rfl rfl rfl
      next => exact h.of_same (hNew .refused) rfl rfl rfl rfl
  | refuse r =>
      simp only [Worker.step, Option.ite_none_right_eq_some, Option.some.injEq] at hStep
      obtain ⟨-, rfl⟩ := hStep
      exact h.of_same (hHandler r .refused) rfl rfl rfl rfl
  | abort r =>
      simp only [Worker.step, Option.ite_none_right_eq_some, Option.some.injEq] at hStep
      obtain ⟨-, rfl⟩ := hStep
      exact h.of_same (hHandler r .raised) rfl rfl rfl rfl
  | answer r =>
      simp only [Worker.step, Option.ite_none_right_eq_some, Option.some.injEq] at hStep
      obtain ⟨-, rfl⟩ := hStep
      exact h.of_same (hHandler r .returned) rfl rfl rfl rfl
  | timeout r =>
      simp only [Worker.step, Option.ite_none_right_eq_some, Option.some.injEq] at hStep
      obtain ⟨-, rfl⟩ := hStep
      exact h.of_same (hHandler r .gave_up) rfl rfl rfl rfl
  | submit_request r max_tokens =>
      simp only [Worker.step, Option.ite_none_right_eq_some, Option.some.injEq] at hStep
      obtain ⟨-, rfl⟩ := hStep
      refine h.of_same (fun r' token hToken => ⟨r', ?_⟩) rfl rfl rfl rfl
      by_cases hr : r' = r
      · simpa [hr, State.submit_request, State.setRequest] using hToken
      · simpa [hr, State.submit_request, State.setRequest] using hToken
  | engine move =>
      simp only [Worker.step, Option.ite_none_right_eq_some] at hStep
      exact h.engine hInv hStep.1 hGuard hStep.2
  | act =>
      simp only [Worker.step] at hStep
      split at hStep
      next => simp at hStep
      next =>
        obtain rfl := Option.some.inj hStep
        exact h.of_same (fun r _ hToken => ⟨r, hToken⟩) rfl rfl rfl rfl
  | raise =>
      simp only [Worker.step, Option.ite_none_right_eq_some, Option.some.injEq] at hStep
      obtain ⟨-, rfl⟩ := hStep
      exact h.of_idle (fun r _ hToken => ⟨r, hToken⟩) rfl rfl
  | execute value =>
      simp only [Worker.step] at hStep
      split at hStep
      next slots command rest hPc =>
        simp only [Option.ite_none_right_eq_some, Option.some.injEq] at hStep
        obtain ⟨-, rfl⟩ := hStep
        refine ⟨h.produced, fun slots' command' executed hWaiting => ?_⟩
        simp only [Pc.waiting, Option.some.injEq, Prod.mk.injEq] at hWaiting
        obtain ⟨rfl, rfl, rfl⟩ := hWaiting
        obtain ⟨hSubmitted, hCall, hHead, -⟩ := h.waiting slots command false (by rw [hPc]; rfl)
        exact ⟨hSubmitted, hCall, hHead, fun _ => by simp⟩
      next => simp at hStep
  | write slot_id value =>
      simp only [Worker.step, Option.ite_none_left_eq_some, Option.some.injEq] at hStep
      obtain ⟨hFree, rfl⟩ := hStep
      refine ⟨h.produced, fun slots command executed hWaiting => ?_⟩
      obtain ⟨hSubmitted, hCall, ⟨r, rest, rfl⟩, hOutput⟩ := h.waiting slots command executed hWaiting
      have hOther : command.slot_id ≠ slot_id := by
        rintro rfl
        exact hFree (hInv.listed_of_waiting hWaiting)
      refine ⟨hSubmitted, hCall, ⟨r, rest, rfl⟩, fun hExecuted => ?_⟩
      simpa [Function.update_of_ne hOther] using hOutput hExecuted
  | shutdown | stop | join slot_id | leave slot_id | evict slot_id =>
      obtain rfl := Option.some.inj hStep
      exact h.of_same (fun r _ hToken => ⟨r, hToken⟩) rfl rfl rfl rfl

end Traced

theorem Initial.invariant (hInitial : Initial s) : Invariant s := by
  have hSettled : s.settled = {} := by
    rw [State.settled_eq hInitial.todo, hInitial.table]
  have hEngaged : s.engaged = [] := by
    rw [State.engaged, hInitial.request_queue, hInitial.pc, hInitial.table]
    rfl
  have hHandler : ∀ r, (s.requests r).handler = .refused := fun r => by rw [hInitial.requests]
  refine ⟨?_, fun r _ => hHandler r, ?_, ?_, ?_, ?_, ?_, ?_, ?_, ?_, ?_, ?_, ?_⟩
  · exact Nat.le_of_eq hInitial.semaphore
  · simp [hHandler, Handler.holds]
  · simp [hHandler, Handler.holds]
  · simp [hEngaged]
  · simp [hEngaged]
  · simp [hInitial.request_queue, hInitial.pc, Pc.hand]
  · simp [hInitial.table, Table.entries]
  · simp [hSettled]
  · simp [hSettled, Table.entries]
  · simp [hHandler]
  · simp [hInitial.table, Table.entries]
  · simp [hInitial.pc, Pc.slots]

theorem Initial.traced (hInitial : Initial s) : Traced s :=
  ⟨by simp [hInitial.requests], by simp [hInitial.pc, Pc.waiting]⟩

theorem invariant_of_reach (run : (machine cfg).Reach Attended s) : Invariant s :=
  run.invariant Invariant (fun _ => Initial.invariant)
    fun _ _ _ hOld hGuard hStep => hOld.step hGuard hStep

/-- The worker has one slot at most and its tokens come from commands for that slot. It takes that
no request is let in while the engine still works for a thread that has given up, and that no round
ends without the `LM_HEAD` command that the engine waits for. -/
theorem single_slot_of_reach (run : (machine cfg).Reach Attended s) : SingleSlot s := by
  have h := invariant_of_reach run
  have hTraced : Traced s := run.invariant_of_reach Traced (fun _ => Initial.traced)
    fun _ _ _ prior hOld hGuard hStep => hOld.step (invariant_of_reach prior) hGuard hStep
  refine ⟨fun slot_id hSlot slot_id' hSlot' => ?_, hTraced.produced⟩
  have hLength : s.slots.length ≤ 1 := by
    rw [State.slots, List.length_map]
    exact h.entries
  obtain ⟨only, hOnly⟩ := List.length_eq_one_iff.mp
    (Nat.le_antisymm hLength (List.length_pos_of_mem hSlot))
  rw [hOnly] at hSlot hSlot'
  rw [List.mem_singleton.mp hSlot, List.mem_singleton.mp hSlot']

instance : ∀ s l, Decidable (Attended s l)
  | s, .inference => inferInstanceAs (Decidable (s.worker_running = true → 0 < s.semaphore →
      ∀ r ∈ s.engaged, (s.requests r).handler ≠ .gave_up))
  | s, .engine .sync => inferInstanceAs (Decidable (s.pc.unexecuted = false))
  | _, .refuse _ | _, .abort _ | _, .submit_request _ _ | _, .answer _ | _, .timeout _
  | _, .shutdown | _, .stop | _, .act | _, .raise | _, .execute _ | _, .join _ | _, .leave _
  | _, .evict _ | _, .write _ _ => .isTrue trivial
  | _, .engine .loop | _, .engine .take | _, .engine .prune | _, .engine .reject
  | _, .engine (.prepare _ _) | _, .engine (.activate _) | _, .engine .snapshot | _, .engine .wake
  | _, .engine (.generate _) | _, .engine .submit | _, .engine .check | _, .engine .complete
  | _, .engine .recover => .isTrue trivial

/-- A worker that has just started. -/
def started : State where
  worker_running := true
  engine_running := true
  semaphore := 1
  request_queue := []
  table := {}
  requests := fun _ => {}
  nextRequest := 0
  pc := .loop
  todo := []
  calls := 0
  submitted := []
  active_slot_mask := fun _ => false
  evicted_slot_mask := fun _ => false
  output := fun _ => ⟨0, none⟩

theorem started_initial : Initial started := ⟨rfl, rfl, rfl, fun _ => rfl, rfl, rfl⟩

/-- A model of one layer. -/
def oneLayer : Config where
  eos_token_id := none
  num_layers := 1
  max_seq_len := 64
  prefill_chunk_size := 16

/-- A request arrives. -/
def arrives (r : RequestId) (max_tokens : Int) : List Label := [.inference, .submit_request r max_tokens]

/-- The engine finds the request and gets a slot for it. -/
def accepted (slot_id : SlotId) : List Label :=
  [.engine .loop, .engine .take, .engine (.prepare slot_id 3)]

/-- The aggregator takes the slot in, and the engine goes on to its first call for it. -/
def activated (slot_id : SlotId) : List Label :=
  [.engine .take, .engine (.activate []), .engine .snapshot, .join slot_id, .engine .loop, .engine .take,
    .engine (.activate []), .act, .engine .snapshot]

/-- One token for the active slot, in six commands. -/
def called (token : Nat) : List Label :=
  .engine (.generate []) ::
    (List.replicate 6 [.engine .submit, .execute token, .engine .sync]).flatten ++ [.engine .check]

/-- The thread of a request gives it up, and the next request arrives when the
engine is through with it. -/
theorem single_slot_of_timeout : ∃ s, (machine oneLayer).Reach Attended s ∧
    s.slots = [1] ∧ (s.requests 0).generated_tokens.length = 1 ∧ SingleSlot s := by
  have hRun : ((machine oneLayer).replayUnder Attended started (arrives 0 1 ++ accepted 0 ++
      activated 0 ++ .timeout 0 :: called 7 ++ [.engine .complete, .act, .act] ++ arrives 1 1 ++
      accepted 1)).map (fun s => (s.slots, (s.requests 0).generated_tokens.length)) =
      some ([1], 1) := by decide +kernel
  obtain ⟨s, hReplay, hEnd⟩ := Option.map_eq_some_iff.mp hRun
  obtain ⟨hSlots, hTokens⟩ := Prod.mk.inj hEnd
  have run := System.reach_of_replayUnder (.start started_initial) hReplay
  exact ⟨s, run, hSlots, hTokens, single_slot_of_reach run⟩

/-- The thread gives its request up while the engine still makes tokens for it,
and the permit lets the next request in. -/
theorem timeout_admits_second_slot : ∃ s, (machine oneLayer).Reachable s ∧ ¬ SingleSlot s := by
  have hRun : ((machine oneLayer).replay started (arrives 0 9 ++ accepted 0 ++ activated 0 ++
      called 7 ++ .timeout 0 :: arrives 1 9 ++ called 8 ++ .engine .complete :: accepted 1)).map
      State.slots = some [1, 0] := by decide +kernel
  obtain ⟨s, hReplay, hSlots⟩ := Option.map_eq_some_iff.mp hRun
  refine ⟨s, System.reachable_of_replay (.start started_initial) hReplay, fun hSingle => ?_⟩
  have hSame := hSingle.single 1 (by rw [hSlots]; decide) 0 (by rw [hSlots]; decide)
  exact absurd hSame (by decide)

end Worker
