import SwarmLoRA.Worker.Permit

namespace Worker

variable {cfg : Config} {s s' : State} {r : RequestId}

/-- The slots of the call that is under way. -/
def Pc.running : Pc → Option Dict
  | .submit slots _ _ | .sync slots _ _ _ => some slots
  | _ => none

/-- What is still to be submitted in the call that is under way. -/
def Pc.commands : Pc → List (Op × Nat)
  | .submit _ op rest => op :: rest
  | .sync _ _ rest _ => rest
  | _ => []

/-- The requests that the engine can still come upon. -/
def State.inside (s : State) : List RequestId :=
  s.request_queue ++ s.pc.hand ++ (s.table.entries ++ s.pc.slots.getD []).map Prod.snd

/-- The thread of the request is through with it, and so is the engine. -/
def State.finished (s : State) (r : RequestId) : Bool :=
  ((s.requests r).handler = .returned ∨ (s.requests r).handler = .gave_up) ∧ r ∉ s.inside

/-- A call goes on with its slots and with the rest of its commands, or the next one begins. -/
def Onward (cfg : Config) (s s' : State) : Prop :=
  (s'.calls = s.calls ∧ (∀ slots ∈ s'.pc.running, slots ∈ s.pc.running) ∧
    s'.pc.commands ⊆ s.pc.commands) ∨
      (s'.calls = s.calls + 1 ∧ s'.pc.commands ⊆ ops cfg.num_layers)

/-- What is left over from a step: requests and calls that were there before. Only a thread that is
parsing can bring in a request. -/
structure Continues (cfg : Config) (s s' : State) : Prop where
  inside : ∀ r ∈ s'.inside, r ∈ s.inside ∨ (s.requests r).handler = .parsing
  born : s.nextRequest ≤ s'.nextRequest
  handler : ∀ r, (s'.requests r).handler = (s.requests r).handler ∨
    (r = s.nextRequest ∧ r < s'.nextRequest) ∨ (s.requests r).handler = .parsing ∨
      (s.requests r).handler = .waiting
  onward : Onward cfg s s'

namespace Dict

/-- An entry is new or was there. -/
theorem mem_of_set {d : Dict} {slot_id : SlotId} {e : SlotId × RequestId}
    (h : e ∈ d.set slot_id r) : e ∈ d ∨ e = (slot_id, r) := by
  unfold set at h
  split at h
  · obtain ⟨e', hOld, hSame⟩ := List.mem_map.mp h
    split at hSame
    · exact .inr hSame.symm
    · exact .inl (hSame ▸ hOld)
  · rcases List.mem_append.mp h with hOld | hNew
    · exact .inl hOld
    · exact .inr (List.mem_singleton.mp hNew)

/-- What is left was there. -/
theorem mem_of_pop {d : Dict} {slot_id : SlotId} {e : SlotId × RequestId}
    (h : e ∈ d.pop slot_id) : e ∈ d :=
  (List.mem_filter.mp h).1

/-- What is looked up is there. -/
theorem mem_of_lookup {d : Dict} {slot_id : SlotId} (h : d.lookup slot_id = some r) :
    (slot_id, r) ∈ d := by
  induction d with
  | nil => cases h
  | cons e d ih =>
      rw [List.lookup_cons] at h
      split at h
      · rename_i hSame
        obtain rfl := eq_of_beq hSame
        obtain rfl := Option.some.inj h
        exact List.mem_cons_self
      · exact List.mem_cons_of_mem e (ih h)

end Dict

namespace Table

/-- No action makes an entry. -/
theorem mem_of_act {t : Table} {action : Action} {e : SlotId × RequestId}
    (h : e ∈ (t.act action).entries) : e ∈ t.entries := by
  cases action with
  | set_future r => exact h
  | pop_pending slot_id =>
      rcases List.mem_append.mp h with hPending | hActive
      · exact List.mem_append_left _ (Dict.mem_of_pop hPending)
      · exact List.mem_append_right _ hActive
  | add_active slot_id =>
      simp only [act] at h
      split at h
      · rename_i r hLookup
        rcases List.mem_append.mp h with hPending | hActive
        · exact List.mem_append_left _ (Dict.mem_of_pop hPending)
        · rcases Dict.mem_of_set hActive with hOld | rfl
          · exact List.mem_append_right _ hOld
          · exact List.mem_append_left _ (Dict.mem_of_lookup hLookup)
      · exact h
  | remove_active slot_id =>
      rcases List.mem_append.mp h with hPending | hActive
      · exact List.mem_append_left _ hPending
      · exact List.mem_append_right _ (Dict.mem_of_pop hActive)
  | clear_pending => exact List.mem_append_right _ h

end Table

namespace State

/-- Where the requests are that the engine can still come upon. -/
theorem mem_inside : r ∈ s.inside ↔ r ∈ s.request_queue ∨ r ∈ s.pc.hand ∨
    (∃ slot_id, (slot_id, r) ∈ s.table.entries) ∨
      ∃ slots ∈ s.pc.slots, ∃ slot_id, (slot_id, r) ∈ slots := by
  unfold inside
  cases s.pc.slots with
  | none =>
      simp only [Option.getD_none, List.append_nil, List.append_assoc, List.mem_append,
        List.mem_map, Prod.exists, exists_eq_right, Option.mem_def, reduceCtorEq, false_and,
        exists_const, or_false]
  | some slots =>
      simp only [Option.getD_some, List.map_append, List.append_assoc, List.mem_append,
        List.mem_map, Prod.exists, exists_eq_right, Option.mem_def, Option.some.injEq,
        exists_eq_left']

/-- In the queue. -/
theorem inside_of_queue (h : r ∈ s.request_queue) : r ∈ s.inside :=
  mem_inside.mpr (.inl h)

/-- In the engine's hand. -/
theorem inside_of_hand (h : r ∈ s.pc.hand) : r ∈ s.inside :=
  mem_inside.mpr (.inr (.inl h))

/-- In the call that is under way. -/
theorem inside_of_running {slots : Dict} (hRunning : slots ∈ s.pc.running) {slot_id : SlotId}
    (hMem : (slot_id, r) ∈ slots) : r ∈ s.inside := by
  rw [mem_inside]
  refine .inr (.inr (.inr ⟨slots, ?_, slot_id, hMem⟩))
  cases hPc : s.pc with
  | submit slots' op rest =>
      rw [hPc] at hRunning
      exact hRunning
  | sync slots' command rest executed =>
      rw [hPc] at hRunning
      exact hRunning
  | _ =>
      rw [hPc] at hRunning
      cases hRunning

end State

/-- In the tables. -/
theorem State.inside_of_entry {e : SlotId × RequestId} (h : e ∈ s.table.entries) :
    e.2 ∈ s.inside :=
  mem_inside.mpr (.inr (.inr (.inl ⟨e.1, h⟩)))

/-- In the engine's copy of the active slots. -/
theorem State.inside_of_copy {slots : Dict} (hSlots : slots ∈ s.pc.slots) {e : SlotId × RequestId}
    (h : e ∈ slots) : e.2 ∈ s.inside :=
  mem_inside.mpr (.inr (.inr (.inr ⟨slots, hSlots, e.1, h⟩)))

/-- Between two calls. -/
theorem Onward.of_idle (hCalls : s'.calls = s.calls) (hRunning : s'.pc.running = none)
    (hCommands : s'.pc.commands = []) : Onward cfg s s' := by
  refine .inl ⟨hCalls, ?_, ?_⟩
  · intro slots h
    rw [hRunning] at h
    cases h
  · rw [hCommands]
    exact List.nil_subset s.pc.commands

namespace Continues

/-- A step of the engine brings in no request. -/
theorem of_engine (hNext : s'.nextRequest = s.nextRequest)
    (hHandlers : ∀ r, (s'.requests r).handler = (s.requests r).handler)
    (hQueue : ∀ r ∈ s'.request_queue, r ∈ s.inside) (hHand : ∀ r ∈ s'.pc.hand, r ∈ s.inside)
    (hEntries : ∀ e ∈ s'.table.entries, e.2 ∈ s.inside)
    (hSlots : ∀ slots ∈ s'.pc.slots, ∀ e ∈ slots, e.2 ∈ s.inside)
    (hOnward : Onward cfg s s') : Continues cfg s s' where
  inside r hInside := by
    rcases State.mem_inside.mp hInside with h | h | ⟨slot_id, h⟩ | ⟨slots, hCopy, slot_id, h⟩
    · exact .inl (hQueue r h)
    · exact .inl (hHand r h)
    · exact .inl (hEntries (slot_id, r) h)
    · exact .inl (hSlots slots hCopy (slot_id, r) h)
  born := Nat.le_of_eq hNext.symm
  handler r := .inl (hHandlers r)
  onward := hOnward

/-- The engine goes on without a request in its hand. -/
theorem of_pc {pc : Pc} {todo : List Action} (hHand : pc.hand = [])
    (hSlots : ∀ slots ∈ pc.slots, ∀ e ∈ slots, e.2 ∈ s.inside)
    (hRunning : pc.running = none) (hCommands : pc.commands = []) :
    Continues cfg s { s with pc := pc, todo := todo } := by
  apply of_engine
  · rfl
  · intro r
    rfl
  · intro r h
    exact State.inside_of_queue h
  · intro r h
    rw [show ({ s with pc := pc, todo := todo } : State).pc.hand = [] from hHand] at h
    cases h
  · intro e h
    exact State.inside_of_entry h
  · exact hSlots
  · exact Onward.of_idle rfl hRunning hCommands

/-- Nothing is left of the call that was under way. -/
theorem of_idle {pc : Pc} {todo : List Action} (hHand : pc.hand = []) (hSlots : pc.slots = none)
    (hRunning : pc.running = none) (hCommands : pc.commands = []) :
    Continues cfg s { s with pc := pc, todo := todo } := by
  apply of_pc hHand _ hRunning hCommands
  intro slots h
  rw [hSlots] at h
  cases h

/-- An exception leaves the engine with the requests that it has. -/
theorem fail : Continues cfg s s.fail := of_idle rfl rfl rfl rfl

/-- The engine takes a request from its queue. -/
theorem take {rest : List RequestId} (hQueue : s.request_queue = r :: rest) :
    Continues cfg s { s with request_queue := rest, pc := .claim r } := by
  have hInside : ∀ r' ∈ s.request_queue, r' ∈ s.inside :=
    fun r' h => State.inside_of_queue h
  rw [hQueue] at hInside
  apply of_engine
  · rfl
  · intro r
    rfl
  · intro r' h
    exact hInside r' (List.mem_cons_of_mem r h)
  · intro r' h
    rw [List.mem_singleton.mp h]
    exact hInside r List.mem_cons_self
  · intro e h
    exact State.inside_of_entry h
  · rintro slots ⟨⟩
  · exact Onward.of_idle rfl rfl rfl

/-- It prepares a slot for the request. -/
theorem prepare (hPc : s.pc = .claim r) (slot_id : SlotId) (length : Nat) :
    Continues cfg s (s.prepare cfg r slot_id length) := by
  have hHand : r ∈ s.inside := by
    apply State.inside_of_hand
    rw [hPc]
    exact List.mem_singleton_self r
  apply of_engine
  · rfl
  · intro r'
    by_cases hSame : r' = r
    · simp [State.prepare, State.setRequest, hSame]
    · simp [State.prepare, State.setRequest, hSame]
  · intro r' h
    exact State.inside_of_queue h
  · rintro r' ⟨⟩
  · intro e h
    rcases List.mem_append.mp h with hPending | hActive
    · rcases Dict.mem_of_set hPending with hOld | rfl
      · exact State.inside_of_entry (List.mem_append_left _ hOld)
      · exact hHand
    · exact State.inside_of_entry (List.mem_append_right _ hActive)
  · rintro slots ⟨⟩
  · exact Onward.of_idle rfl rfl rfl

/-- It activates slots and gives up on those that take too long. -/
theorem try_activate_pending_slots (late : List SlotId) :
    Continues cfg s (s.try_activate_pending_slots late) := by
  apply of_engine
  · rfl
  · intro r
    show (if r ∈ s.table.pending_slots.map Prod.snd then
      { s.requests r with joined := true } else s.requests r).handler = _
    split
    · rfl
    · rfl
  · intro r h
    exact State.inside_of_queue h
  · rintro r ⟨⟩
  · intro e h
    exact State.inside_of_entry h
  · rintro slots ⟨⟩
  · exact Onward.of_idle rfl rfl rfl

/-- It begins a call for its active slots. -/
theorem begin_call {slots : Dict} (hPc : s.pc = .generate slots) (exhausted : List SlotId) :
    Continues cfg s (s.begin_call cfg slots exhausted) := by
  have hSlots : slots ∈ s.pc.slots := by
    rw [hPc]
    rfl
  apply of_engine
  · rfl
  · intro r
    rfl
  · intro r h
    exact State.inside_of_queue h
  · intro r h
    simp only [State.begin_call] at h
    split at h <;> cases h
  · intro e h
    exact State.inside_of_entry h
  · intro left hLeft e h
    have hSame : left = slots.filter fun e =>
        !(s.evicted_slot_mask e.1 || exhausted.contains e.1) := by
      simp only [State.begin_call] at hLeft
      split at hLeft
      · exact (Option.some.inj hLeft).symm
      · exact (Option.some.inj hLeft).symm
    rw [hSame] at h
    exact State.inside_of_copy hSlots (List.mem_filter.mp h).1
  · refine .inr ⟨rfl, ?_⟩
    simp only [State.begin_call]
    split
    · exact List.nil_subset _
    · exact List.Subset.refl (ops cfg.num_layers)

/-- It submits a command. -/
theorem submit {slots : Dict} {op : Op × Nat} {rest : List (Op × Nat)}
    (hPc : s.pc = .submit slots op rest) (slot_id : SlotId) :
    Continues cfg s (s.submit slots op rest slot_id) := by
  have hSlots : slots ∈ s.pc.slots := by
    rw [hPc]
    rfl
  apply of_engine
  · rfl
  · intro r
    rfl
  · intro r h
    exact State.inside_of_queue h
  · rintro r ⟨⟩
  · intro e h
    exact State.inside_of_entry h
  · rintro copy ⟨⟩ e h
    exact State.inside_of_copy hSlots h
  · refine .inl ⟨rfl, ?_, ?_⟩
    · rintro copy ⟨⟩
      rw [hPc]
      rfl
    · rw [hPc]
      exact List.subset_cons_self op rest

/-- It goes on to the next operation of the call. -/
theorem next {slots : Dict} {command : Command} {rest : List (Op × Nat)} {executed : Bool}
    (hPc : s.pc = .sync slots command rest executed) {requests : RequestId → Request}
    (hHandlers : ∀ r, (requests r).handler = (s.requests r).handler) :
    Continues cfg s ({ s with requests := requests }.next slots rest) := by
  have hRunning : slots ∈ s.pc.running := by
    rw [hPc]
    rfl
  have hCopy : ∀ e ∈ slots, e.2 ∈ s.inside :=
    fun e h => State.inside_of_running hRunning h
  cases rest with
  | nil =>
      apply of_engine
      · rfl
      · exact hHandlers
      · intro r h
        exact State.inside_of_queue h
      · rintro r ⟨⟩
      · intro e h
        exact State.inside_of_entry h
      · rintro copy ⟨⟩
        exact hCopy
      · exact Onward.of_idle rfl rfl rfl
  | cons op rest =>
      apply of_engine
      · rfl
      · exact hHandlers
      · intro r h
        exact State.inside_of_queue h
      · rintro r ⟨⟩
      · intro e h
        exact State.inside_of_entry h
      · rintro copy ⟨⟩
        exact hCopy
      · refine .inl ⟨rfl, ?_, ?_⟩
        · rintro copy ⟨⟩
          exact hRunning
        · rw [hPc]
          exact List.Subset.refl (op :: rest)

/-- Taking tokens answers nobody. -/
theorem get_tokens_handler (s : State) (slots : Dict) (r : RequestId) :
    ((slots.foldl State.get_token s).requests r).handler = (s.requests r).handler := by
  induction slots generalizing s with
  | nil => rfl
  | cons e slots ih =>
      rw [List.foldl_cons, ih]
      unfold State.get_token
      dsimp only
      split
      · by_cases hSame : r = e.2
        · simp [State.setRequest, hSame]
        · simp [State.setRequest, hSame]
      · by_cases hSame : r = e.2
        · simp [State.setRequest, hSame]
        · simp [State.setRequest, hSame]

/-- It takes the tokens of the slots. -/
theorem collect {slots : Dict} {command : Command} {rest : List (Op × Nat)} {executed : Bool}
    (hPc : s.pc = .sync slots command rest executed) :
    Continues cfg s (s.collect slots command rest) := by
  unfold State.collect
  split
  · exact next hPc (fun r => rfl)
  · rw [State.get_tokens_eq s slots]
    exact next hPc (get_tokens_handler s slots)
  all_goals
    split
    · exact next hPc (fun r => rfl)
    · exact fail

/-- Whatever the engine does, no request comes in. -/
theorem engine {move : Move} (hMove : Worker.engine cfg s move = some s') : Continues cfg s s' := by
  cases engine_move hMove with
  | loop hPc =>
      split
      · exact of_idle rfl rfl rfl rfl
      · exact of_idle rfl rfl rfl rfl
  | accepted | answer | wake | complete | recover => exact of_idle rfl rfl rfl rfl
  | take hPc hQueue => exact take hQueue
  | @prepare slot_id length r hPc => exact prepare hPc slot_id length
  | @activate late hPc => exact try_activate_pending_slots late
  | snapshot hPc =>
      split
      · apply of_pc rfl _ rfl rfl
        rintro copy ⟨⟩ e h
        exact State.inside_of_entry (List.mem_append_right _ h)
      · split
        · exact of_idle rfl rfl rfl rfl
        · exact of_idle rfl rfl rfl rfl
  | @generate exhausted slots hPc => exact begin_call hPc exhausted
  | @submit slot_id r slots op rest hPc => exact submit hPc slot_id
  | sync hPc => exact collect hPc
  | @check slots hPc =>
      have hSlots : slots ∈ s.pc.slots := by
        rw [hPc]
        rfl
      split
      · apply of_pc rfl _ rfl rfl
        rintro copy ⟨⟩ e h
        exact State.inside_of_copy hSlots h
      · apply of_pc rfl _ rfl rfl
        rintro copy ⟨⟩ e h
        exact State.inside_of_copy hSlots h

/-- A thread of the server moves, and the engine keeps what it has. -/
theorem of_thread (hPc : s'.pc = s.pc) (hTable : s'.table = s.table) (hCalls : s'.calls = s.calls)
    (hQueue : ∀ r ∈ s'.request_queue, r ∈ s.request_queue ∨ (s.requests r).handler = .parsing)
    (hBorn : s.nextRequest ≤ s'.nextRequest)
    (hHandler : ∀ r, (s'.requests r).handler = (s.requests r).handler ∨
      (r = s.nextRequest ∧ r < s'.nextRequest) ∨ (s.requests r).handler = .parsing ∨
        (s.requests r).handler = .waiting) : Continues cfg s s' where
  inside r h := by
    rcases State.mem_inside.mp h with h | h
    · rcases hQueue r h with hOld | hNew
      · exact .inl (State.inside_of_queue hOld)
      · exact .inr hNew
    · rw [hPc, hTable] at h
      exact .inl (State.mem_inside.mpr (.inr h))
  born := hBorn
  handler := hHandler
  onward := by
    unfold Onward
    rw [hPc]
    exact .inl ⟨hCalls, fun slots h => h, List.Subset.refl s.pc.commands⟩

/-- A thread that is not through with its request goes on. -/
theorem setHandler {handler : Handler} {semaphore : Nat}
    (hOpen : (s.requests r).handler = .parsing ∨ (s.requests r).handler = .waiting) :
    Continues cfg s { s.setHandler r handler with semaphore := semaphore } := by
  apply of_thread
  · rfl
  · rfl
  · rfl
  · intro r' h
    exact .inl h
  · exact Nat.le_refl s.nextRequest
  · intro r'
    by_cases hSame : r' = r
    · rw [hSame]
      exact .inr (.inr hOpen)
    · refine .inl ?_
      simp [State.setHandler, State.setRequest, hSame]

/-- A thread submits its request. -/
theorem submit_request (hParsing : (s.requests r).handler = .parsing) (max_tokens : Int) :
    Continues cfg s (s.submit_request cfg r max_tokens) := by
  apply of_thread
  · rfl
  · rfl
  · rfl
  · intro r' h
    rcases List.mem_append.mp h with hOld | hNew
    · exact .inl hOld
    · rw [List.mem_singleton.mp hNew]
      exact .inr hParsing
  · exact Nat.le_refl s.nextRequest
  · intro r'
    by_cases hSame : r' = r
    · rw [hSame]
      exact .inr (.inr (.inl hParsing))
    · refine .inl ?_
      simp [State.submit_request, State.setRequest, hSame]

/-- A thread that has got an answer or given up. -/
theorem inference : Continues cfg s s.inference := by
  have hHandler : ∀ request r, (Function.update s.requests s.nextRequest request r).handler =
      (s.requests r).handler ∨ (r = s.nextRequest ∧ r < s.nextRequest + 1) ∨
        (s.requests r).handler = .parsing ∨ (s.requests r).handler = .waiting := by
    intro request r
    by_cases hSame : r = s.nextRequest
    · rw [hSame]
      exact .inr (.inl ⟨rfl, Nat.lt_succ_self _⟩)
    · rw [Function.update_of_ne hSame]
      exact .inl rfl
  unfold State.inference
  split
  · apply of_thread
    · rfl
    · rfl
    · rfl
    · intro r h
      exact .inl h
    · exact Nat.le_succ s.nextRequest
    · exact hHandler _
  · apply of_thread
    · rfl
    · rfl
    · rfl
    · intro r h
      exact .inl h
    · exact Nat.le_succ s.nextRequest
    · exact hHandler _

/-- A slot is released, completed or failed. -/
theorem act {action : Action} {todo : List Action} :
    Continues cfg s { s with table := s.table.act action, todo := todo } := by
  apply of_engine
  · rfl
  · intro r
    rfl
  · intro r h
    exact State.inside_of_queue h
  · intro r h
    exact State.inside_of_hand h
  · intro e h
    exact State.inside_of_entry (Table.mem_of_act h)
  · intro slots hSlots e h
    exact State.inside_of_copy (s := s) hSlots h
  · exact .inl ⟨rfl, fun slots h => h, List.Subset.refl s.pc.commands⟩

/-- The aggregator moves, or the flags of the worker fall. -/
theorem of_frame {worker_running engine_running : Bool} {active_slot_mask evicted_slot_mask : SlotId → Bool}
    {output : SlotId → Output} : Continues cfg s { s with
      worker_running := worker_running, engine_running := engine_running,
      active_slot_mask := active_slot_mask, evicted_slot_mask := evicted_slot_mask,
      output := output } := by
  apply of_thread
  · rfl
  · rfl
  · rfl
  · intro r h
    exact .inl h
  · exact Nat.le_refl s.nextRequest
  · intro r
    exact .inl rfl

/-- The aggregator executes a command. -/
theorem execute {slots : Dict} {command : Command} {rest : List (Op × Nat)}
    (hPc : s.pc = .sync slots command rest false) (output : SlotId → Output) :
    Continues cfg s { s with output := output, pc := .sync slots command rest true } := by
  have hSlots : slots ∈ s.pc.slots := by
    rw [hPc]
    rfl
  apply of_engine
  · rfl
  · intro r
    rfl
  · intro r h
    exact State.inside_of_queue h
  · rintro r ⟨⟩
  · intro e h
    exact State.inside_of_entry h
  · rintro copy ⟨⟩ e h
    exact State.inside_of_copy hSlots h
  · refine .inl ⟨rfl, ?_, ?_⟩
    · rintro copy ⟨⟩
      rw [hPc]
      rfl
    · rw [hPc]
      exact List.Subset.refl rest

/-- Every step lets the requests go on as they may. -/
theorem step {l : Label} (hStep : Worker.step cfg s l = some s') : Continues cfg s s' := by
  cases l with
  | inference =>
      obtain rfl := Option.some.inj hStep
      exact inference
  | refuse r =>
      simp only [Worker.step, Option.ite_none_right_eq_some] at hStep
      obtain ⟨hParsing, hSame⟩ := hStep
      obtain rfl := Option.some.inj hSame
      exact setHandler (.inl hParsing)
  | abort r =>
      simp only [Worker.step, Option.ite_none_right_eq_some] at hStep
      obtain ⟨hParsing, hSame⟩ := hStep
      obtain rfl := Option.some.inj hSame
      exact setHandler (.inl hParsing)
  | submit_request r max_tokens =>
      simp only [Worker.step, Option.ite_none_right_eq_some] at hStep
      obtain ⟨hParsing, hSame⟩ := hStep
      obtain rfl := Option.some.inj hSame
      exact submit_request hParsing max_tokens
  | answer r =>
      simp only [Worker.step, Option.ite_none_right_eq_some] at hStep
      obtain ⟨hWaiting, hSame⟩ := hStep
      obtain rfl := Option.some.inj hSame
      exact setHandler (.inr hWaiting.1)
  | timeout r =>
      simp only [Worker.step, Option.ite_none_right_eq_some] at hStep
      obtain ⟨hWaiting, hSame⟩ := hStep
      obtain rfl := Option.some.inj hSame
      exact setHandler (.inr hWaiting.1)
  | shutdown =>
      obtain rfl := Option.some.inj hStep
      exact of_frame
  | stop =>
      obtain rfl := Option.some.inj hStep
      exact of_frame
  | engine move =>
      simp only [Worker.step, Option.ite_none_right_eq_some] at hStep
      exact engine hStep.2
  | act =>
      simp only [Worker.step] at hStep
      split at hStep
      · cases hStep
      · obtain rfl := Option.some.inj hStep
        exact act
  | raise =>
      simp only [Worker.step, Option.ite_none_right_eq_some] at hStep
      obtain rfl := Option.some.inj hStep.2
      exact fail
  | execute value =>
      simp only [Worker.step] at hStep
      split at hStep
      · rename_i slots command rest hPc
        split at hStep
        · obtain rfl := Option.some.inj hStep
          exact execute hPc _
        · cases hStep
      · cases hStep
  | join slot_id =>
      obtain rfl := Option.some.inj hStep
      exact of_frame
  | leave slot_id =>
      obtain rfl := Option.some.inj hStep
      exact of_frame
  | evict slot_id =>
      obtain rfl := Option.some.inj hStep
      exact of_frame
  | write slot_id value =>
      simp only [Worker.step] at hStep
      split at hStep
      · cases hStep
      · obtain rfl := Option.some.inj hStep
        exact of_frame

end Continues

/-- A request that is finished stays finished. -/
theorem Continues.finished (h : Continues cfg s s') (hBorn : r < s.nextRequest)
    (hFinished : s.finished r = true) : s'.finished r = true := by
  simp only [State.finished, decide_eq_true_eq] at hFinished ⊢
  obtain ⟨hHandler, hOutside⟩ := hFinished
  have hNotParsing : (s.requests r).handler ≠ .parsing := by
    rcases hHandler with hHandler | hHandler <;> simp [hHandler]
  have hNotWaiting : (s.requests r).handler ≠ .waiting := by
    rcases hHandler with hHandler | hHandler <;> simp [hHandler]
  constructor
  · rcases h.handler r with hSame | ⟨rfl, _⟩ | hParsing | hWaiting
    · rw [hSame]
      exact hHandler
    · exact (Nat.lt_irrefl _ hBorn).elim
    · exact (hNotParsing hParsing).elim
    · exact (hNotWaiting hWaiting).elim
  · intro hInside
    rcases h.inside r hInside with hInside | hParsing
    · exact hOutside hInside
    · exact hNotParsing hParsing

/-- Only requests that have come in have a thread that has got somewhere. -/
theorem Continues.born_of_handler (h : Continues cfg s s')
    (hBorn : ∀ r, (s.requests r).handler ≠ .refused → r < s.nextRequest)
    (hHandler : (s'.requests r).handler ≠ .refused) : r < s'.nextRequest := by
  rcases h.handler r with hSame | ⟨_, hNew⟩ | hParsing | hWaiting
  · exact Nat.lt_of_lt_of_le (hBorn r (hSame ▸ hHandler)) h.born
  · exact hNew
  · exact Nat.lt_of_lt_of_le (hBorn r (by simp [hParsing])) h.born
  · exact Nat.lt_of_lt_of_le (hBorn r (by simp [hWaiting])) h.born

end Worker
