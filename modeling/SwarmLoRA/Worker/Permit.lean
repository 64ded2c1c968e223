import SwarmLoRA.Worker.Engine

namespace Worker

open Machine

/-- The LM_HEAD command that the engine waits for and the aggregator has not executed. -/
def Pc.unexecuted : Pc → Bool
  | .sync _ command _ executed => decide (command.op = .lm_head) && !executed
  | _ => false

/-- A permit is taken only while the engine has no request that its thread has
given up, and the round of an LM_HEAD command does not end without the command. -/
def Attended (s : State) : Label → Prop
  | .inference => s.worker_running = true → 0 < s.semaphore →
      ∀ r ∈ s.engaged, (s.requests r).handler ≠ .gave_up
  | .engine .sync => s.pc.unexecuted = false
  | _ => True

variable {cfg : Config} {s s' : State} {t : Table} {l : Label} {r r' : RequestId}

namespace Table

variable {action : Action} {todo : List Action}

/-- With one entry at most, an action keeps the entries or drops them. -/
theorem act_entries (hOne : t.entries.length ≤ 1) (action : Action) :
    (t.act action).entries.Sublist t.entries := by
  obtain ⟨pending_slots, active_slots, done⟩ := t
  simp only [entries, List.length_append] at hOne
  cases action with
  | set_future r => exact .refl _
  | pop_pending slot_id => exact List.filter_sublist.append (.refl _)
  | remove_active slot_id => exact (List.Sublist.refl _).append List.filter_sublist
  | clear_pending => exact (List.nil_sublist _).append (.refl _)
  | add_active slot_id =>
      simp only [act]
      split
      next r hLookup =>
        obtain ⟨⟨slot_id', r'⟩, rest, rfl⟩ : ∃ e rest, pending_slots = e :: rest := by
          cases pending_slots with
          | nil => simp at hLookup
          | cons e rest => exact ⟨e, rest, rfl⟩
        simp only [List.length_cons] at hOne
        obtain rfl : rest = [] := List.eq_nil_of_length_eq_zero (by omega)
        obtain rfl : active_slots = [] := List.eq_nil_of_length_eq_zero (by omega)
        have hSame : slot_id = slot_id' ∧ r' = r := by
          simp only [List.lookup_cons, List.lookup_nil] at hLookup
          split at hLookup <;> simp_all
        obtain ⟨rfl, rfl⟩ := hSame
        simp [entries, Dict.pop, Dict.set]
      next => exact .refl _

/-- What is done stays done. -/
theorem act_done (hDone : t.done r = true) (action : Action) : (t.act action).done r = true := by
  cases action with
  | set_future r' =>
      simp only [act, Function.update_apply]
      split
      next => rfl
      next => exact hDone
  | add_active slot_id =>
      simp only [act]
      split <;> exact hDone
  | _ => exact hDone

/-- No action brings back a request that is done. -/
theorem act_undone (hOne : t.entries.length ≤ 1) (action : Action) :
    (t.act action).undone.Sublist t.undone := by
  refine ((t.act_entries hOne action).filter _).trans (List.monotone_filter_right _ fun e hNot => ?_)
  cases hDone : t.done e.2 with
  | false => rfl
  | true =>
      rw [act_done hDone action] at hNot
      exact absurd hNot (by simp)

/-- With one entry at most, actions make none. -/
theorem run_entries (hOne : t.entries.length ≤ 1) (todo : List Action) :
    (t.run todo).entries.Sublist t.entries := by
  induction todo generalizing t with
  | nil => exact .refl _
  | cons action todo ih =>
      have hAct := t.act_entries hOne action
      exact (ih (Nat.le_trans hAct.length_le hOne)).trans hAct

/-- What is done stays done through any number of actions. -/
theorem run_done (hDone : t.done r = true) (todo : List Action) : (t.run todo).done r = true := by
  induction todo generalizing t with
  | nil => exact hDone
  | cons action todo ih => exact ih (act_done hDone action)

/-- A future is set by an action that sets it. -/
theorem of_run_done (hDone : (t.run todo).done r = true) :
    t.done r = true ∨ .set_future r ∈ todo := by
  induction todo generalizing t with
  | nil => exact .inl hDone
  | cons action todo ih =>
      rcases ih hDone with hAct | hMem
      · cases action with
        | set_future r' =>
            simp only [act, Function.update_apply] at hAct
            split at hAct
            next hr => exact .inr (hr ▸ List.mem_cons_self)
            next => exact .inl hAct
        | add_active slot_id =>
            simp only [act] at hAct
            split at hAct <;> exact .inl hAct
        | _ => exact .inl hAct
      · exact .inr (List.mem_cons_of_mem _ hMem)

/-- A table of one entry at most is empty, or has a slot in one of its dictionaries. -/
theorem shape (hOne : t.entries.length ≤ 1) :
    t.pending_slots = [] ∧ t.active_slots = [] ∨
      (∃ e, t.pending_slots = [e] ∧ t.active_slots = []) ∨
        ∃ e, t.pending_slots = [] ∧ t.active_slots = [e] := by
  obtain ⟨pending_slots, active_slots, done⟩ := t
  cases pending_slots with
  | nil =>
      cases active_slots with
      | nil => exact .inl ⟨rfl, rfl⟩
      | cons e rest =>
          have hRest : rest = [] := by
            simp only [entries, List.nil_append, List.length_cons] at hOne
            exact List.eq_nil_of_length_eq_zero (by omega)
          exact .inr (.inr ⟨e, rfl, by rw [hRest]⟩)
  | cons e rest =>
      have hRest : rest ++ active_slots = [] := by
        simp only [entries, List.cons_append, List.length_cons] at hOne
        exact List.eq_nil_of_length_eq_zero (by omega)
      obtain ⟨rfl, rfl⟩ := List.append_eq_nil_iff.mp hRest
      exact .inr (.inl ⟨e, rfl, rfl⟩)

/-- The slots that are torn down leave the active ones, and the futures of the others are not set. -/
theorem run_teardown (hOne : t.entries.length ≤ 1) (hClean : ∀ e ∈ t.entries, t.done e.2 = false)
    (torn : SlotId × RequestId → Bool) :
    (t.run ((t.active_slots.filter torn).flatMap fun e =>
        [.remove_active e.1, .set_future e.2])).active_slots = t.active_slots.filter (fun e => !torn e) ∧
      ∀ e ∈ (t.run ((t.active_slots.filter torn).flatMap fun e =>
          [.remove_active e.1, .set_future e.2])).entries,
        (t.run ((t.active_slots.filter torn).flatMap fun e =>
          [.remove_active e.1, .set_future e.2])).done e.2 = false := by
  rcases t.shape hOne with ⟨hP, hA⟩ | ⟨e, hP, hA⟩ | ⟨e, hP, hA⟩
  · simp [run, entries, hP, hA]
  · simpa [run, entries, hP, hA] using hClean e (by simp [entries, hP])
  · cases hTorn : torn e with
    | true => simp [run, act, entries, Dict.pop, hP, hA, hTorn]
    | false => simpa [run, entries, hP, hA, hTorn] using hClean e (by simp [entries, hA])

end Table

/-- With nothing left to do the table is what it will be. -/
theorem State.settled_eq (hTodo : s.todo = []) : s.settled = s.table := by
  rw [State.settled, hTodo]
  rfl

/-- Reading the tokens changes nothing but the requests. -/
theorem State.get_tokens_eq (s : State) (slots : Dict) :
    slots.foldl State.get_token s = { s with requests := (slots.foldl State.get_token s).requests } := by
  induction slots generalizing s with
  | nil => rfl
  | cons e slots ih =>
      rw [List.foldl_cons, ih]
      unfold State.get_token
      dsimp only
      split <;> rfl

/-- What is so of the permit, the requests and the two dictionaries in every guarded run: the engine
has one request at most, that of the thread that holds the permit, in the queue, in hand, pending or
active. -/
structure Invariant (s : State) : Prop where
  semaphore : s.semaphore ≤ 1
  unborn : ∀ r, s.nextRequest ≤ r → (s.requests r).handler = .refused
  permit : ∀ r, (s.requests r).handler.holds = true → s.semaphore = 0
  holder : ∀ r r', (s.requests r).handler.holds = true → (s.requests r').handler.holds = true → r = r'
  engaged : s.engaged.length ≤ 1
  attended : ∀ r r', (s.requests r).handler.holds = true → r' ∈ s.engaged → r' = r
  queued : ∀ r ∈ s.request_queue ++ s.pc.hand,
    (s.requests r).handler.submitted = true ∧ s.settled.done r = false
  listed : ∀ e ∈ s.table.entries, (s.requests e.2).handler.submitted = true
  done : ∀ r, s.settled.done r = true → (s.requests r).handler.submitted = true
  clean : ∀ e ∈ s.settled.entries, s.settled.done e.2 = false
  returned : ∀ r, (s.requests r).handler = .returned → s.table.done r = true
  entries : s.table.entries.length ≤ 1
  copy : ∀ slots ∈ s.pc.slots, slots = s.settled.active_slots

namespace Invariant

/-- A request that is still queued or in the hand of the engine has no slot. -/
theorem fresh (h : Invariant s) (hQueued : r ∈ s.request_queue ++ s.pc.hand)
    {e : SlotId × RequestId} (hEntry : e ∈ s.table.entries) : e.2 ≠ r := by
  rintro rfl
  have hDone : s.table.done e.2 = false := by
    apply Bool.eq_false_iff.mpr
    intro hDone
    have hSettled := Table.run_done hDone s.todo
    rw [show (s.table.run s.todo).done e.2 = false from (h.queued e.2 hQueued).2] at hSettled
    exact absurd hSettled (by simp)
  have hUndone : e ∈ s.table.undone := List.mem_filter.mpr ⟨hEntry, by simp [hDone]⟩
  have hFirst := List.length_pos_of_mem hQueued
  have hSecond := List.length_pos_of_mem hUndone
  have hLength := h.engaged
  simp only [State.engaged, List.length_append, List.length_map] at hLength hFirst
  omega

/-- The engine goes on at another place, with nothing left in its hand, and cleans up. -/
theorem script (h : Invariant s) {todo : List Action} {pc : Pc}
    (hHand : pc.hand = [])
    (hSet : ∀ r, .set_future r ∈ todo →
      (s.requests r).handler.submitted = true ∧ r ∉ s.request_queue)
    (hClean : ∀ e ∈ (s.table.run todo).entries, (s.table.run todo).done e.2 = false)
    (hCopy : ∀ slots ∈ pc.slots, slots = (s.table.run todo).active_slots) :
    Invariant { s with todo, pc } := by
  have hBefore : ∀ r, s.table.done r = true → s.settled.done r = true :=
    fun r hDone => Table.run_done hDone s.todo
  have hSublist : State.engaged { s with todo, pc } |>.Sublist s.engaged := by
    simp only [State.engaged, hHand, List.append_nil]
    exact (List.sublist_append_left _ _).append (.refl _)
  refine ⟨h.semaphore, h.unborn, h.permit, h.holder, ?_, ?_, ?_, h.listed, ?_, hClean, h.returned,
    h.entries, hCopy⟩
  · exact Nat.le_trans hSublist.length_le h.engaged
  · exact fun r r' hHolds hEngaged => h.attended r r' hHolds (hSublist.subset hEngaged)
  · intro r hQueued
    rw [hHand, List.append_nil] at hQueued
    have hOld := h.queued r (List.mem_append_left _ hQueued)
    refine ⟨hOld.1, Bool.eq_false_iff.mpr fun hDone => ?_⟩
    rcases Table.of_run_done hDone with hTable | hMem
    · rw [hBefore r hTable] at hOld
      exact absurd hOld.2 (by simp)
    · exact (hSet r hMem).2 hQueued
  · intro r hDone
    rcases Table.of_run_done hDone with hTable | hMem
    · exact h.done r (hBefore r hTable)
    · exact (hSet r hMem).1

/-- The futures that are set are those of requests with a slot. -/
theorem set_of_listed (h : Invariant s) {todo : List Action}
    (hListed : ∀ r, .set_future r ∈ todo → ∃ e ∈ s.table.entries, e.2 = r) (r : RequestId)
    (hSet : .set_future r ∈ todo) :
    (s.requests r).handler.submitted = true ∧ r ∉ s.request_queue := by
  obtain ⟨e, hEntry, rfl⟩ := hListed r hSet
  refine ⟨h.listed e hEntry, fun hQueued => ?_⟩
  exact h.fresh (List.mem_append_left _ hQueued) hEntry rfl

/-- The engine only goes on at another place. -/
theorem move (h : Invariant s) (hTodo : s.todo = []) {pc : Pc} (hHand : pc.hand = [])
    (hCopy : ∀ slots ∈ pc.slots, slots = s.table.active_slots) : Invariant { s with pc } := by
  have hClean := h.clean
  rw [State.settled, hTodo] at hClean
  have hNew : Invariant { s with todo := [], pc } := h.script hHand (by simp) hClean hCopy
  rwa [← hTodo] at hNew

/-- The thread of the engine carries the next of its actions out. -/
theorem act (h : Invariant s) {action : Action} {todo : List Action}
    (hTodo : s.todo = action :: todo) :
    Invariant { s with table := s.table.act action, todo } := by
  have hSettled : State.settled { s with table := s.table.act action, todo } = s.settled := by
    rw [State.settled, State.settled, hTodo]
    rfl
  have hEntries := s.table.act_entries h.entries action
  have hSublist : (State.engaged { s with table := s.table.act action, todo }).Sublist s.engaged :=
    (List.Sublist.refl _).append ((Table.act_undone h.entries action).map _)
  refine ⟨h.semaphore, h.unborn, h.permit, h.holder, ?_, ?_, ?_, ?_, ?_, ?_, ?_, ?_, ?_⟩
  · exact Nat.le_trans hSublist.length_le h.engaged
  · exact fun r r' hHolds hEngaged => h.attended r r' hHolds (hSublist.subset hEngaged)
  · rw [hSettled]
    exact h.queued
  · exact fun e hEntry => h.listed e (hEntries.subset hEntry)
  · rw [hSettled]
    exact h.done
  · rw [hSettled]
    exact h.clean
  · exact fun r hReturned => Table.act_done (h.returned r hReturned) action
  · exact Nat.le_trans hEntries.length_le h.entries
  · rw [hSettled]
    exact h.copy

/-- An exception in the engine: it answers every request that has a slot and forgets the slots. -/
theorem fail (h : Invariant s) : Invariant s.fail := by
  refine h.script rfl (h.set_of_listed fun r hSet => ?_) ?_ (by simp [Pc.slots])
  · rcases Table.shape h.entries with ⟨hP, hA⟩ | ⟨e, hP, hA⟩ | ⟨e, hP, hA⟩ <;>
      simp_all [Table.fail_all_active_slots, Table.entries]
  · rcases Table.shape h.entries with ⟨hP, hA⟩ | ⟨e, hP, hA⟩ | ⟨e, hP, hA⟩ <;>
      simp [Table.fail_all_active_slots, Table.run, Table.act, Table.entries, Dict.pop, hP, hA]

/-- The aggregator's side, the log of the commands and the flags do not matter. -/
theorem frame (h : Invariant s) {worker_running engine_running : Bool} {calls : Nat}
    {submitted : List Command} {active_slot_mask evicted_slot_mask : SlotId → Bool}
    {output : SlotId → Output} :
    Invariant { s with
      worker_running, engine_running, calls, submitted, active_slot_mask, evicted_slot_mask, output } :=
  ⟨h.semaphore, h.unborn, h.permit, h.holder, h.engaged, h.attended, h.queued, h.listed, h.done,
    h.clean, h.returned, h.entries, h.copy⟩

/-- Nothing has become of the thread of any request. -/
theorem of_handlers (h : Invariant s) (requests : RequestId → Request)
    (hSame : ∀ r, (requests r).handler = (s.requests r).handler) : Invariant { s with requests } := by
  refine ⟨h.semaphore, ?_, ?_, ?_, h.engaged, ?_, ?_, ?_, ?_, h.clean, ?_, h.entries, h.copy⟩
  · simpa only [hSame] using h.unborn
  · simpa only [hSame] using h.permit
  · simpa only [hSame] using h.holder
  · intro r r' hHolds
    rw [hSame] at hHolds
    exact h.attended r r' hHolds
  · intro r hQueued
    rw [hSame]
    exact h.queued r hQueued
  · simpa only [hSame] using h.listed
  · intro r hDone
    rw [hSame]
    exact h.done r hDone
  · simpa only [hSame] using h.returned

/-- The invariant is about the requests at hand and in the copy, not about the point. -/
theorem of_pc (h : Invariant s) {pc : Pc} (hHand : pc.hand = s.pc.hand)
    (hSlots : pc.slots = s.pc.slots) : Invariant { s with pc } := by
  have hEngaged : State.engaged { s with pc } = s.engaged := by
    simp only [State.engaged, hHand]
  refine ⟨h.semaphore, h.unborn, h.permit, h.holder, ?_, ?_, ?_, h.listed, h.done, h.clean,
    h.returned, h.entries, ?_⟩
  · rw [hEngaged]
    exact h.engaged
  · rw [hEngaged]
    exact h.attended
  · rw [hHand]
    exact h.queued
  · rw [hSlots]
    exact h.copy

/-- Only requests that have arrived are handled. -/
theorem born (h : Invariant s) (hHandler : (s.requests r).handler ≠ .refused) : r < s.nextRequest :=
  Nat.lt_of_not_le fun hLe => hHandler (h.unborn r hLe)

/-- The thread of a request that the engine has is waiting, or has given it up. -/
theorem of_engaged (h : Invariant s) (hEngaged : r ∈ s.engaged) :
    (s.requests r).handler = .waiting ∨ (s.requests r).handler = .gave_up := by
  have hBoth : (s.requests r).handler.submitted = true ∧ s.table.done r = false := by
    rcases List.mem_append.mp hEngaged with hQueued | hUndone
    · obtain ⟨hSubmitted, hSettled⟩ := h.queued r hQueued
      refine ⟨hSubmitted, Bool.eq_false_iff.mpr fun hDone => ?_⟩
      rw [show s.settled.done r = true from Table.run_done hDone s.todo] at hSettled
      exact absurd hSettled (by simp)
    · obtain ⟨e, hEntry, rfl⟩ := List.mem_map.mp hUndone
      obtain ⟨hEntry, hDone⟩ := List.mem_filter.mp hEntry
      exact ⟨h.listed e hEntry, by simpa using hDone⟩
  have hReturned := h.returned r
  cases hHandler : (s.requests r).handler <;> simp_all [Handler.submitted]

/-- What its own thread makes of a request that has the permit: the permit may be given back. -/
theorem setHandler (h : Invariant s) {handler : Handler} {semaphore : Nat}
    (hHolds : (s.requests r).handler.holds = true)
    (hPermit : semaphore ≤ 1 ∧ (handler.holds = true → semaphore = 0))
    (hSubmitted : (s.requests r).handler.submitted = true → handler.submitted = true)
    (hReturned : handler = .returned → s.table.done r = true) :
    Invariant { s.setHandler r handler with semaphore } := by
  have hBorn : r < s.nextRequest := h.born fun hRefused => by simp [hRefused, Handler.holds] at hHolds
  have hSelf : ((s.setHandler r handler).requests r).handler = handler := by
    simp [State.setHandler, State.setRequest]
  have hOther : ∀ r' ≠ r, (s.setHandler r handler).requests r' = s.requests r' :=
    fun r' hr => Function.update_of_ne hr _ _
  have hOnly : ∀ r', ((s.setHandler r handler).requests r').handler.holds = true → r' = r := by
    intro r' hHolds'
    by_contra hr
    rw [hOther r' hr] at hHolds'
    exact hr (h.holder r' r hHolds' hHolds)
  have hStill : ∀ r', (s.requests r').handler.submitted = true →
      ((s.setHandler r handler).requests r').handler.submitted = true := by
    intro r' hOld
    by_cases hr : r' = r
    · subst hr
      rw [hSelf]
      exact hSubmitted hOld
    · rwa [hOther r' hr]
  refine ⟨hPermit.1, ?_, ?_, ?_, h.engaged, ?_, ?_, ?_, ?_, h.clean, ?_, h.entries, h.copy⟩
  · intro r' hLe
    show ((s.setHandler r handler).requests r').handler = .refused
    rw [hOther r' (Nat.ne_of_gt (Nat.lt_of_lt_of_le hBorn hLe))]
    exact h.unborn r' hLe
  · intro r' hHolds'
    rw [hOnly r' hHolds', hSelf] at hHolds'
    exact hPermit.2 hHolds'
  · exact fun r₁ r₂ hHolds₁ hHolds₂ => (hOnly r₁ hHolds₁).trans (hOnly r₂ hHolds₂).symm
  · intro r₁ r₂ hHolds₁ hEngaged
    rw [hOnly r₁ hHolds₁]
    exact h.attended r r₂ hHolds hEngaged
  · exact fun r' hQueued => ⟨hStill r' (h.queued r' hQueued).1, (h.queued r' hQueued).2⟩
  · exact fun e hEntry => hStill e.2 (h.listed e hEntry)
  · exact fun r' hDone => hStill r' (h.done r' hDone)
  · intro r' hNow
    by_cases hr : r' = r
    · rw [hr] at hNow ⊢
      exact hReturned (hSelf.symm.trans hNow)
    · rw [hOther r' hr] at hNow
      exact h.returned r' hNow

/-- A handler ends and gives its permit back. -/
theorem release (h : Invariant s) {handler : Handler}
    (hHolds : (s.requests r).handler.holds = true) (hNot : handler.holds = false)
    (hSubmitted : (s.requests r).handler.submitted = true → handler.submitted = true)
    (hReturned : handler = .returned → s.table.done r = true) : Invariant (s.release r handler) := by
  have hPermit := h.permit r hHolds
  exact h.setHandler hHolds (by simp [hPermit, hNot]) hSubmitted hReturned

/-- A thread that parses its request and has the permit finds the engine without any request. -/
theorem engaged_of_parsing (h : Invariant s) (hParsing : (s.requests r).handler = .parsing) :
    s.engaged = [] := by
  apply List.eq_nil_iff_forall_not_mem.mpr
  intro r' hEngaged
  obtain rfl := h.attended r r' (by rw [hParsing]; rfl) hEngaged
  rcases h.of_engaged hEngaged with hOld | hOld <;> simp [hParsing] at hOld

/-- A waiting request gets into the queue of an engine that has none. -/
theorem enqueue (h : Invariant s) (hWaiting : (s.requests r).handler = .waiting)
    (hNone : s.engaged = []) (hDone : s.settled.done r = false) :
    Invariant { s with request_queue := s.request_queue ++ [r] } := by
  obtain ⟨hBefore, hUndone⟩ := List.append_eq_nil_iff.mp hNone
  obtain ⟨hQueue, hHand⟩ := List.append_eq_nil_iff.mp hBefore
  have hEngaged : State.engaged { s with request_queue := s.request_queue ++ [r] } = [r] := by
    simp only [State.engaged, hQueue, hHand, hUndone]
    rfl
  have hHolds : (s.requests r).handler.holds = true := by
    rw [hWaiting]
    rfl
  refine ⟨h.semaphore, h.unborn, h.permit, h.holder, ?_, ?_, ?_, h.listed, h.done, h.clean,
    h.returned, h.entries, h.copy⟩
  · rw [hEngaged]
    exact Nat.le_refl 1
  · intro r₁ r₂ hHolds₁ hMem
    rw [hEngaged] at hMem
    exact (List.mem_singleton.mp hMem).trans (h.holder r r₁ hHolds hHolds₁)
  · intro r' hMem
    rw [hQueue, hHand] at hMem
    obtain rfl : r' = r := by simpa using hMem
    exact ⟨by rw [hWaiting]; rfl, hDone⟩

/-- A handler submits its request. -/
theorem submit_request (h : Invariant s) (hParsing : (s.requests r).handler = .parsing)
    {max_tokens : Int} : Invariant (s.submit_request cfg r max_tokens) := by
  have hHolds : (s.requests r).handler.holds = true := by
    rw [hParsing]
    rfl
  have hDone : s.settled.done r = false := by
    apply Bool.eq_false_iff.mpr
    intro hDone
    have hSubmitted := h.done r hDone
    rw [hParsing] at hSubmitted
    exact absurd hSubmitted (by decide)
  have hWaiting : Invariant { s.setHandler r .waiting with semaphore := s.semaphore } :=
    h.setHandler hHolds ⟨h.semaphore, fun _ => h.permit r hHolds⟩ (fun _ => rfl) (by simp)
  have hRequest := hWaiting.of_handlers (Function.update s.requests r { s.requests r with
      handler := .waiting, max_tokens := (max 1 (min max_tokens cfg.max_seq_len)).toNat }) fun r' => by
    by_cases hr : r' = r
    · simp [hr, State.setHandler, State.setRequest]
    · simp [hr, State.setHandler, State.setRequest]
  exact hRequest.enqueue (by simp) (h.engaged_of_parsing hParsing) hDone

/-- A new request takes a permit when the engine has no request that its thread
has given up, hence none at all. -/
theorem inference (h : Invariant s) (hGuard : Attended s .inference) : Invariant s.inference := by
  unfold State.inference
  split
  next hFree =>
    have hFree' := hGuard hFree.1 hFree.2
    have hNone : s.engaged = [] := by
      apply List.eq_nil_iff_forall_not_mem.mpr
      intro r hEngaged
      rcases h.of_engaged hEngaged with hWaiting | hGaveUp
      · have hPermit := h.permit r (by rw [hWaiting]; rfl)
        exact absurd hFree.2 (Nat.not_lt.mpr (Nat.le_of_eq hPermit))
      · exact hFree' r hEngaged hGaveUp
    have hNobody : ∀ r, (s.requests r).handler.holds = false := by
      intro r
      apply Bool.eq_false_iff.mpr
      exact fun hHolds => absurd hFree.2 (Nat.not_lt.mpr (Nat.le_of_eq (h.permit r hHolds)))
    have hHandler : ∀ r, ((s.setRequest s.nextRequest { handler := .parsing }).requests r).handler =
        if r = s.nextRequest then .parsing else (s.requests r).handler := by
      intro r
      simp only [State.setRequest, Function.update_apply]
      split <;> rfl
    have hNew : (s.requests s.nextRequest).handler = .refused := h.unborn _ (Nat.le_refl _)
    have hOnly : ∀ r, ((s.setRequest s.nextRequest { handler := .parsing }).requests r).handler.holds
        = true → r = s.nextRequest := by
      intro r hHolds
      rw [hHandler] at hHolds
      split at hHolds
      next hr => exact hr
      next =>
        rw [hNobody] at hHolds
        exact absurd hHolds (by simp)
    have hStill : ∀ r, (s.requests r).handler.submitted = true →
        ((s.setRequest s.nextRequest { handler := .parsing }).requests r).handler.submitted = true := by
      intro r hOld
      rw [hHandler]
      split
      next hr =>
        rw [hr, hNew] at hOld
        exact absurd hOld (by decide)
      next => exact hOld
    have hOne := h.semaphore
    refine ⟨?_, ?_, ?_, ?_, h.engaged, ?_, ?_, ?_, ?_, h.clean, ?_, h.entries, h.copy⟩
    · exact Nat.le_trans (Nat.sub_le _ _) hOne
    · intro r hLe
      have hLt : s.nextRequest < r := hLe
      show ((s.setRequest s.nextRequest { handler := .parsing }).requests r).handler = .refused
      rw [hHandler, if_neg (Nat.ne_of_gt hLt)]
      exact h.unborn r (Nat.le_of_lt hLt)
    · exact fun r _ => Nat.sub_eq_zero_of_le hOne
    · exact fun r r' hHolds hHolds' => (hOnly r hHolds).trans (hOnly r' hHolds').symm
    · intro r r' _ hEngaged
      have hEngaged' : r' ∈ s.engaged := hEngaged
      rw [hNone] at hEngaged'
      exact absurd hEngaged' (by simp)
    · exact fun r hQueued => ⟨hStill r (h.queued r hQueued).1, (h.queued r hQueued).2⟩
    · exact fun e hEntry => hStill e.2 (h.listed e hEntry)
    · exact fun r hDone => hStill r (h.done r hDone)
    · intro r hReturned
      have hReturned' := (hHandler r).symm.trans hReturned
      split at hReturned'
      next => exact absurd hReturned' (by simp)
      next => exact h.returned r hReturned'
  next =>
    have hSame := h.of_handlers (Function.update s.requests s.nextRequest {}) fun r => by
      by_cases hr : r = s.nextRequest
      · rw [hr, Function.update_self]
        exact (h.unborn _ (Nat.le_refl _)).symm
      · rw [Function.update_of_ne hr]
    exact ⟨hSame.semaphore, fun r hLe => hSame.unborn r (Nat.le_of_succ_le hLe), hSame.permit,
      hSame.holder, hSame.engaged, hSame.attended, hSame.queued, hSame.listed, hSame.done, hSame.clean,
      hSame.returned, hSame.entries, hSame.copy⟩

/-- The engine takes the one request that there is. -/
theorem take (h : Invariant s) (hPc : s.pc = .accept) {rest : List RequestId} (hQueue : s.request_queue = r :: rest) :
    Invariant { s with request_queue := rest, pc := .claim r } := by
  have hQueued := h.queued
  have hEngaged := h.engaged
  have hAttended := h.attended
  simp only [State.engaged, hPc, hQueue, Pc.hand, List.append_nil] at hQueued hEngaged hAttended
  have hLength : rest.length = 0 := by
    simp only [List.cons_append, List.length_cons, List.length_append] at hEngaged
    omega
  obtain rfl := List.eq_nil_of_length_eq_zero hLength
  exact ⟨h.semaphore, h.unborn, h.permit, h.holder, hEngaged, hAttended, hQueued, h.listed, h.done,
    h.clean, h.returned, h.entries, by simp [Pc.slots]⟩

section Engine

variable (h : Invariant s) (hTodo : s.todo = [])

include h hTodo

/-- The engine's copy is the table, with one request at most. -/
theorem copy_eq {slots : Dict} (hSlots : slots ∈ s.pc.slots) : slots = s.table.active_slots := by
  rw [h.copy slots hSlots, State.settled_eq hTodo]

/-- A request in the table is not done. -/
theorem not_done {e : SlotId × RequestId} (hEntry : e ∈ s.table.entries) : s.table.done e.2 = false := by
  have hClean := h.clean
  rw [State.settled_eq hTodo] at hClean
  exact hClean e hEntry

/-- The engine answers a request that it could not claim a slot for. -/
theorem answer_claimed (hPc : s.pc = .claim r) :
    Invariant { s with todo := [.set_future r], pc := .accept } := by
  have hHand : r ∈ s.request_queue ++ s.pc.hand := by simp [hPc, Pc.hand]
  have hLength := h.engaged
  simp only [State.engaged, hPc, Pc.hand, List.length_append, List.length_singleton] at hLength
  have hQueue : s.request_queue = [] := List.eq_nil_of_length_eq_zero (by omega)
  refine h.script rfl (fun r' hSet => ?_) (fun e hEntry => ?_) (by simp [Pc.slots])
  · obtain rfl : r' = r := by simpa using hSet
    exact ⟨(h.queued r' hHand).1, by simp [hQueue]⟩
  · show Function.update s.table.done r true e.2 = false
    rw [Function.update_of_ne (h.fresh hHand hEntry)]
    exact h.not_done hTodo hEntry

/-- The request in the hand of the engine is the only one, so its slot is. -/
theorem adopt (hPc : s.pc = .claim r) (slot_id : SlotId) :
    Invariant { s with
      table := { s.table with pending_slots := Dict.set s.table.pending_slots slot_id r }
      pc := .accept } := by
  have hHand : r ∈ s.request_queue ++ s.pc.hand := by simp [hPc, Pc.hand]
  have hUndone : s.table.undone = s.table.entries :=
    List.filter_eq_self.mpr fun e hEntry => by simp [h.not_done hTodo hEntry]
  have hLength := h.engaged
  simp only [State.engaged, hPc, Pc.hand, hUndone, List.length_append, List.length_map,
    List.length_singleton] at hLength
  have hQueue : s.request_queue = [] := List.eq_nil_of_length_eq_zero (by omega)
  have hEntries : s.table.entries = [] := List.eq_nil_of_length_eq_zero (by omega)
  obtain ⟨hPending, hActive⟩ := List.append_eq_nil_iff.mp hEntries
  obtain ⟨hSubmitted, hDone⟩ := h.queued r hHand
  rw [State.settled_eq hTodo] at hDone
  have hTable : { s.table with pending_slots := Dict.set s.table.pending_slots slot_id r } =
      Table.mk [(slot_id, r)] [] s.table.done := by
    show Table.mk (Dict.set s.table.pending_slots slot_id r) s.table.active_slots s.table.done = _
    rw [hPending, hActive]
    rfl
  have hSettled : State.settled { s with table := Table.mk [(slot_id, r)] [] s.table.done, pc := .accept } =
      Table.mk [(slot_id, r)] [] s.table.done := State.settled_eq hTodo
  have hEngaged : State.engaged { s with table := Table.mk [(slot_id, r)] [] s.table.done, pc := .accept } =
      [r] := by
    simp [State.engaged, Pc.hand, Table.undone, Table.entries, hQueue, hDone]
  have hOld := h.done
  rw [State.settled_eq hTodo] at hOld
  have hAttended : ∀ r', (s.requests r').handler.holds = true → r = r' := fun r' hHolds =>
    h.attended r' r hHolds (List.mem_append_left _ hHand)
  rw [hTable]
  refine ⟨h.semaphore, h.unborn, h.permit, h.holder, ?_, ?_, ?_, ?_, ?_, ?_, h.returned, Nat.le_refl 1, ?_⟩
  · rw [hEngaged]
    exact Nat.le_refl 1
  · intro r₁ r₂ hHolds hMem
    rw [hEngaged] at hMem
    exact (List.mem_singleton.mp hMem).trans (hAttended r₁ hHolds)
  · simp [hQueue, Pc.hand]
  · intro e hEntry
    obtain rfl := List.mem_singleton.mp hEntry
    exact hSubmitted
  · rw [hSettled]
    exact hOld
  · rw [hSettled]
    intro e hEntry
    obtain rfl := List.mem_singleton.mp hEntry
    exact hDone
  · simp [Pc.slots]

/-- It prepares a slot. -/
theorem prepare (hPc : s.pc = .claim r) {slot_id : SlotId} {length : Nat} :
    Invariant (s.prepare cfg r slot_id length) := by
  refine ((h.adopt hTodo hPc slot_id).of_handlers (s.prepare cfg r slot_id length).requests
    fun r' => ?_).frame
  by_cases hr : r' = r
  · simp [hr, State.prepare, State.setRequest]
  · simp [hr, State.prepare, State.setRequest]

/-- It activates the slot, or gives up on it. -/
theorem try_activate_pending_slots (late : List SlotId) :
    Invariant (s.try_activate_pending_slots late) := by
  have hJoined := h.of_handlers (fun r => if r ∈ s.table.pending_slots.map Prod.snd then
    { s.requests r with joined := true } else s.requests r) fun r => by split <;> rfl
  have hShape := Table.shape h.entries
  have hNotDone : ∀ e ∈ s.table.entries, s.table.done e.2 = false :=
    fun e hEntry => h.not_done hTodo hEntry
  refine hJoined.script rfl (hJoined.set_of_listed fun r hSet => ?_) ?_ (by simp [Pc.slots])
  · simp only [List.mem_append, List.mem_flatMap, List.mem_map, reduceCtorEq, and_false, exists_false,
      or_false, List.mem_filter] at hSet
    obtain ⟨e, ⟨hPending, -⟩, hSet⟩ := hSet
    obtain rfl : r = e.2 := by simpa using hSet
    exact ⟨e, List.mem_append_left _ hPending, rfl⟩
  · rcases hShape with ⟨hP, hA⟩ | ⟨e, hP, hA⟩ | ⟨e, hP, hA⟩
    · simp [Table.run, Table.entries, hP, hA]
    · obtain ⟨slot_id, r⟩ := e
      have hEntry := hNotDone (slot_id, r) (by simp [Table.entries, hP])
      cases hActive : s.active_slot_mask slot_id with
      | true =>
          simp [Table.run, Table.act, Table.entries, Dict.pop, Dict.set, hP, hA, hActive,
            hEntry]
      | false =>
          cases hLate : (s.requests r).joined && late.contains slot_id with
          | true =>
              simp_all [Table.run, Table.act, Table.entries, Dict.pop]
          | false => simp_all [Table.run, Table.entries]
    · simpa [Table.run, Table.entries, hP, hA] using hNotDone e (by simp [Table.entries, hA])

/-- It begins a call. -/
theorem begin_call {slots : Dict} (hSlots : slots ∈ s.pc.slots) (exhausted : List SlotId) :
    Invariant (s.begin_call cfg slots exhausted) := by
  obtain rfl := h.copy_eq hTodo hSlots
  have hClean : ∀ e ∈ s.table.entries, s.table.done e.2 = false :=
    fun e hEntry => h.not_done hTodo hEntry
  obtain ⟨hLeft, hStill⟩ := Table.run_teardown h.entries hClean fun e =>
    s.evicted_slot_mask e.1 || exhausted.contains e.1
  have hScript : Invariant { s with
      todo := (s.begin_call cfg s.table.active_slots exhausted).todo
      pc := (s.begin_call cfg s.table.active_slots exhausted).pc } := by
    refine h.script ?_ (h.set_of_listed fun r hSet => ?_) hStill fun slots hNew => ?_
    · simp only [State.begin_call]
      split <;> rfl
    · simp only [State.begin_call, List.mem_flatMap, List.mem_filter] at hSet
      obtain ⟨e, ⟨hActive, -⟩, hSet⟩ := hSet
      obtain rfl : r = e.2 := by simpa using hSet
      exact ⟨e, List.mem_append_right _ hActive, rfl⟩
    · refine Eq.trans ?_ hLeft.symm
      simp only [State.begin_call] at hNew
      split at hNew
      next => exact (Option.some.inj hNew).symm
      next => exact (Option.some.inj hNew).symm
  exact hScript.frame

/-- It goes on to the next operation. -/
theorem next {slots : Dict} (hSlots : slots ∈ s.pc.slots) (rest : List (Op × Nat)) :
    Invariant (s.next slots rest) := by
  obtain rfl := h.copy_eq hTodo hSlots
  cases rest with
  | nil => exact h.move hTodo rfl (by simp [Pc.slots])
  | cons op rest => exact h.move hTodo rfl (by simp [Pc.slots])

end Engine

/-- It takes tokens. -/
theorem get_tokens (h : Invariant s) (slots : Dict) : Invariant (slots.foldl State.get_token s) := by
  induction slots generalizing s with
  | nil => exact h
  | cons e slots ih =>
      apply ih
      unfold State.get_token
      dsimp only
      split
      next =>
        apply h.of_handlers
        intro r
        by_cases hr : r = e.2 <;> simp [hr]
      next =>
        apply h.of_handlers
        intro r
        by_cases hr : r = e.2 <;> simp [hr]

/-- It ends the call. -/
theorem collect (h : Invariant s) (hTodo : s.todo = []) {slots : Dict} (hSlots : slots ∈ s.pc.slots)
    (command : Command) (rest : List (Op × Nat)) : Invariant (s.collect slots command rest) := by
  unfold State.collect
  split
  next => exact h.next hTodo hSlots rest
  next =>
    have hFold := h.get_tokens slots
    have hSame := State.get_tokens_eq s slots
    refine hFold.next ?_ ?_ rest
    · rw [hSame]
      exact hTodo
    · rw [hSame]
      exact hSlots
  all_goals
    split
    next => exact h.next hTodo hSlots rest
    next => exact h.fail

/-- It completes requests. -/
theorem handle_completions (h : Invariant s) (hTodo : s.todo = []) {slots : Dict}
    (hSlots : slots ∈ s.pc.slots) : Invariant (s.handle_completions cfg slots) := by
  obtain rfl := h.copy_eq hTodo hSlots
  have hNotDone : ∀ e ∈ s.table.entries, s.table.done e.2 = false :=
    fun e hEntry => h.not_done hTodo hEntry
  refine h.script rfl (h.set_of_listed fun r hSet => ?_) ?_ (by simp [Pc.slots])
  · simp only [List.mem_append, List.mem_map, reduceCtorEq, and_false, exists_false, or_false,
      List.mem_filter, Action.set_future.injEq] at hSet
    obtain ⟨e, ⟨hActive, -⟩, rfl⟩ := hSet
    exact ⟨e, List.mem_append_right _ hActive, rfl⟩
  · rcases Table.shape h.entries with ⟨hP, hA⟩ | ⟨e, hP, hA⟩ | ⟨e, hP, hA⟩
    · simp [Table.run, Table.entries, hP, hA]
    · simpa [Table.run, Table.entries, hP, hA] using hNotDone e (by simp [Table.entries, hP])
    · have hEntry := hNotDone e (by simp [Table.entries, hA])
      cases hCompleted : s.completed cfg e with
      | true => simp [Table.run, Table.act, Table.entries, Dict.pop, hP, hA, hCompleted]
      | false => simpa [Table.run, Table.entries, hP, hA, hCompleted] using hEntry

/-- Whatever the engine does, it has one request at most. -/
theorem engine (h : Invariant s) (hTodo : s.todo = []) {move : Move}
    (hMove : Worker.engine cfg s move = some s') : Invariant s' := by
  cases engine_move hMove with
  | loop hPc => exact h.move hTodo (by split <;> rfl) (by split <;> simp [Pc.slots])
  | accepted hPc hQueue => exact h.move hTodo rfl (by simp [Pc.slots])
  | take hPc hQueue => exact h.take hPc hQueue
  | answer hPc => exact h.answer_claimed hTodo hPc
  | prepare hPc => exact h.prepare hTodo hPc
  | @activate late hPc => exact h.try_activate_pending_slots hTodo late
  | snapshot hPc =>
      refine h.move hTodo ?_ ?_
      · split
        next => rfl
        next => split <;> rfl
      · split
        next => simp [Pc.slots]
        next => split <;> simp [Pc.slots]
  | wake hPc => exact h.move hTodo rfl (by simp [Pc.slots])
  | @generate exhausted slots hPc => exact h.begin_call hTodo (by rw [hPc]; rfl) exhausted
  | @submit slot_id r slots op rest hPc =>
      have hCopy : (slot_id, r) :: slots = s.table.active_slots :=
        h.copy_eq hTodo (by rw [hPc]; rfl)
      have hSync : Invariant { s with pc := (s.submit ((slot_id, r) :: slots) op rest slot_id).pc } :=
        h.move hTodo rfl fun slots' hSlots => (Option.some.inj hSlots).symm.trans hCopy
      exact hSync.frame
  | @sync slots command rest executed hPc =>
      exact h.collect hTodo (by rw [hPc]; rfl) command rest
  | @check slots hPc =>
      have hCopy : slots = s.table.active_slots := h.copy_eq hTodo (by rw [hPc]; rfl)
      refine h.move hTodo ?_ ?_
      · split <;> rfl
      · split <;> exact fun slots' hSlots => (Option.some.inj hSlots).symm.trans hCopy
  | complete hPc => exact h.handle_completions hTodo (by rw [hPc]; rfl)
  | recover hPc => exact h.move hTodo rfl (by simp [Pc.slots])

/-- Every attended step keeps the invariant. -/
theorem step (h : Invariant s) (hGuard : Attended s l) (hStep : Worker.step cfg s l = some s') :
    Invariant s' := by
  cases l with
  | inference =>
      obtain rfl := Option.some.inj hStep
      exact h.inference hGuard
  | refuse r =>
      simp only [Worker.step, Option.ite_none_right_eq_some, Option.some.injEq] at hStep
      obtain ⟨hParsing, rfl⟩ := hStep
      exact h.release (by rw [hParsing]; rfl) rfl (by simp [hParsing, Handler.submitted]) (by simp)
  | abort r =>
      simp only [Worker.step, Option.ite_none_right_eq_some, Option.some.injEq] at hStep
      obtain ⟨hParsing, rfl⟩ := hStep
      have hHolds : (s.requests r).handler.holds = true := by rw [hParsing]; rfl
      exact h.setHandler hHolds ⟨h.semaphore, fun _ => h.permit r hHolds⟩
        (by simp [hParsing, Handler.submitted]) (by simp)
  | submit_request r max_tokens =>
      simp only [Worker.step, Option.ite_none_right_eq_some, Option.some.injEq] at hStep
      obtain ⟨hParsing, rfl⟩ := hStep
      exact h.submit_request hParsing
  | answer r =>
      simp only [Worker.step, Option.ite_none_right_eq_some, Option.some.injEq] at hStep
      obtain ⟨⟨hWaiting, hDone⟩, rfl⟩ := hStep
      exact h.release (by rw [hWaiting]; rfl) rfl (fun _ => rfl) fun _ => hDone
  | timeout r =>
      simp only [Worker.step, Option.ite_none_right_eq_some, Option.some.injEq] at hStep
      obtain ⟨⟨hWaiting, -⟩, rfl⟩ := hStep
      exact h.release (by rw [hWaiting]; rfl) rfl (fun _ => rfl) (by simp)
  | engine move =>
      simp only [Worker.step, Option.ite_none_right_eq_some] at hStep
      exact h.engine hStep.1 hStep.2
  | act =>
      simp only [Worker.step] at hStep
      split at hStep
      next => simp at hStep
      next action todo hTodo =>
        obtain rfl := Option.some.inj hStep
        exact h.act hTodo
  | raise =>
      simp only [Worker.step, Option.ite_none_right_eq_some, Option.some.injEq] at hStep
      obtain ⟨-, rfl⟩ := hStep
      exact h.fail
  | execute value =>
      simp only [Worker.step] at hStep
      split at hStep
      next slots command rest hPc =>
        simp only [Option.ite_none_right_eq_some, Option.some.injEq] at hStep
        obtain ⟨-, rfl⟩ := hStep
        have hPlace : Invariant { s with pc := .sync slots command rest true } :=
          h.of_pc (by rw [hPc]; rfl) (by rw [hPc]; rfl)
        exact hPlace.frame
      next => simp at hStep
  | write slot_id value =>
      simp only [Worker.step, Option.ite_none_left_eq_some, Option.some.injEq] at hStep
      obtain ⟨-, rfl⟩ := hStep
      exact h.frame
  | shutdown | stop | join slot_id | leave slot_id | evict slot_id =>
      obtain rfl := Option.some.inj hStep
      exact h.frame

end Invariant

end Worker
