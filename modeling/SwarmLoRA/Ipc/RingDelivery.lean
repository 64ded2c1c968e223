import SwarmLoRA.Machine.System
import SwarmLoRA.Ipc.Command

/-! Any number of producers that call `submit_slot_command` at any time, and the aggregator's
loop as the one consumer: it drains ready entries, stores the tail, and only then executes the
batch through pointers into the ring. -/
namespace Ipc.RingDelivery

open Machine

/-- Where the consumer stands. `tail` is its local copy, ahead of the shared one
until it is stored. -/
inductive ConsumerPc where
  | idle
  | polling (tail : Nat)
  | taking (tail : Nat)
  | executing
  deriving DecidableEq

/-- `commands` holds the entries of the batch by their index in the ring. The
tickets of the batch, the tickets consumed so far and the number of commands
whose execution is over are history variables. -/
structure State where
  ring : CommandRing Command
  calls : Nat → Option (Command × SubmitPc)
  pc : ConsumerPc
  commands : List Nat
  tickets : List Nat
  consumed : List Nat
  finished : Nat

/-- How much is drained and which of it is kept in the batch depends on the
barrier, so both are free here. -/
inductive Label where
  | submit (p : Nat) (cmd : Command)
  | advance (p : Nat) (spurious : Bool)
  | leave (p : Nat)
  | begin
  | poll
  | take (keep : Bool)
  | storeTail
  | finish

def step (s : State) : Label → Option State
  | .submit p cmd =>
      if s.calls p = none ∧ submit_slot_command_check cmd = .ok () then
        some { s with calls := Function.update s.calls p (some (cmd, .loadHead)) }
      else none
  | .advance p spurious =>
      match s.calls p with
      | none => none
      | some (cmd, pc) =>
          let next := s.ring.submit Command.layout cmd spurious pc
          some { s with ring := next.1, calls := Function.update s.calls p (some (cmd, next.2)) }
  | .leave p =>
      match s.calls p with
      | some (_, .returned) | some (_, .full) =>
          some { s with calls := Function.update s.calls p none }
      | _ => none
  | .begin => if s.pc = .idle then some { s with pc := .polling s.ring.tail } else none
  | .poll =>
      match s.pc with
      | .polling tail =>
          if (s.ring.entries tail).ready then some { s with pc := .taking tail } else none
      | _ => none
  | .take keep =>
      match s.pc with
      | .taking tail =>
          let ticket := (s.ring.entries tail).ticket
          some { s with
            ring := s.ring.clearReady tail
            pc := .polling ((tail + 1) % s.ring.capacity)
            commands := if keep then s.commands ++ [tail] else s.commands
            tickets := if keep then s.tickets ++ [ticket] else s.tickets
            consumed := s.consumed ++ [ticket] }
      | _ => none
  | .storeTail =>
      match s.pc with
      | .polling tail => some { s with ring := { s.ring with tail := tail }, pc := .executing }
      | _ => none
  | .finish =>
      if s.pc = .executing then
        some { s with pc := .idle, commands := [], tickets := [], finished := s.consumed.length }
      else none

/-- An empty ring of at least two entries, as `create_queue` maps it. -/
def initial (s : State) : Prop :=
  2 ≤ s.ring.capacity ∧ s.ring.head = 0 ∧ s.ring.tail = 0 ∧
  (∀ i, (s.ring.entries i).ready = false) ∧ s.ring.log = [] ∧ (∀ p, s.calls p = none) ∧
  s.pc = .idle ∧ s.commands = [] ∧ s.tickets = [] ∧ s.consumed = [] ∧ s.finished = 0

def machine : System State Label := ⟨initial, step⟩

/-- The entry that producer `p` has reserved and not marked ready. -/
def filling (calls : Nat → Option (Command × SubmitPc)) (p : Nat) : Option (Filling Command) :=
  (calls p).bind fun call => call.2.filling call.1

/-- Commands are consumed in the order of their reservations and each once, the
executor finds in the entries of its batch what was submitted, every command not
yet consumed is being written by its producer or waits unchanged in its entry, and
no producer writes into an entry of the batch or one that waits. -/
structure Delivered (s : State) : Prop where
  in_order : s.consumed = List.range s.consumed.length
  reserved : s.consumed.length ≤ s.ring.log.length
  batch : ∀ n i ticket : Nat, s.commands[n]? = some i → s.tickets[n]? = some ticket →
    ticket ∈ s.consumed ∧ s.ring.log[ticket]? = some (s.ring.entries i).command
  waiting : ∀ ticket, s.consumed.length ≤ ticket → ticket < s.ring.log.length →
    (∃! p, ∃ f, filling s.calls p = some f ∧ f.ticket = ticket ∧
      s.ring.log[ticket]? = some f.command) ∨
    ((s.ring.entries (ticket % s.ring.capacity)).ready = true ∧
      (s.ring.entries (ticket % s.ring.capacity)).ticket = ticket ∧
      s.ring.log[ticket]? = some (s.ring.entries (ticket % s.ring.capacity)).command)
  untouched : ∀ p f, filling s.calls p = some f →
    f.index ∉ s.commands ∧ (s.ring.entries f.index).ready = false

/-- The condition on a step: a reservation is made only while fewer commands than
the ring has entries are reserved and not yet executed. -/
def HasRoom (s : State) : Label → Prop
  | .advance p spurious =>
      match s.calls p with
      | none => True
      | some (_, pc) => s.ring.reserves spurious pc = true →
          s.ring.log.length < s.finished + s.ring.capacity
  | _ => True

instance (s : State) (l : Label) : Decidable (HasRoom s l) := by
  unfold HasRoom
  split
  · split <;> infer_instance
  · infer_instance

structure Invariant (s : State) : Prop where
  consistent : s.ring.Consistent Command.layout (filling s.calls) s.finished s.consumed.length
  in_order : s.consumed = List.range s.consumed.length
  tail : match s.pc with
    | .idle | .executing => s.ring.tail = s.consumed.length % s.ring.capacity
    | .polling tail => tail = s.consumed.length % s.ring.capacity
    | .taking tail => tail = s.consumed.length % s.ring.capacity ∧
        (s.ring.entries tail).ready = true
  commands : s.commands = s.tickets.map (· % s.ring.capacity)
  tickets : ∀ ticket ∈ s.tickets, s.finished ≤ ticket ∧ ticket < s.consumed.length

theorem invariant_initial {s : State} (h : initial s) : Invariant s := by
  obtain ⟨hCapacity, hHead, hTail, hReady, hLog, hCalls, hPc, hCommands, hTickets, hConsumed,
    hFinished⟩ := h
  have hFilling : ∀ p, filling s.calls p = none := fun p => by simp [filling, hCalls]
  refine ⟨⟨by omega, ?_, ?_, ?_, ?_, ?_, ?_, ?_, ?_, ?_⟩, ?_, ?_, ?_, ?_⟩
  · omega
  · simp [hConsumed]
  · simp [hLog]
  · simp [hLog, hHead]
  · simp [hFilling]
  · simp [hFilling]
  · simp [hReady]
  · simp [hLog]
  · simp [hConsumed]
  · simp [hConsumed]
  · simp [hPc, hTail, hConsumed]
  · simp [hCommands, hTickets]
  · simp [hTickets]

theorem filling_update (calls : Nat → Option (Command × SubmitPc)) (p : Nat)
    (call : Option (Command × SubmitPc)) :
    filling (Function.update calls p call) =
      Function.update (filling calls) p (call.bind fun c => c.2.filling c.1) := by
  funext p'
  by_cases hp : p' = p
  · subst hp
    simp [filling]
  · simp [filling, Function.update_of_ne hp]

/-- Entering and leaving a call is no step of the ring. -/
theorem Invariant.calls {s : State} {p : Nat} {call : Option (Command × SubmitPc)}
    (h : Invariant s) (hBefore : filling s.calls p = none)
    (hAfter : (call.bind fun c => c.2.filling c.1) = none) :
    Invariant { s with calls := Function.update s.calls p call } := by
  refine ⟨?_, h.in_order, h.tail, h.commands, h.tickets⟩
  have hSame : filling (Function.update s.calls p call) = filling s.calls := by
    rw [filling_update, hAfter, ← hBefore, Function.update_eq_self]
  simpa only [hSame] using h.consistent

/-- A step of a call is one of the ring, which leaves what the executor looks at as it is. -/
theorem Invariant.advance {s : State} {p : Nat} {spurious : Bool} {cmd : Command} {pc : SubmitPc}
    (h : Invariant s) (hCall : s.calls p = some (cmd, pc))
    (hRoom : s.ring.reserves spurious pc = true →
      s.ring.log.length < s.finished + s.ring.capacity) :
    Invariant { s with
      ring := (s.ring.submit Command.layout cmd spurious pc).1
      calls := Function.update s.calls p
        (some (cmd, (s.ring.submit Command.layout cmd spurious pc).2)) } := by
  have hFilling : filling s.calls p = pc.filling cmd := by simp [filling, hCall]
  obtain ⟨hCapacity, hTail, hReady⟩ := s.ring.submit_frame Command.layout cmd spurious pc
  refine ⟨?_, h.in_order, ?_, ?_, h.tickets⟩
  · simp only [filling_update]
    exact h.consistent.submit hFilling hRoom rfl
  · have hOld := h.tail
    cases hPc : s.pc with
    | idle => simpa only [hPc, hCapacity, hTail] using hOld
    | executing => simpa only [hPc, hCapacity, hTail] using hOld
    | polling tail => simpa only [hPc, hCapacity] using hOld
    | taking tail =>
        simp only [hPc] at hOld
        simp only [hCapacity]
        exact ⟨hOld.1, hReady tail hOld.2⟩
  · simpa only [hCapacity] using h.commands

/-- The entry that is taken holds the next command in the order of the reservations. -/
theorem Invariant.take {s : State} (h : Invariant s) (keep : Bool) {tail : Nat}
    (hPc : s.pc = .taking tail) :
    Invariant { s with
      ring := s.ring.clearReady tail
      pc := .polling ((tail + 1) % s.ring.capacity)
      commands := if keep then s.commands ++ [tail] else s.commands
      tickets := if keep then s.tickets ++ [(s.ring.entries tail).ticket] else s.tickets
      consumed := s.consumed ++ [(s.ring.entries tail).ticket] } := by
  have hOld := h.tail
  simp only [hPc] at hOld
  obtain ⟨rfl, hReady⟩ := hOld
  have hTicket := h.consistent.ticket_at_tail hReady
  have hLe := h.consistent.finished_le
  refine ⟨?_, ?_, ?_, ?_, ?_⟩
  · simp only [List.length_append, List.length_singleton]
    exact h.consistent.take hReady
  · simp only [hTicket, List.length_append, List.length_singleton, List.range_succ, ← h.in_order]
  · simp [CommandRing.clearReady, Nat.mod_add_mod]
  · simp only [CommandRing.clearReady, h.commands]
    split
    next => simp [hTicket]
    next => rfl
  · simp only [List.length_append, List.length_singleton]
    intro ticket hMem
    split at hMem
    next =>
      rw [List.mem_append, List.mem_singleton] at hMem
      rcases hMem with hMem | rfl
      · have hBounds := h.tickets ticket hMem
        omega
      · rw [hTicket]
        omega
    next =>
      have hBounds := h.tickets ticket hMem
      omega

theorem invariant_step {s s' : State} {l : Label} (h : Invariant s) (hRoom : HasRoom s l)
    (hStep : step s l = some s') : Invariant s' := by
  cases l with
  | submit p cmd =>
      simp only [step, Option.ite_none_right_eq_some, Option.some.injEq] at hStep
      obtain ⟨⟨hIdle, -⟩, rfl⟩ := hStep
      exact h.calls (by simp [filling, hIdle]) rfl
  | advance p spurious =>
      simp only [step] at hStep
      split at hStep
      next => simp at hStep
      next cmd pc hCall =>
        obtain rfl := Option.some.inj hStep
        simp only [HasRoom, hCall] at hRoom
        exact h.advance hCall hRoom
  | leave p =>
      simp only [step] at hStep
      split at hStep
      next hCall =>
        obtain rfl := Option.some.inj hStep
        exact h.calls (by simp [filling, hCall, SubmitPc.filling]) rfl
      next hCall =>
        obtain rfl := Option.some.inj hStep
        exact h.calls (by simp [filling, hCall, SubmitPc.filling]) rfl
      next => simp at hStep
  | begin =>
      simp only [step, Option.ite_none_right_eq_some, Option.some.injEq] at hStep
      obtain ⟨hIdle, rfl⟩ := hStep
      have hOld := h.tail
      simp only [hIdle] at hOld
      exact ⟨h.consistent, h.in_order, hOld, h.commands, h.tickets⟩
  | poll =>
      simp only [step] at hStep
      split at hStep
      next tail hPc =>
        simp only [Option.ite_none_right_eq_some, Option.some.injEq] at hStep
        obtain ⟨hReady, rfl⟩ := hStep
        have hOld := h.tail
        simp only [hPc] at hOld
        exact ⟨h.consistent, h.in_order, ⟨hOld, hReady⟩, h.commands, h.tickets⟩
      next => simp at hStep
  | take keep =>
      simp only [step] at hStep
      split at hStep
      next tail hPc =>
        obtain rfl := Option.some.inj hStep
        exact h.take keep hPc
      next => simp at hStep
  | storeTail =>
      simp only [step] at hStep
      split at hStep
      next tail hPc =>
        obtain rfl := Option.some.inj hStep
        have hOld := h.tail
        simp only [hPc] at hOld
        have hc := h.consistent
        exact ⟨⟨hc.positive, hc.finished_le, hc.taken_le, hc.within, hc.head_eq, hc.filled,
          hc.alone, hc.ready, hc.pending, hc.held⟩, h.in_order, hOld, h.commands, h.tickets⟩
      next => simp at hStep
  | finish =>
      simp only [step, Option.ite_none_right_eq_some, Option.some.injEq] at hStep
      obtain ⟨hPc, rfl⟩ := hStep
      have hOld := h.tail
      simp only [hPc] at hOld
      exact ⟨h.consistent.finish, h.in_order, hOld, rfl, by simp⟩

/-- In every run whose reservations all find room, the executor reads exactly what was submitted, in
the order of the reservations and each command once. A reservation finds room if fewer commands than
the ring has entries are still to be executed. Nothing in the ring makes a producer wait for that.
-/
theorem delivered_of_room {s : State} (run : machine.Reach HasRoom s) : Delivered s := by
  have h := run.invariant Invariant (fun _ => invariant_initial)
    fun _ _ _ hi hg hStep => invariant_step hi hg hStep
  have hc := h.consistent
  have hFinished := hc.finished_le
  refine ⟨h.in_order, hc.taken_le, ?_, ?_, ?_⟩
  · intro n i ticket hIndex hTicket
    have hMem := h.tickets ticket (List.mem_of_getElem? hTicket)
    rw [h.commands, List.getElem?_map, hTicket, Option.map_some, Option.some.injEq] at hIndex
    refine ⟨by rw [h.in_order]; exact List.mem_range.mpr hMem.2, ?_⟩
    rw [← hIndex]
    exact hc.held ticket hMem.1 hMem.2
  · intro ticket hTaken hLt
    rcases hc.pending ticket hTaken hLt with ⟨p, f, hf, rfl⟩ | hReady
    · exact .inl ⟨p, ⟨f, hf, rfl, (hc.filled p f hf).2.1⟩,
        fun p' ⟨f', hf', hEq, _⟩ => hc.alone p' p f' f hf' hf hEq⟩
    · have hHere := hc.ready _ hReady
      have hSame : (s.ring.entries (ticket % s.ring.capacity)).ticket = ticket :=
        (hc.ticket_eq (by omega) (by omega) hLt (hc.ready_lt hReady) hHere.2.2.1).symm
      exact .inr ⟨hReady, hSame, by rw [← hHere.2.1, hSame]⟩
  · intro p f hf
    refine ⟨?_, (hc.filled p f hf).2.2.2.1⟩
    rw [h.commands, List.mem_map]
    rintro ⟨ticket, hMem, hIndex⟩
    exact hc.held_ne hf (h.tickets ticket hMem).1 (h.tickets ticket hMem).2 hIndex

def emptyRing (capacity : Nat) : State where
  ring := {
    capacity, head := 0, tail := 0, log := []
    entries := fun _ => ⟨false, ⟨0, 0, 0, 0, 0, 0, 0, 0, 0, 0, 0, 0⟩, 0⟩ }
  calls := fun _ => none
  pc := .idle
  commands := []
  tickets := []
  consumed := []
  finished := 0

theorem emptyRing_initial {capacity : Nat} (h : 2 ≤ capacity) :
    machine.initial (emptyRing capacity) :=
  ⟨h, rfl, rfl, fun _ => rfl, rfl, fun _ => rfl, rfl, rfl, rfl, rfl, rfl⟩

/-- An embedding of `tx` tokens for slot and worker `n`. -/
def embedCommand (n tx : Int) : Command :=
  ⟨OP_EMBED, 0, n, n, 1, tx, 64, 0, 0, 0, 0, 0⟩

/-- One whole call: four atomic steps and twelve field writes. -/
def submitSchedule (p : Nat) (cmd : Command) : List Label :=
  .submit p cmd :: List.replicate 16 (.advance p false) ++ [.leave p]

/-- Two commands are submitted, drained, executed and done with. -/
theorem delivered_of_two_commands : ∃ s, machine.Reach HasRoom s ∧ s.consumed = [0, 1] ∧
    Delivered s := by
  have hRun : (machine.replayUnder HasRoom (emptyRing 3)
      (submitSchedule 0 (embedCommand 0 5) ++ submitSchedule 1 (embedCommand 1 6) ++
        [.begin, .poll, .take true, .poll, .take true, .storeTail, .finish])).map
      (fun s => s.consumed) = some [0, 1] := by decide +kernel
  obtain ⟨s, hReplay, hConsumed⟩ := Option.map_eq_some_iff.mp hRun
  have run := System.reach_of_replayUnder (.start (emptyRing_initial (by decide))) hReplay
  exact ⟨s, run, hConsumed, delivered_of_room run⟩

/-- In a ring of three entries the tail is stored past two commands before they
are executed, two more are accepted, and the second of them is written over the
entry that the executor is about to read. -/
theorem overwritten_before_executed : ¬ ∀ s, machine.Reachable s → Delivered s := by
  intro hAll
  have hRun : (machine.replay (emptyRing 3)
      (submitSchedule 0 (embedCommand 0 5) ++ submitSchedule 1 (embedCommand 1 6) ++
        [.begin, .poll, .take true, .poll, .take true, .storeTail] ++
        submitSchedule 2 (embedCommand 2 7) ++ submitSchedule 3 (embedCommand 3 8))).map
      (fun s => (s.pc, s.commands[0]?, s.tickets[0]?, (s.ring.entries 0).command,
        s.ring.log[0]?)) =
      some (.executing, some 0, some 0, embedCommand 3 8, some (embedCommand 0 5)) := by
    decide +kernel
  obtain ⟨s, hReplay, hState⟩ := Option.map_eq_some_iff.mp hRun
  have run := System.reachable_of_replay (.start (emptyRing_initial (by decide))) hReplay
  simp only [Prod.mk.injEq] at hState
  obtain ⟨-, hIndex, hTicket, hEntry, hLog⟩ := hState
  have hRead := ((hAll s run).batch 0 0 0 hIndex hTicket).2
  rw [hLog, hEntry] at hRead
  simp [embedCommand] at hRead

end Ipc.RingDelivery
