import Mathlib.Logic.Function.Basic
import Mathlib.Data.List.Basic

/-! The shared command ring: producers reserve an entry by compare-exchange on the head, fill it
in and mark it ready; one consumer takes ready entries at the tail and goes on reading them
after it has moved the tail. -/
namespace Ipc

/-- How a producer fills in an entry: a list of partial copies, each a step of
its own, that together make the entry equal to what is submitted. -/
structure Layout (Command : Type) where
  writes : List (Command → Command → Command)
  complete : ∀ submitted entry,
    writes.foldl (fun entry write => write submitted entry) entry = submitted

/-- `ticket` is a history variable: the reservation whose producer was the last
to mark the entry ready. -/
structure Entry (Command : Type) where
  ready : Bool
  command : Command
  ticket : Nat

/-- `log` is a history variable: the submitted commands in the order in which
their entries were reserved. A command's ticket is its position in the log. -/
structure CommandRing (Command : Type) where
  capacity : Nat
  head : Nat
  tail : Nat
  entries : Nat → Entry Command
  log : List Command

/-- Where a `submit_slot_command` call stands. From the reservation on it carries
the reserved index and, as a history variable, the ticket. After the last field it
marks the entry ready. -/
inductive SubmitPc where
  | loadHead
  | checkFull (head : Nat)
  | casHead (head : Nat)
  | write (index ticket written : Nat)
  | returned
  | full
  deriving DecidableEq

namespace CommandRing

variable {Command : Type} (layout : Layout Command)

def setCommand (r : CommandRing Command) (i : Nat) (command : Command) : CommandRing Command :=
  { r with entries := Function.update r.entries i { r.entries i with command } }

/-- `cmd.ready.store(1)` by the producer that holds the ticket. -/
def markReady (r : CommandRing Command) (i ticket : Nat) : CommandRing Command :=
  let entry := { r.entries i with ready := true, ticket }
  { r with entries := Function.update r.entries i entry }

/-- `cmd->ready.store(0)` by the consumer. -/
def clearReady (r : CommandRing Command) (i : Nat) : CommandRing Command :=
  { r with entries := Function.update r.entries i { r.entries i with ready := false } }

/-- The head moves past the entry at `head`, which now belongs to `command`. -/
def reserve (r : CommandRing Command) (head : Nat) (command : Command) : CommandRing Command :=
  { r with head := (head + 1) % r.capacity, log := r.log ++ [command] }

/-- The next atomic step of `submit_slot_command` after its validation. -/
def submit (r : CommandRing Command) (command : Command) (spurious : Bool) :
    SubmitPc → CommandRing Command × SubmitPc
  | .loadHead => (r, .checkFull r.head)
  | .checkFull head =>
      if (head + 1) % r.capacity = r.tail then (r, .full) else (r, .casHead head)
  | .casHead head =>
      if r.head = head ∧ spurious = false then
        (r.reserve head command, .write head r.log.length 0)
      else (r, .loadHead)
  | .write index ticket written =>
      match layout.writes[written]? with
      | some write => (r.setCommand index (write command (r.entries index).command),
          .write index ticket (written + 1))
      | none => (r.markReady index ticket, .returned)
  | .returned => (r, .returned)
  | .full => (r, .full)

/-- The step of a producer that reserves an entry. -/
def reserves (r : CommandRing Command) (spurious : Bool) : SubmitPc → Bool
  | .casHead head => decide (r.head = head) && !spurious
  | _ => false

end CommandRing

/-- A reserved entry that its producer has not marked ready yet, with how many of its words have
been written. -/
structure Filling (Command : Type) where
  command : Command
  index : Nat
  ticket : Nat
  written : Nat

def SubmitPc.filling {Command : Type} (command : Command) :
    SubmitPc → Option (Filling Command)
  | .write index ticket written => some ⟨command, index, ticket, written⟩
  | _ => none

namespace CommandRing

variable {Command : Type} {layout : Layout Command}

/-- What holds of the ring when `finished` commands have been executed and `taken`
have been taken off it, as long as no more than `capacity` reservations are not
executed yet. `filling p` is the entry that producer `p` is filling in. -/
structure Consistent (layout : Layout Command) (r : CommandRing Command)
    (filling : Nat → Option (Filling Command)) (finished taken : Nat) : Prop where
  positive : 0 < r.capacity
  finished_le : finished ≤ taken
  taken_le : taken ≤ r.log.length
  within : r.log.length ≤ finished + r.capacity
  head_eq : r.head = r.log.length % r.capacity
  filled : ∀ p f, filling p = some f → taken ≤ f.ticket ∧ r.log[f.ticket]? = some f.command ∧
    f.index = f.ticket % r.capacity ∧ (r.entries f.index).ready = false ∧
    ∃ old, (r.entries f.index).command =
      (layout.writes.take f.written).foldl (fun entry write => write f.command entry) old
  alone : ∀ p p' f f', filling p = some f → filling p' = some f' → f.ticket = f'.ticket → p = p'
  ready : ∀ i, (r.entries i).ready = true → taken ≤ (r.entries i).ticket ∧
    r.log[(r.entries i).ticket]? = some (r.entries i).command ∧
    i = (r.entries i).ticket % r.capacity ∧ ∀ p f, filling p = some f → f.index ≠ i
  pending : ∀ ticket, taken ≤ ticket → ticket < r.log.length →
    (∃ p f, filling p = some f ∧ f.ticket = ticket) ∨
      (r.entries (ticket % r.capacity)).ready = true
  held : ∀ ticket, finished ≤ ticket → ticket < taken →
    r.log[ticket]? = some (r.entries (ticket % r.capacity)).command

variable {r : CommandRing Command} {filling : Nat → Option (Filling Command)} {finished taken p : Nat}

/-- Two tickets of a window no longer than the ring have different entries. -/
theorem ticket_eq_of_index_eq {capacity start a b : Nat} (ha : start ≤ a) (hb : start ≤ b)
    (haLt : a < start + capacity) (hbLt : b < start + capacity)
    (hIndex : a % capacity = b % capacity) : a = b := by
  rcases Nat.lt_trichotomy a b with h | h | h
  · have hZero := Nat.sub_mod_eq_zero_of_mod_eq hIndex.symm
    rw [Nat.mod_eq_of_lt (by omega)] at hZero
    omega
  · exact h
  · have hZero := Nat.sub_mod_eq_zero_of_mod_eq hIndex
    rw [Nat.mod_eq_of_lt (by omega)] at hZero
    omega

theorem Consistent.ticket_eq (h : Consistent layout r filling finished taken) {a b : Nat}
    (ha : finished ≤ a) (hb : finished ≤ b) (haLt : a < r.log.length) (hbLt : b < r.log.length)
    (hIndex : a % r.capacity = b % r.capacity) : a = b := by
  have := h.within
  exact ticket_eq_of_index_eq ha hb (by omega) (by omega) hIndex

theorem Consistent.filled_lt (h : Consistent layout r filling finished taken)
    {f : Filling Command} (hf : filling p = some f) : f.ticket < r.log.length :=
  (List.getElem?_eq_some_iff.mp (h.filled p f hf).2.1).1

theorem Consistent.ready_lt (h : Consistent layout r filling finished taken) {i : Nat}
    (hi : (r.entries i).ready = true) : (r.entries i).ticket < r.log.length :=
  (List.getElem?_eq_some_iff.mp (h.ready i hi).2.1).1

/-- Different producers fill in different entries. -/
theorem Consistent.index_ne (h : Consistent layout r filling finished taken)
    {p' : Nat} {f f' : Filling Command} (hf : filling p = some f) (hf' : filling p' = some f')
    (hne : p ≠ p') : f.index ≠ f'.index := by
  intro hIndex
  have hLe := h.finished_le
  have hTaken := (h.filled p f hf).1
  have hTaken' := (h.filled p' f' hf').1
  rw [(h.filled p f hf).2.2.1, (h.filled p' f' hf').2.2.1] at hIndex
  exact hne (h.alone p p' f f' hf hf'
    (h.ticket_eq (by omega) (by omega) (h.filled_lt hf) (h.filled_lt hf') hIndex))

/-- An entry that is still being filled in is not one that the consumer holds. -/
theorem Consistent.held_ne (h : Consistent layout r filling finished taken) {ticket : Nat}
    {f : Filling Command} (hf : filling p = some f) (hFinished : finished ≤ ticket)
    (hTaken : ticket < taken) : ticket % r.capacity ≠ f.index := by
  intro hIndex
  have hLe := h.taken_le
  have hFilled := h.filled p f hf
  rw [hFilled.2.2.1] at hIndex
  have := h.ticket_eq hFinished (by omega) (by omega) (h.filled_lt hf) hIndex
  omega

/-- With room in the ring the reserved entry is nobody else's. -/
theorem Consistent.reserve (h : Consistent layout r filling finished taken)
    (hNone : filling p = none) (hRoom : r.log.length < finished + r.capacity)
    (command : Command) :
    Consistent layout (r.reserve r.head command)
      (Function.update filling p (some ⟨command, r.head, r.log.length, 0⟩)) finished taken := by
  have hLe := h.finished_le
  have hTaken := h.taken_le
  have hNewIndex : ∀ u, finished ≤ u → u < r.log.length → u % r.capacity ≠ r.head := by
    intro u hu hLt hEq
    rw [h.head_eq] at hEq
    have := ticket_eq_of_index_eq hu (by omega) (by omega) (by omega) hEq
    omega
  have hLog : ∀ {u : Nat} {c : Command}, r.log[u]? = some c →
      (r.log ++ [command])[u]? = some c := by
    intro u c hu
    rw [List.getElem?_append_left (List.getElem?_eq_some_iff.mp hu).1, hu]
  have hFilling : ∀ p' f, Function.update filling p
      (some ⟨command, r.head, r.log.length, 0⟩) p' = some f →
      (p' = p ∧ f = ⟨command, r.head, r.log.length, 0⟩) ∨ (p' ≠ p ∧ filling p' = some f) := by
    intro p' f hf
    by_cases hp : p' = p
    · subst hp
      rw [Function.update_self] at hf
      exact .inl ⟨rfl, (Option.some.inj hf).symm⟩
    · rw [Function.update_of_ne hp] at hf
      exact .inr ⟨hp, hf⟩
  refine ⟨h.positive, hLe, ?_, ?_, ?_, ?_, ?_, ?_, ?_, ?_⟩
  · simp only [CommandRing.reserve, List.length_append, List.length_singleton]
    omega
  · simp only [CommandRing.reserve, List.length_append, List.length_singleton]
    omega
  · simp only [CommandRing.reserve, List.length_append, List.length_singleton, h.head_eq]
    exact Nat.mod_add_mod ..
  · intro p' f hf
    simp only [CommandRing.reserve]
    rcases hFilling p' f hf with ⟨-, rfl⟩ | ⟨-, hOld⟩
    · refine ⟨by omega, by simp, h.head_eq, ?_, _, rfl⟩
      by_contra hReady
      have hReady := h.ready r.head (by simpa using hReady)
      have := (List.getElem?_eq_some_iff.mp hReady.2.1).1
      exact hNewIndex _ (by omega) this hReady.2.2.1.symm
    · have hf := h.filled p' f hOld
      exact ⟨hf.1, hLog hf.2.1, hf.2.2⟩
  · intro p₁ p₂ f₁ f₂ h₁ h₂ hTicket
    rcases hFilling p₁ f₁ h₁ with ⟨hp₁, rfl⟩ | ⟨-, hOld₁⟩ <;>
      rcases hFilling p₂ f₂ h₂ with ⟨hp₂, rfl⟩ | ⟨-, hOld₂⟩
    · rw [hp₁, hp₂]
    · have := h.filled_lt hOld₂
      simp only at hTicket
      omega
    · have := h.filled_lt hOld₁
      simp only at hTicket
      omega
    · exact h.alone p₁ p₂ f₁ f₂ hOld₁ hOld₂ hTicket
  · intro i hi
    have hReady := h.ready i hi
    refine ⟨hReady.1, hLog hReady.2.1, hReady.2.2.1, ?_⟩
    intro p' f hf
    rcases hFilling p' f hf with ⟨-, rfl⟩ | ⟨-, hOld⟩
    · have := hNewIndex _ (by have := hReady.1; omega) (h.ready_lt hi)
      exact fun hEq => this (hReady.2.2.1.symm.trans hEq.symm)
    · exact hReady.2.2.2 p' f hOld
  · intro u hu hLt
    simp only [CommandRing.reserve, List.length_append, List.length_singleton] at hLt ⊢
    by_cases hLast : u = r.log.length
    · exact .inl ⟨p, ⟨command, r.head, r.log.length, 0⟩, Function.update_self .., hLast.symm⟩
    · rcases h.pending u hu (by omega) with ⟨p', f, hf, hTicket⟩ | hReady
      · refine .inl ⟨p', f, ?_, hTicket⟩
        rw [Function.update_of_ne, hf]
        rintro rfl
        simp [hNone] at hf
      · exact .inr hReady
  · intro u hu hLt
    exact hLog (h.held u hu hLt)

/-- A producer that writes one more field touches no entry but its own. -/
theorem Consistent.write (h : Consistent layout r filling finished taken)
    {f : Filling Command} {write : Command → Command → Command} (hf : filling p = some f)
    (hWrite : layout.writes[f.written]? = some write) :
    Consistent layout (r.setCommand f.index (write f.command (r.entries f.index).command))
      (Function.update filling p (some { f with written := f.written + 1 })) finished taken := by
  have hSame : ∀ i, ((r.setCommand f.index
      (write f.command (r.entries f.index).command)).entries i).ready = (r.entries i).ready ∧
      ((r.setCommand f.index
        (write f.command (r.entries f.index).command)).entries i).ticket =
        (r.entries i).ticket := by
    intro i
    by_cases hi : i = f.index
    · subst hi
      simp [setCommand]
    · simp [setCommand, Function.update_of_ne hi]
  have hOther : ∀ i, i ≠ f.index → (r.setCommand f.index
      (write f.command (r.entries f.index).command)).entries i = r.entries i := by
    intro i hi
    simp [setCommand, Function.update_of_ne hi]
  refine ⟨h.positive, h.finished_le, h.taken_le, h.within, h.head_eq, ?_, ?_, ?_, ?_, ?_⟩
  · intro p' f' hf'
    by_cases hp : p' = p
    · subst hp
      rw [Function.update_self] at hf'
      obtain rfl := Option.some.inj hf'
      obtain ⟨hTaken, hLog, hIndex, hReady, old, hOld⟩ := h.filled p' f hf
      refine ⟨hTaken, hLog, hIndex, by rw [(hSame _).1]; exact hReady, old, ?_⟩
      simp only [setCommand, Function.update_self, List.take_add_one, hWrite, Option.toList_some,
        List.foldl_append, List.foldl_cons, List.foldl_nil, ← hOld]
    · rw [Function.update_of_ne hp] at hf'
      rw [hOther _ (h.index_ne hf' hf hp)]
      exact h.filled p' f' hf'
  · intro p₁ p₂ f₁ f₂ h₁ h₂ hTicket
    have hOld : ∀ {p' f'}, Function.update filling p
        (some { f with written := f.written + 1 }) p' = some f' →
        ∃ old, filling p' = some old ∧ old.ticket = f'.ticket := by
      intro p' f' hf'
      by_cases hp : p' = p
      · subst hp
        rw [Function.update_self] at hf'
        obtain rfl := Option.some.inj hf'
        exact ⟨f, hf, rfl⟩
      · rw [Function.update_of_ne hp] at hf'
        exact ⟨f', hf', rfl⟩
    obtain ⟨o₁, ho₁, ht₁⟩ := hOld h₁
    obtain ⟨o₂, ho₂, ht₂⟩ := hOld h₂
    exact h.alone p₁ p₂ o₁ o₂ ho₁ ho₂ (by rw [ht₁, ht₂, hTicket])
  · intro i hi
    rw [(hSame i).1] at hi
    have hReady := h.ready i hi
    have hNot : i ≠ f.index := fun hEq => hReady.2.2.2 p f hf hEq.symm
    rw [hOther i hNot]
    refine ⟨hReady.1, hReady.2.1, hReady.2.2.1, ?_⟩
    intro p' f' hf'
    by_cases hp : p' = p
    · subst hp
      rw [Function.update_self] at hf'
      obtain rfl := Option.some.inj hf'
      exact Ne.symm hNot
    · rw [Function.update_of_ne hp] at hf'
      exact hReady.2.2.2 p' f' hf'
  · intro u hu hLt
    rcases h.pending u hu hLt with ⟨p', f', hf', hTicket⟩ | hReady
    · by_cases hp : p' = p
      · subst hp
        rw [hf] at hf'
        obtain rfl := Option.some.inj hf'
        exact .inl ⟨p', _, Function.update_self .., hTicket⟩
      · exact .inl ⟨p', f', by rw [Function.update_of_ne hp, hf'], hTicket⟩
    · exact .inr (by rw [← hReady]; exact (hSame _).1)
  · intro u hu hLt
    change _ = some ((CommandRing.setCommand _ _ _).entries (u % r.capacity)).command
    rw [hOther _ (h.held_ne hf hu hLt)]
    exact h.held u hu hLt

/-- A producer that has written every field hands its entry to the consumer. -/
theorem Consistent.markReady (h : Consistent layout r filling finished taken)
    {f : Filling Command} (hf : filling p = some f) (hDone : layout.writes.length ≤ f.written) :
    Consistent layout (r.markReady f.index f.ticket) (Function.update filling p none)
      finished taken := by
  have hOther : ∀ i, i ≠ f.index → (r.markReady f.index f.ticket).entries i = r.entries i := by
    intro i hi
    simp [CommandRing.markReady, Function.update_of_ne hi]
  have hCommand : ∀ i, ((r.markReady f.index f.ticket).entries i).command =
      (r.entries i).command := by
    intro i
    by_cases hi : i = f.index
    · subst hi
      simp [CommandRing.markReady]
    · rw [hOther i hi]
  have hFilling : ∀ p' f', Function.update filling p none p' = some f' →
      p' ≠ p ∧ filling p' = some f' := by
    intro p' f' hf'
    by_cases hp : p' = p
    · subst hp
      simp at hf'
    · exact ⟨hp, by rwa [Function.update_of_ne hp] at hf'⟩
  obtain ⟨hTaken, hLog, hIndex, -, old, hOld⟩ := h.filled p f hf
  rw [List.take_of_length_le hDone, layout.complete] at hOld
  refine ⟨h.positive, h.finished_le, h.taken_le, h.within, h.head_eq, ?_, ?_, ?_, ?_, ?_⟩
  · intro p' f' hf'
    obtain ⟨hp, hf'⟩ := hFilling p' f' hf'
    rw [hOther _ (h.index_ne hf' hf hp)]
    exact h.filled p' f' hf'
  · intro p₁ p₂ f₁ f₂ h₁ h₂
    exact h.alone p₁ p₂ f₁ f₂ (hFilling p₁ f₁ h₁).2 (hFilling p₂ f₂ h₂).2
  · intro i hi
    by_cases hHere : i = f.index
    · subst hHere
      simp only [CommandRing.markReady, Function.update_self, hOld]
      refine ⟨hTaken, hLog, hIndex, ?_⟩
      intro p' f' hf'
      obtain ⟨hp, hf'⟩ := hFilling p' f' hf'
      exact h.index_ne hf' hf hp
    · rw [hOther i hHere] at hi ⊢
      have hReady := h.ready i hi
      exact ⟨hReady.1, hReady.2.1, hReady.2.2.1,
        fun p' f' hf' => hReady.2.2.2 p' f' (hFilling p' f' hf').2⟩
  · intro u hu hLt
    by_cases hHere : u % r.capacity = f.index
    · exact .inr (by simp [CommandRing.markReady, hHere])
    · rcases h.pending u hu hLt with ⟨p', f', hf', hTicket⟩ | hReady
      · by_cases hp : p' = p
        · subst hp
          rw [hf] at hf'
          obtain rfl := Option.some.inj hf'
          exact absurd (hTicket ▸ hIndex.symm) hHere
        · exact .inl ⟨p', f', by rw [Function.update_of_ne hp, hf'], hTicket⟩
      · right
        change ((CommandRing.markReady _ _ _).entries (u % r.capacity)).ready = true
        rw [hOther _ hHere]
        exact hReady
  · intro u hu hLt
    change _ = some ((CommandRing.markReady _ _ _).entries (u % r.capacity)).command
    rw [hCommand]
    exact h.held u hu hLt

/-- Every step of a producer keeps the ring consistent, given room for the step
that reserves an entry. -/
theorem Consistent.submit (h : Consistent layout r filling finished taken) {command : Command}
    {pc pc' : SubmitPc} {spurious : Bool} {r' : CommandRing Command}
    (hFilling : filling p = pc.filling command)
    (hRoom : r.reserves spurious pc = true → r.log.length < finished + r.capacity)
    (hStep : r.submit layout command spurious pc = (r', pc')) :
    Consistent layout r' (Function.update filling p (pc'.filling command)) finished taken := by
  have hStay : filling p = none → ∀ {pc' : SubmitPc}, pc'.filling command = none →
      Consistent layout r (Function.update filling p (pc'.filling command)) finished taken := by
    intro hNone pc' hAfter
    rwa [hAfter, ← hNone, Function.update_eq_self]
  cases pc with
  | loadHead =>
      obtain ⟨rfl, rfl⟩ := hStep
      exact hStay hFilling rfl
  | checkFull head =>
      simp only [CommandRing.submit] at hStep
      split at hStep <;> obtain ⟨rfl, rfl⟩ := hStep <;> exact hStay hFilling rfl
  | casHead head =>
      simp only [CommandRing.submit] at hStep
      split at hStep
      next hCas =>
        obtain ⟨rfl, rfl⟩ := hStep
        obtain ⟨rfl, rfl⟩ := hCas
        exact h.reserve hFilling (hRoom (by simp [reserves])) command
      next =>
        obtain ⟨rfl, rfl⟩ := hStep
        exact hStay hFilling rfl
  | write index ticket written =>
      simp only [CommandRing.submit] at hStep
      split at hStep
      next write hWrite =>
        obtain ⟨rfl, rfl⟩ := hStep
        exact h.write hFilling hWrite
      next hEnd =>
        obtain ⟨rfl, rfl⟩ := hStep
        exact h.markReady hFilling (List.getElem?_eq_none_iff.mp hEnd)
  | returned =>
      obtain ⟨rfl, rfl⟩ := hStep
      exact hStay hFilling rfl
  | full =>
      obtain ⟨rfl, rfl⟩ := hStep
      exact hStay hFilling rfl

/-- A producer moves neither the tail nor a ready bit down. -/
theorem submit_frame (layout : Layout Command) (r : CommandRing Command) (command : Command)
    (spurious : Bool) (pc : SubmitPc) :
    (r.submit layout command spurious pc).1.capacity = r.capacity ∧
    (r.submit layout command spurious pc).1.tail = r.tail ∧
    ∀ i, (r.entries i).ready = true →
      ((r.submit layout command spurious pc).1.entries i).ready = true := by
  cases pc with
  | write index ticket written =>
      simp only [CommandRing.submit]
      split
      next =>
        refine ⟨rfl, rfl, fun i hi => ?_⟩
        by_cases hIndex : i = index
        · subst hIndex
          simpa [setCommand] using hi
        · simpa [setCommand, Function.update_of_ne hIndex] using hi
      next =>
        refine ⟨rfl, rfl, fun i hi => ?_⟩
        by_cases hIndex : i = index
        · subst hIndex
          simp [CommandRing.markReady]
        · simpa [CommandRing.markReady, Function.update_of_ne hIndex] using hi
  | checkFull head =>
      simp only [CommandRing.submit]
      split <;> exact ⟨rfl, rfl, fun i hi => hi⟩
  | casHead head =>
      simp only [CommandRing.submit]
      split <;> exact ⟨rfl, rfl, fun i hi => hi⟩
  | loadHead => exact ⟨rfl, rfl, fun i hi => hi⟩
  | returned => exact ⟨rfl, rfl, fun i hi => hi⟩
  | full => exact ⟨rfl, rfl, fun i hi => hi⟩

/-- Only a reservation is logged. -/
theorem submit_log (layout : Layout Command) (r : CommandRing Command) (command : Command)
    (spurious : Bool) (pc : SubmitPc) :
    (r.submit layout command spurious pc).1.log =
      if r.reserves spurious pc then r.log ++ [command] else r.log := by
  cases pc with
  | casHead head =>
      by_cases hCas : r.head = head ∧ spurious = false
      · simp [CommandRing.submit, reserves, hCas, CommandRing.reserve]
      · have hNot : r.reserves spurious (.casHead head) = false := by
          by_cases hHead : r.head = head <;> simp_all [reserves]
        simp [CommandRing.submit, hCas, hNot]
  | checkFull head =>
      simp only [CommandRing.submit, reserves]
      split <;> rfl
  | write index ticket written =>
      simp only [CommandRing.submit, reserves]
      split <;> rfl
  | loadHead => rfl
  | returned => rfl
  | full => rfl

/-- The entry at the consumer's tail, once ready, is the oldest one not taken. -/
theorem Consistent.ticket_at_tail (h : Consistent layout r filling finished taken)
    (hReady : (r.entries (taken % r.capacity)).ready = true) :
    (r.entries (taken % r.capacity)).ticket = taken := by
  have hLe := h.finished_le
  have hHere := h.ready _ hReady
  have hLt := h.ready_lt hReady
  exact (h.ticket_eq (by omega) (by omega) (by omega) hLt hHere.2.2.1).symm

/-- The consumer takes the entry at its tail. -/
theorem Consistent.take (h : Consistent layout r filling finished taken)
    (hReady : (r.entries (taken % r.capacity)).ready = true) :
    Consistent layout (r.clearReady (taken % r.capacity)) filling finished (taken + 1) := by
  have hLe := h.finished_le
  have hTicket := h.ticket_at_tail hReady
  have hHere := h.ready _ hReady
  rw [hTicket] at hHere
  have hLt : taken < r.log.length := (List.getElem?_eq_some_iff.mp hHere.2.1).1
  have hOther : ∀ i, i ≠ taken % r.capacity →
      (r.clearReady (taken % r.capacity)).entries i = r.entries i := by
    intro i hi
    simp [CommandRing.clearReady, Function.update_of_ne hi]
  have hCommand : ∀ i, ((r.clearReady (taken % r.capacity)).entries i).command =
      (r.entries i).command := by
    intro i
    by_cases hi : i = taken % r.capacity
    · subst hi
      simp [CommandRing.clearReady]
    · rw [hOther i hi]
  refine ⟨h.positive, by omega, hLt, h.within, h.head_eq, ?_, h.alone, ?_, ?_, ?_⟩
  · intro p f hf
    have hNot := hHere.2.2.2 p f hf
    obtain ⟨hTaken, hLog, hIndex, hRest⟩ := h.filled p f hf
    have : f.ticket ≠ taken := fun hEq => hNot (hEq ▸ hIndex)
    rw [hOther _ hNot]
    exact ⟨by omega, hLog, hIndex, hRest⟩
  · intro i hi
    have hNot : i ≠ taken % r.capacity := by
      rintro rfl
      simp [CommandRing.clearReady] at hi
    rw [hOther i hNot] at hi ⊢
    obtain ⟨hTaken, hLog, hIndex, hRest⟩ := h.ready i hi
    have : (r.entries i).ticket ≠ taken := fun hEq => hNot (hEq ▸ hIndex)
    exact ⟨by omega, hLog, hIndex, hRest⟩
  · intro u hu huLt
    rcases h.pending u (by omega) huLt with hFilling | hOld
    · exact .inl hFilling
    · right
      change ((CommandRing.clearReady _ _).entries (u % r.capacity)).ready = true
      rw [hOther _ fun hEq => ?_]
      · exact hOld
      · have := h.ticket_eq (a := u) (b := taken) (by omega) hLe huLt hLt hEq
        omega
  · intro u hu huLt
    change _ = some ((CommandRing.clearReady _ _).entries (u % r.capacity)).command
    rw [hCommand]
    by_cases hEq : u = taken
    · rw [hEq]
      exact hHere.2.1
    · exact h.held u hu (by omega)

/-- The executor is done with what it has taken. -/
theorem Consistent.finish (h : Consistent layout r filling finished taken) :
    Consistent layout r filling taken taken := by
  have := h.finished_le
  have := h.within
  exact ⟨h.positive, Nat.le_refl _, h.taken_le, by omega, h.head_eq, h.filled, h.alone, h.ready,
    h.pending, fun u hu hLt => absurd hLt (by omega)⟩

end CommandRing

end Ipc
