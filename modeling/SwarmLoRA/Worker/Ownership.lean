import Mathlib.Data.Finset.Basic
import Mathlib.Data.Finset.Lattice.Lemmas
import Mathlib.Data.Finset.SDiff
import SwarmLoRA.Worker.Engine

/-! The slots of one worker, as the aggregator records them and as the inference loop keeps
them. A slot is claimed before it is entered into `pending_slots`, and every clean-up path takes
it out of the tables whether or not it has been released. -/
namespace Worker.Ownership

open Machine

/-- What the worker asks of the aggregator. -/
inductive Rpc where
  | claim
  | release (slot_id : SlotId)
  deriving DecidableEq

/-- What the aggregator answers. -/
inductive Reply where
  | slot_claimed (slot_id : SlotId)
  | slot_released (slot_id : SlotId)
  | slot_error
  deriving DecidableEq

/-- Where a slot is released: slots whose activation takes too long, slots that are evicted or
get no KV blocks, completed slots, and the two loops of `_fail_all_active_slots`. The slots are
the ones still to come, and those that the loop has dealt with. -/
inductive Cont where
  | timed_out (rest activated : Finset SlotId)
  | teardown (rest : Finset SlotId)
  | completed (rest completed : Finset SlotId)
  | fail_active (rest pending : Finset SlotId)
  | fail_pending (rest : Finset SlotId)

/-- Where the inference loop stands: between requests at the top of the loop, or after a
token. `cleaning` is what comes before the release request of a slot goes out, and `releasing`
waits for the reply. -/
inductive Pc where
  | boundary
  | claiming
  | preparing (slot_id : SlotId)
  | activating (timed_out activated : Finset SlotId)
  | checking
  | tearing (rest : Finset SlotId)
  | token
  | completing (rest completed : Finset SlotId)
  | failing (active pending : Finset SlotId)
  | cleaning (slot_id : SlotId) (k : Cont)
  | releasing (slot_id : SlotId) (k : Cont)

/-- `owned` are the slots that the aggregator has the worker down for, `inbox` the requests
that it has not handled and `replies` what the worker has not read. `opened` are the slots
whose IPC handles are open. -/
structure State where
  owned : Finset SlotId := ∅
  inbox : List Rpc := []
  replies : List Reply := []
  connected : Bool := true
  opened : Finset SlotId := ∅
  pending_slots : Finset SlotId := ∅
  active_slots : Finset SlotId := ∅
  pc : Pc := .boundary

/-- The worker's loop takes its next step, with what it meets on the way, or the aggregator
handles a request or the end of the connection. -/
inductive Label where
  /-- The aggregator handles the oldest request, a claim with a slot if it has one. -/
  | handle (slot_id : Option SlotId)
  /-- The aggregator loses the connection and takes all slots of the worker back. -/
  | disconnect
  | claim
  | recv
  /-- The receive times out, finds the connection closed, or reads something that is no reply. -/
  | recv_raises (dropped : Nat)
  | prepared
  /-- The handles of the claimed slot do not open, or something later raises. -/
  | prepare_raises (opened : Bool)
  | activate (activated timed_out : Finset SlotId)
  | next (slot_id : SlotId)
  /-- The handles are closed and the release request goes out. -/
  | release
  | cleanup_raises (closed : Bool)
  | generate (teardown : Finset SlotId)
  | complete (completed : Finset SlotId)
  | finish
  /-- An exception that ends up in `_fail_all_active_slots`. -/
  | raise

namespace State

variable (s : State)

/-- The slots in the tables of the engine. -/
def tracked : Finset SlotId := s.pending_slots ∪ s.active_slots

/-- A request goes out if the connection is there. It is lost otherwise. -/
def send (rpc : Rpc) : State :=
  { s with inbox := if s.connected then s.inbox ++ [rpc] else s.inbox }

/-- An exception of the loop: every slot in the tables is to be cleaned up. -/
def fail_all_active_slots : State := { s with pc := .failing s.active_slots s.pending_slots }

/-- `release_slot` has returned. -/
def resume (slot_id : SlotId) : Cont → State
  | .timed_out rest activated => { s with pc := .activating rest activated }
  | .teardown rest =>
      { s with active_slots := s.active_slots.erase slot_id, pc := .tearing rest }
  | .completed rest completed => { s with pc := .completing rest (insert slot_id completed) }
  | .fail_active rest pending =>
      { s with active_slots := s.active_slots.erase slot_id, pc := .failing rest pending }
  | .fail_pending rest => { s with pc := .failing ∅ rest }

/-- Something has raised on the way to the end of `release_slot`. Half of the callers catch it
and go on as if the slot had been released. -/
def unwind (slot_id : SlotId) : Cont → State
  | .timed_out _ _ | .completed _ _ => s.fail_all_active_slots
  | k => s.resume slot_id k

end State

/-- A step of the worker, or of the aggregator at the other end of the connection. -/
def step (s : State) : Label → Option State
  | .handle slot_id =>
      match s.inbox with
      | [] => none
      | .claim :: rest =>
          match slot_id with
          | some i =>
              if i ∈ s.owned then none
              else some { s with
                inbox := rest
                owned := insert i s.owned
                replies := s.replies ++ [.slot_claimed i] }
          | none => some { s with inbox := rest, replies := s.replies ++ [.slot_error] }
      | .release i :: rest =>
          some { s with
            inbox := rest
            owned := s.owned.erase i
            replies := s.replies ++ [if i ∈ s.owned then .slot_released i else .slot_error] }
  | .disconnect =>
      if s.connected then some { s with connected := false, owned := ∅, inbox := [] } else none
  | .claim =>
      match s.pc with
      | .boundary => some { s.send .claim with pc := .claiming }
      | _ => none
  | .recv =>
      match s.pc, s.replies with
      | .claiming, .slot_claimed i :: rest => some { s with replies := rest, pc := .preparing i }
      | .claiming, _ :: rest => some { s with replies := rest, pc := .boundary }
      | .releasing i k, _ :: rest => some ({ s with replies := rest }.resume i k)
      | _, _ => none
  | .recv_raises dropped =>
      let s := { s with replies := s.replies.drop dropped }
      match s.pc with
      | .claiming => some { s with pc := .boundary }
      | .releasing i k => some (s.unwind i k)
      | _ => none
  | .prepared =>
      match s.pc with
      | .preparing i =>
          some { s with
            opened := insert i s.opened
            pending_slots := insert i s.pending_slots
            pc := .boundary }
      | _ => none
  | .prepare_raises opened =>
      match s.pc with
      | .preparing i =>
          some { s with opened := if opened then insert i s.opened else s.opened, pc := .boundary }
      | _ => none
  | .activate activated timed_out =>
      match s.pc with
      | .boundary =>
          if activated ⊆ s.pending_slots ∧ timed_out ⊆ s.pending_slots ∧
              activated ∩ timed_out = ∅ then
            some { s with pc := .activating timed_out activated }
          else none
      | _ => none
  | .next i =>
      match s.pc with
      | .activating rest activated =>
          if i ∈ rest then
            some { s with
              pending_slots := s.pending_slots.erase i
              pc := .cleaning i (.timed_out (rest.erase i) activated) }
          else none
      | .tearing rest =>
          if i ∈ rest then some { s with pc := .cleaning i (.teardown (rest.erase i)) } else none
      | .completing rest completed =>
          if i ∈ rest then some { s with pc := .cleaning i (.completed (rest.erase i) completed) }
          else none
      | .failing active pending =>
          if i ∈ active then
            some { s with pc := .cleaning i (.fail_active (active.erase i) pending) }
          else if active = ∅ ∧ i ∈ pending then
            some { s with pc := .cleaning i (.fail_pending (pending.erase i)) }
          else none
      | _ => none
  | .release =>
      match s.pc with
      | .cleaning i k =>
          if i ∈ s.opened then
            some { s.send (.release i) with opened := s.opened.erase i, pc := .releasing i k }
          else none
      | _ => none
  | .cleanup_raises closed =>
      match s.pc with
      | .cleaning i k =>
          if closed = true ∧ i ∉ s.opened then none
          else some ({ s with
            opened := if closed then s.opened.erase i else s.opened }.unwind i k)
      | _ => none
  | .generate teardown =>
      match s.pc with
      | .checking | .token =>
          if teardown ⊆ s.active_slots then some { s with pc := .tearing teardown } else none
      | _ => none
  | .complete completed =>
      match s.pc with
      | .token =>
          if completed ⊆ s.active_slots then some { s with pc := .completing completed ∅ }
          else none
      | _ => none
  | .finish =>
      match s.pc with
      | .activating rest activated =>
          if rest = ∅ then
            some { s with
              pending_slots := s.pending_slots \ activated
              active_slots := s.active_slots ∪ activated
              pc := .checking }
          else none
      | .checking => if s.active_slots = ∅ then some { s with pc := .boundary } else none
      | .tearing rest => if rest = ∅ then some { s with pc := .token } else none
      | .completing rest completed =>
          if rest = ∅ then
            some { s with active_slots := s.active_slots \ completed, pc := .boundary }
          else none
      | .failing active pending =>
          if active = ∅ ∧ pending = ∅ then some { s with pending_slots := ∅, pc := .boundary }
          else none
      | _ => none
  | .raise =>
      match s.pc with
      | .boundary | .activating _ _ | .checking | .tearing _ | .token | .completing _ _ =>
          some s.fail_all_active_slots
      | _ => none

/-- A worker that has just been registered. -/
def machine : System State Label where
  initial s := s = {}
  step := step

/-- Between two passes of the loop, where new slots are claimed. -/
def Pc.is_boundary : Pc → Bool
  | .boundary | .token => true
  | _ => false

/-- At the boundaries between tokens the aggregator has the worker down for just the slots in
the tables of the engine. -/
def Conserved (s : State) : Prop :=
  s.pc.is_boundary → s.owned = s.tracked

/-- The answer grants a slot. -/
def Reply.grants : Reply → Bool
  | .slot_claimed _ => true
  | _ => false

/-- The slot that an exception takes out of the reach of the engine. Completed slots are still in
the tables when theirs is released. -/
def Pc.exposed : Pc → Option SlotId
  | .preparing i => some i
  | .cleaning _ (.completed _ _) => none
  | .cleaning i _ => some i
  | _ => none

/-- A receive that raises leaves nothing of its call behind and has not dropped a slot, no other
exception takes a slot out of reach that the aggregator has the worker down for, and the
connection is not lost while there are such slots. -/
def Undropped (s : State) : Label → Prop
  | .recv_raises dropped =>
      s.inbox = [] ∧ s.replies.length ≤ dropped ∧ s.replies.any Reply.grants = false
  | .prepare_raises _ | .cleanup_raises _ => ∀ i ∈ s.pc.exposed, i ∉ s.owned
  | .disconnect => s.owned = ∅
  | _ => True

instance (s : State) (l : Label) : Decidable (Undropped s l) :=
  match l with
  | .recv_raises _ => inferInstanceAs (Decidable (_ ∧ _ ∧ _))
  | .prepare_raises _ | .cleanup_raises _ =>
      inferInstanceAs (Decidable (∀ i ∈ s.pc.exposed, i ∉ s.owned))
  | .disconnect => inferInstanceAs (Decidable (s.owned = ∅))
  | .handle _ | .claim | .recv | .prepared | .activate _ _ | .next _ | .release | .generate _
  | .complete _ | .finish | .raise => inferInstanceAs (Decidable True)

/-- The one call that is under way: its request is still to be handled, its reply is still to be
read, or the connection went down. -/
inductive Outstanding (rpc : Rpc) : List Rpc → List Reply → Prop where
  | sent : Outstanding rpc [rpc] []
  | replied (r : Reply) : Outstanding rpc [] [r]
  | lost : Outstanding rpc [] []

/-- At most one request is under way, the one whose answer the worker waits for. -/
def Wire (s : State) : Pc → Prop
  | .claiming => Outstanding .claim s.inbox s.replies
  | .releasing i _ => Outstanding (.release i) s.inbox s.replies
  | _ => s.inbox = [] ∧ s.replies = []

/-- What the aggregator has the worker down for while `i` is being released, `i` apart. -/
def Others (s : State) (i : SlotId) : Cont → Prop
  | .timed_out rest activated =>
      i ∉ s.tracked ∧ (∀ j, j ≠ i → (j ∈ s.owned ↔ j ∈ s.tracked)) ∧ rest ⊆ s.pending_slots ∧
        activated ⊆ s.pending_slots ∧ Disjoint activated rest
  | .teardown rest =>
      i ∉ s.pending_slots ∧ (∀ j, j ≠ i → (j ∈ s.owned ↔ j ∈ s.tracked)) ∧
        rest ⊆ s.active_slots.erase i
  | .completed rest completed =>
      (∀ j, j ≠ i → (j ∈ s.owned ↔ j ∈ s.tracked ∧ j ∉ completed)) ∧ rest ⊆ s.active_slots ∧
        insert i completed ⊆ s.active_slots
  | .fail_active rest pending =>
      s.active_slots ⊆ insert i rest ∧ ∀ j, j ≠ i → j ∈ s.owned → j ∈ rest ∪ pending
  | .fail_pending rest => s.active_slots = ∅ ∧ ∀ j, j ≠ i → j ∈ s.owned → j ∈ rest

/-- What the aggregator has the worker down for, for each place in the loop. -/
def Books (s : State) : Pc → Prop
  | .boundary | .checking | .token => s.owned = s.tracked
  | .claiming =>
      (s.replies.any Reply.grants = false ∧ s.owned = s.tracked) ∨
        ∃ i, s.replies = [.slot_claimed i] ∧ i ∉ s.tracked ∧ s.owned = insert i s.tracked
  | .preparing i => i ∉ s.tracked ∧ s.owned = insert i s.tracked
  | .activating rest activated =>
      s.owned = s.tracked ∧ rest ⊆ s.pending_slots ∧ activated ⊆ s.pending_slots ∧
        Disjoint activated rest
  | .tearing rest => s.owned = s.tracked ∧ rest ⊆ s.active_slots
  | .completing rest completed =>
      s.owned = s.tracked \ completed ∧ rest ⊆ s.active_slots ∧ completed ⊆ s.active_slots
  | .failing rest pending => s.active_slots ⊆ rest ∧ s.owned ⊆ rest ∪ pending
  | .cleaning i k => Others s i k
  | .releasing i k => Others s i k ∧ (s.inbox = [] → i ∉ s.owned)

/-- What holds in every state of a run: the tables are apart, nothing is owned once the connection
is lost, and who owns what is told by the place in the code. -/
structure Invariant (s : State) : Prop where
  separate : Disjoint s.pending_slots s.active_slots
  lost : s.connected = false → s.owned = ∅ ∧ s.inbox = []
  wire : Wire s s.pc
  books : Books s s.pc

/-- A slot that is given back is not among the others. -/
theorem Others.erase_owned {s : State} {i : SlotId} {k : Cont} (h : Others s i k) :
    Others { s with owned := s.owned.erase i } i k := by
  have hOwned : ∀ j, j ≠ i → (j ∈ s.owned.erase i ↔ j ∈ s.owned) := by
    intro j hj
    rw [Finset.mem_erase, and_iff_right hj]
  cases k with
  | timed_out rest activated =>
      exact ⟨h.1, fun j hj => (hOwned j hj).trans (h.2.1 j hj), h.2.2⟩
  | teardown rest => exact ⟨h.1, fun j hj => (hOwned j hj).trans (h.2.1 j hj), h.2.2⟩
  | completed rest completed => exact ⟨fun j hj => (hOwned j hj).trans (h.1 j hj), h.2⟩
  | fail_active rest pending =>
      exact ⟨h.1, fun j hj hErased => h.2 j hj ((hOwned j hj).mp hErased)⟩
  | fail_pending rest => exact ⟨h.1, fun j hj hErased => h.2 j hj ((hOwned j hj).mp hErased)⟩

/-- The request that is to be handled is the outstanding one. -/
theorem Outstanding.of_inbox {rpc r : Rpc} {rest : List Rpc} {replies : List Reply}
    (h : Outstanding rpc (r :: rest) replies) : r = rpc ∧ rest = [] ∧ replies = [] := by
  cases h
  exact ⟨rfl, rfl, rfl⟩

/-- With the answer there, nothing else is under way. -/
theorem Outstanding.of_reply {rpc : Rpc} {r : Reply} {inbox : List Rpc} {rest : List Reply}
    (h : Outstanding rpc inbox (r :: rest)) : inbox = [] ∧ rest = [] := by
  cases h
  exact ⟨rfl, rfl⟩

/-- A request that goes out over an idle connection is the only one. -/
theorem Outstanding.of_send {s : State} (hQuiet : s.inbox = [] ∧ s.replies = []) (rpc : Rpc) :
    Outstanding rpc (s.send rpc).inbox (s.send rpc).replies := by
  show Outstanding rpc (if s.connected then s.inbox ++ [rpc] else s.inbox) s.replies
  rw [hQuiet.1, hQuiet.2]
  split
  · exact .sent
  · exact .lost

/-- The end of the connection loses the request, not an answer that is there. -/
theorem Outstanding.disconnect {rpc : Rpc} {inbox : List Rpc} {replies : List Reply}
    (h : Outstanding rpc inbox replies) : Outstanding rpc [] replies := by
  cases h with
  | sent => exact .lost
  | replied r => exact .replied r
  | lost => exact .lost

namespace Invariant

variable {s s' : State} {i : SlotId} {k : Cont}

theorem initial : Invariant {} := by
  constructor
  · exact Finset.disjoint_empty_left _
  · rintro ⟨⟩
  · exact ⟨rfl, rfl⟩
  · rfl

/-- The parts of the invariant that depend on the place in the code. -/
theorem at_pc (h : Invariant s) {pc : Pc} (hPc : s.pc = pc) : Wire s pc ∧ Books s pc :=
  hPc ▸ ⟨h.wire, h.books⟩

/-- The tables may be handed to the clean-up as soon as nothing is owned beyond them. -/
theorem fail_all_active_slots (hSeparate : Disjoint s.pending_slots s.active_slots)
    (hLost : s.connected = false → s.owned = ∅ ∧ s.inbox = [])
    (hQuiet : s.inbox = [] ∧ s.replies = []) (hOwned : s.owned ⊆ s.tracked) :
    Invariant s.fail_all_active_slots := by
  refine ⟨hSeparate, hLost, hQuiet, Finset.Subset.refl _, ?_⟩
  intro j hj
  have hTracked := hOwned hj
  unfold State.tracked at hTracked
  rw [Finset.union_comm]
  exact hTracked

/-- The books once the slot that was being released is gone. -/
theorem resume (hSeparate : Disjoint s.pending_slots s.active_slots)
    (hLost : s.connected = false → s.owned = ∅ ∧ s.inbox = [])
    (hQuiet : s.inbox = [] ∧ s.replies = []) (hOthers : Others s i k) (hGone : i ∉ s.owned) :
    Invariant (s.resume i k) := by
  rw [Finset.disjoint_left] at hSeparate
  cases k with
  | timed_out rest activated =>
      obtain ⟨hOut, hOwned, hRest, hActivated, hApart⟩ := hOthers
      refine ⟨Finset.disjoint_left.mpr hSeparate, hLost, hQuiet, ?_, hRest, hActivated, hApart⟩
      show s.owned = s.tracked
      ext j
      by_cases hj : j = i
      · subst hj
        exact iff_of_false hGone hOut
      · exact hOwned j hj
  | teardown rest =>
      obtain ⟨hOut, hOwned, hRest⟩ := hOthers
      refine ⟨?_, hLost, hQuiet, ?_, hRest⟩
      · show Disjoint s.pending_slots (s.active_slots.erase i)
        rw [Finset.disjoint_left]
        intro j hj hErased
        exact hSeparate hj (Finset.mem_of_mem_erase hErased)
      · show s.owned = s.pending_slots ∪ s.active_slots.erase i
        ext j
        have hj := hOwned j
        unfold State.tracked at hj
        grind
  | completed rest completed =>
      obtain ⟨hOwned, hRest, hDone⟩ := hOthers
      refine ⟨Finset.disjoint_left.mpr hSeparate, hLost, hQuiet, ?_, hRest, hDone⟩
      show s.owned = s.tracked \ insert i completed
      ext j
      have hj := hOwned j
      grind
  | fail_active rest pending =>
      obtain ⟨hActive, hOwned⟩ := hOthers
      refine ⟨?_, hLost, hQuiet, ?_, ?_⟩
      · show Disjoint s.pending_slots (s.active_slots.erase i)
        rw [Finset.disjoint_left]
        intro j hj hErased
        exact hSeparate hj (Finset.mem_of_mem_erase hErased)
      · exact Finset.subset_insert_iff.mp hActive
      · intro j hj
        exact hOwned j (fun hEq => hGone (hEq ▸ hj)) hj
  | fail_pending rest =>
      obtain ⟨hActive, hOwned⟩ := hOthers
      refine ⟨Finset.disjoint_left.mpr hSeparate, hLost, hQuiet, ?_, ?_⟩
      · exact Finset.subset_of_eq hActive
      · intro j hj
        exact Finset.mem_union_right _ (hOwned j (fun hEq => hGone (hEq ▸ hj)) hj)

/-- An exception on the way may leave a completed slot with the aggregator, for it is still in
the tables. -/
theorem unwind (hSeparate : Disjoint s.pending_slots s.active_slots)
    (hLost : s.connected = false → s.owned = ∅ ∧ s.inbox = [])
    (hQuiet : s.inbox = [] ∧ s.replies = []) (hOthers : Others s i k)
    (hGone : i ∈ (Pc.cleaning i k).exposed → i ∉ s.owned) : Invariant (s.unwind i k) := by
  cases k with
  | timed_out rest activated =>
      apply fail_all_active_slots hSeparate hLost hQuiet
      intro j hj
      exact (hOthers.2.1 j (fun hEq => hGone rfl (hEq ▸ hj))).mp hj
  | completed rest completed =>
      apply fail_all_active_slots hSeparate hLost hQuiet
      intro j hj
      by_cases hSame : j = i
      · rw [hSame]
        exact Finset.mem_union_right _ (hOthers.2.2 (Finset.mem_insert_self i completed))
      · exact ((hOthers.1 j hSame).mp hj).1
  | teardown rest => exact resume hSeparate hLost hQuiet hOthers (hGone rfl)
  | fail_active rest pending => exact resume hSeparate hLost hQuiet hOthers (hGone rfl)
  | fail_pending rest => exact resume hSeparate hLost hQuiet hOthers (hGone rfl)

/-- A claim can be handled only while the worker waits for its answer. -/
theorem claiming_of_claim (h : Invariant s) {rest : List Rpc} (hInbox : s.inbox = .claim :: rest) :
    s.pc = .claiming ∧ rest = [] ∧ s.replies = [] ∧ s.owned = s.tracked := by
  have hWire := h.wire
  have hBooks := h.books
  cases hPc : s.pc with
  | claiming =>
      rw [hPc] at hWire hBooks
      simp only [Wire, hInbox] at hWire
      obtain ⟨_, hRest, hReplies⟩ := hWire.of_inbox
      refine ⟨rfl, hRest, hReplies, ?_⟩
      rcases hBooks with hBooks | ⟨i, hClaimed, _⟩
      · exact hBooks.2
      · rw [hReplies] at hClaimed
        cases hClaimed
  | releasing i k =>
      rw [hPc] at hWire
      simp only [Wire, hInbox] at hWire
      cases hWire.of_inbox.1
  | _ =>
      rw [hPc] at hWire
      cases hInbox.symm.trans hWire.1

/-- A release can be handled only while the worker waits for its answer. -/
theorem releasing_of_release (h : Invariant s) {rest : List Rpc}
    (hInbox : s.inbox = .release i :: rest) :
    ∃ k, s.pc = .releasing i k ∧ rest = [] ∧ s.replies = [] ∧ Others s i k := by
  have hWire := h.wire
  have hBooks := h.books
  cases hPc : s.pc with
  | claiming =>
      rw [hPc] at hWire
      simp only [Wire, hInbox] at hWire
      cases hWire.of_inbox.1
  | releasing j k =>
      rw [hPc] at hWire hBooks
      simp only [Wire, hInbox] at hWire
      obtain ⟨hSame, hRest, hReplies⟩ := hWire.of_inbox
      obtain rfl := Rpc.release.inj hSame
      exact ⟨k, rfl, hRest, hReplies, hBooks.1⟩
  | _ =>
      rw [hPc] at hWire
      cases hInbox.symm.trans hWire.1

/-- Requests reach the aggregator over a connection only. -/
theorem connected_of_inbox (h : Invariant s) (hInbox : s.inbox ≠ []) : s.connected = true := by
  cases hConnected : s.connected with
  | true => rfl
  | false => exact (hInbox (h.lost hConnected).2).elim

/-- The aggregator handles the request that has come in. -/
theorem handle (h : Invariant s) {slot_id : Option SlotId}
    (hStep : step s (.handle slot_id) = some s') : Invariant s' := by
  simp only [step] at hStep
  split at hStep
  · cases hStep
  · rename_i rest hInbox
    have hConnected := h.connected_of_inbox (by rw [hInbox]; exact List.cons_ne_nil _ _)
    obtain ⟨hPc, rfl, hReplies, hOwned⟩ := h.claiming_of_claim hInbox
    split at hStep
    · rename_i i
      split at hStep
      · cases hStep
      · rename_i hFree
        obtain rfl := Option.some.inj hStep
        refine ⟨h.separate, ?_, ?_, ?_⟩
        · intro hLost
          cases hConnected.symm.trans hLost
        · show Wire _ s.pc
          rw [hPc, hReplies]
          exact .replied _
        · show Books _ s.pc
          rw [hPc, hReplies]
          exact .inr ⟨i, rfl, fun hTracked => hFree (hOwned ▸ hTracked), congrArg (insert i) hOwned⟩
    · obtain rfl := Option.some.inj hStep
      refine ⟨h.separate, ?_, ?_, ?_⟩
      · intro hLost
        cases hConnected.symm.trans hLost
      · show Wire _ s.pc
        rw [hPc, hReplies]
        exact .replied _
      · show Books _ s.pc
        rw [hPc, hReplies]
        exact .inl ⟨rfl, hOwned⟩
  · rename_i i rest hInbox
    have hConnected := h.connected_of_inbox (by rw [hInbox]; exact List.cons_ne_nil _ _)
    obtain ⟨k, hPc, rfl, hReplies, hOthers⟩ := h.releasing_of_release hInbox
    obtain rfl := Option.some.inj hStep
    refine ⟨h.separate, ?_, ?_, ?_⟩
    · intro hLost
      cases hConnected.symm.trans hLost
    · show Wire _ s.pc
      rw [hPc, hReplies]
      exact .replied _
    · show Books _ s.pc
      rw [hPc]
      exact ⟨hOthers.erase_owned, fun _ => Finset.notMem_erase i s.owned⟩

/-- The aggregator notices the end of the connection; what the worker owned has been given back
before. -/
theorem disconnect (h : Invariant s) (hEmpty : s.owned = ∅) :
    Invariant { s with connected := false, owned := ∅, inbox := [] } := by
  have hSame : { s with connected := false, owned := ∅, inbox := [] } =
      { s with connected := false, inbox := [] } := by
    rw [← hEmpty]
  rw [hSame]
  refine ⟨h.separate, fun _ => ⟨hEmpty, rfl⟩, ?_, ?_⟩
  · have hWire := h.wire
    show Wire _ s.pc
    cases hPc : s.pc with
    | claiming =>
        rw [hPc] at hWire
        exact hWire.disconnect
    | releasing i k =>
        rw [hPc] at hWire
        exact hWire.disconnect
    | _ =>
        rw [hPc] at hWire
        exact ⟨rfl, hWire.2⟩
  · have hBooks := h.books
    show Books _ s.pc
    cases hPc : s.pc with
    | releasing i k =>
        rw [hPc] at hBooks
        refine ⟨hBooks.1, fun _ => ?_⟩
        show i ∉ s.owned
        rw [hEmpty]
        exact Finset.notMem_empty i
    | _ =>
        rw [hPc] at hBooks
        exact hBooks

/-- Without the connection a request comes to nothing. -/
theorem send_lost (h : Invariant s) (rpc : Rpc) (hConnected : s.connected = false) :
    s.owned = ∅ ∧ (s.send rpc).inbox = [] := by
  obtain ⟨hOwned, hInbox⟩ := h.lost hConnected
  refine ⟨hOwned, ?_⟩
  unfold State.send
  rw [hConnected]
  exact hInbox

/-- The worker asks for a slot. -/
theorem claim (h : Invariant s) (hPc : s.pc = .boundary) :
    Invariant { s.send .claim with pc := .claiming } := by
  obtain ⟨hQuiet, hOwned⟩ := h.at_pc hPc
  refine ⟨h.separate, h.send_lost .claim, .of_send hQuiet .claim, .inl ⟨?_, hOwned⟩⟩
  show s.replies.any Reply.grants = false
  rw [hQuiet.2]
  rfl

/-- A slot that is granted is prepared before it enters the tables. -/
theorem recv_claimed (h : Invariant s) (hPc : s.pc = .claiming) {rest : List Reply}
    (hReplies : s.replies = .slot_claimed i :: rest) :
    Invariant { s with replies := rest, pc := .preparing i } := by
  obtain ⟨hWire, hBooks⟩ := h.at_pc hPc
  simp only [Wire, hReplies] at hWire
  obtain ⟨hInbox, rfl⟩ := hWire.of_reply
  refine ⟨h.separate, h.lost, ⟨hInbox, rfl⟩, ?_⟩
  rcases hBooks with ⟨hNone, _⟩ | ⟨j, hOne, hBooks⟩
  · rw [hReplies] at hNone
    cases hNone
  · rw [hReplies] at hOne
    obtain rfl := Reply.slot_claimed.inj (List.cons.inj hOne).1
    exact hBooks

/-- A refusal leaves everything as it was. -/
theorem recv_refused (h : Invariant s) (hPc : s.pc = .claiming) {r : Reply} {rest : List Reply}
    (hReplies : s.replies = r :: rest) (hRefused : ∀ i, r ≠ .slot_claimed i) :
    Invariant { s with replies := rest, pc := .boundary } := by
  obtain ⟨hWire, hBooks⟩ := h.at_pc hPc
  simp only [Wire, hReplies] at hWire
  obtain ⟨hInbox, rfl⟩ := hWire.of_reply
  refine ⟨h.separate, h.lost, ⟨hInbox, rfl⟩, ?_⟩
  rcases hBooks with ⟨_, hOwned⟩ | ⟨j, hOne, _⟩
  · exact hOwned
  · rw [hReplies] at hOne
    exact (hRefused j (List.cons.inj hOne).1).elim

/-- With the answer to a release the clean-up goes on behind it. -/
theorem recv_released (h : Invariant s) (hPc : s.pc = .releasing i k) {r : Reply}
    {rest : List Reply} (hReplies : s.replies = r :: rest) :
    Invariant ({ s with replies := rest }.resume i k) := by
  obtain ⟨hWire, hBooks⟩ := h.at_pc hPc
  simp only [Wire, hReplies] at hWire
  obtain ⟨hInbox, rfl⟩ := hWire.of_reply
  exact resume h.separate h.lost ⟨hInbox, rfl⟩ hBooks.1 (hBooks.2 hInbox)

/-- The worker takes the answer it waits for. -/
theorem recv (h : Invariant s) (hStep : step s .recv = some s') : Invariant s' := by
  simp only [step] at hStep
  split at hStep
  · rename_i i rest hPc hReplies
    obtain rfl := Option.some.inj hStep
    exact h.recv_claimed hPc hReplies
  · rename_i r rest hRefused hPc hReplies
    obtain rfl := Option.some.inj hStep
    exact h.recv_refused hPc hReplies (fun i hSame => hRefused i hSame)
  · rename_i i k r rest hPc hReplies
    obtain rfl := Option.some.inj hStep
    exact h.recv_released hPc hReplies
  · cases hStep

/-- The wait for an answer raises. The answer must not have been a grant, or its slot is owned by
nobody. -/
theorem recv_raises (h : Invariant s) {dropped : Nat} (hInbox : s.inbox = [])
    (hDropped : s.replies.length ≤ dropped) (hNone : s.replies.any Reply.grants = false)
    (hStep : step s (.recv_raises dropped) = some s') : Invariant s' := by
  have hRest : s.replies.drop dropped = [] := List.drop_eq_nil_of_le hDropped
  have hBooks := h.books
  simp only [step, hRest] at hStep
  split at hStep
  · rename_i hPc
    obtain rfl := Option.some.inj hStep
    rw [hPc] at hBooks
    refine ⟨h.separate, h.lost, ⟨hInbox, rfl⟩, ?_⟩
    rcases hBooks with ⟨_, hOwned⟩ | ⟨i, hOne, _⟩
    · exact hOwned
    · rw [hOne] at hNone
      cases hNone
  · rename_i i k hPc
    obtain rfl := Option.some.inj hStep
    rw [hPc] at hBooks
    exact unwind h.separate h.lost ⟨hInbox, rfl⟩ hBooks.1 (fun _ => hBooks.2 hInbox)
  · cases hStep

/-- The slot enters the pending ones. -/
theorem prepared (h : Invariant s) (hPc : s.pc = .preparing i) : Invariant { s with
    opened := insert i s.opened
    pending_slots := insert i s.pending_slots
    pc := .boundary } := by
  obtain ⟨hQuiet, hBooks⟩ := h.at_pc hPc
  obtain ⟨hNew, hOwned⟩ := hBooks
  refine ⟨?_, h.lost, hQuiet, ?_⟩
  · show Disjoint (insert i s.pending_slots) s.active_slots
    rw [Finset.disjoint_insert_left]
    exact ⟨fun hActive => hNew (Finset.mem_union_right _ hActive), h.separate⟩
  · show s.owned = insert i s.pending_slots ∪ s.active_slots
    rw [Finset.insert_union]
    exact hOwned

/-- Pending slots become active or are given up for the time they took. -/
theorem activate (h : Invariant s) (hPc : s.pc = .boundary) {activated timed_out : Finset SlotId}
    (hActivated : activated ⊆ s.pending_slots) (hTimedOut : timed_out ⊆ s.pending_slots)
    (hApart : activated ∩ timed_out = ∅) :
    Invariant { s with pc := .activating timed_out activated } := by
  obtain ⟨hQuiet, hOwned⟩ := h.at_pc hPc
  exact ⟨h.separate, h.lost, hQuiet, hOwned, hTimedOut, hActivated,
    Finset.disjoint_iff_inter_eq_empty.mpr hApart⟩

/-- A slot that took too long leaves the tables before it is released. -/
theorem next_timed_out (h : Invariant s) {rest activated : Finset SlotId}
    (hPc : s.pc = .activating rest activated) (hNext : i ∈ rest) : Invariant { s with
      pending_slots := s.pending_slots.erase i
      pc := .cleaning i (.timed_out (rest.erase i) activated) } := by
  have hQuiet := h.wire
  have hBooks := h.books
  have hSeparate := Finset.disjoint_left.mp h.separate
  rw [hPc] at hQuiet hBooks
  obtain ⟨hOwned, hRest, hActivated, hApart⟩ := hBooks
  have hOut : i ∉ activated := Finset.disjoint_right.mp hApart hNext
  have hTracked : ∀ j, j ∈ s.owned ↔ j ∈ s.pending_slots ∨ j ∈ s.active_slots := by
    intro j
    rw [hOwned]
    exact Finset.mem_union
  refine ⟨?_, h.lost, hQuiet, ?_, ?_, ?_, ?_, ?_⟩
  · show Disjoint (s.pending_slots.erase i) s.active_slots
    exact h.separate.mono_left (Finset.erase_subset i s.pending_slots)
  · show i ∉ s.pending_slots.erase i ∪ s.active_slots
    have hPending := hSeparate (hRest hNext)
    grind
  · intro j hj
    show j ∈ s.owned ↔ j ∈ s.pending_slots.erase i ∪ s.active_slots
    rw [hTracked, Finset.mem_union, Finset.mem_erase, and_iff_right hj]
  · exact Finset.erase_subset_erase i hRest
  · intro j hj
    exact Finset.mem_erase.mpr ⟨fun hSame => hOut (hSame ▸ hj), hActivated hj⟩
  · exact hApart.mono_right (Finset.erase_subset i rest)

/-- A slot that has been evicted, or gets no blocks, is cleaned up. -/
theorem next_torn (h : Invariant s) {rest : Finset SlotId} (hPc : s.pc = .tearing rest)
    (hNext : i ∈ rest) : Invariant { s with pc := .cleaning i (.teardown (rest.erase i)) } := by
  obtain ⟨hQuiet, hBooks⟩ := h.at_pc hPc
  obtain ⟨hOwned, hRest⟩ := hBooks
  refine ⟨h.separate, h.lost, hQuiet, ?_, ?_, ?_⟩
  · exact Finset.disjoint_right.mp h.separate (hRest hNext)
  · intro j _
    show j ∈ s.owned ↔ j ∈ s.tracked
    rw [hOwned]
  · exact Finset.erase_subset_erase i hRest

/-- A completed slot is cleaned up. -/
theorem next_completed (h : Invariant s) {rest completed : Finset SlotId}
    (hPc : s.pc = .completing rest completed) (hNext : i ∈ rest) :
    Invariant { s with pc := .cleaning i (.completed (rest.erase i) completed) } := by
  obtain ⟨hQuiet, hBooks⟩ := h.at_pc hPc
  obtain ⟨hOwned, hRest, hDone⟩ := hBooks
  refine ⟨h.separate, h.lost, hQuiet, ?_, ?_, ?_⟩
  · intro j _
    show j ∈ s.owned ↔ j ∈ s.tracked ∧ j ∉ completed
    rw [hOwned, Finset.mem_sdiff]
  · exact (Finset.erase_subset i rest).trans hRest
  · exact Finset.insert_subset (hRest hNext) hDone

/-- An active slot is cleaned up after an exception. -/
theorem next_failed (h : Invariant s) {active pending : Finset SlotId}
    (hPc : s.pc = .failing active pending) (hNext : i ∈ active) :
    Invariant { s with pc := .cleaning i (.fail_active (active.erase i) pending) } := by
  obtain ⟨hQuiet, hBooks⟩ := h.at_pc hPc
  obtain ⟨hActive, hOwned⟩ := hBooks
  refine ⟨h.separate, h.lost, hQuiet, ?_, ?_⟩
  · show s.active_slots ⊆ insert i (active.erase i)
    rw [Finset.insert_erase hNext]
    exact hActive
  · intro j hj hMem
    rcases Finset.mem_union.mp (hOwned hMem) with hLeft | hRight
    · exact Finset.mem_union_left _ (Finset.mem_erase.mpr ⟨hj, hLeft⟩)
    · exact Finset.mem_union_right _ hRight

/-- A pending slot is cleaned up after an exception. -/
theorem next_failed_pending (h : Invariant s) {pending : Finset SlotId}
    (hPc : s.pc = .failing ∅ pending) :
    Invariant { s with pc := .cleaning i (.fail_pending (pending.erase i)) } := by
  obtain ⟨hQuiet, hBooks⟩ := h.at_pc hPc
  obtain ⟨hActive, hOwned⟩ := hBooks
  refine ⟨h.separate, h.lost, hQuiet, Finset.subset_empty.mp hActive, ?_⟩
  intro j hj hMem
  have hPending := hOwned hMem
  rw [Finset.empty_union] at hPending
  exact Finset.mem_erase.mpr ⟨hj, hPending⟩

/-- The loops over slots take one that is left. -/
theorem next (h : Invariant s) (hStep : step s (.next i) = some s') : Invariant s' := by
  simp only [step] at hStep
  split at hStep
  · rename_i rest activated hPc
    split at hStep
    · rename_i hNext
      obtain rfl := Option.some.inj hStep
      exact h.next_timed_out hPc hNext
    · cases hStep
  · rename_i rest hPc
    split at hStep
    · rename_i hNext
      obtain rfl := Option.some.inj hStep
      exact h.next_torn hPc hNext
    · cases hStep
  · rename_i rest completed hPc
    split at hStep
    · rename_i hNext
      obtain rfl := Option.some.inj hStep
      exact h.next_completed hPc hNext
    · cases hStep
  · rename_i active pending hPc
    split at hStep
    · rename_i hNext
      obtain rfl := Option.some.inj hStep
      exact h.next_failed hPc hNext
    · split at hStep
      · rename_i hNone
        obtain rfl := Option.some.inj hStep
        rw [hNone.1] at hPc
        exact h.next_failed_pending hPc
      · cases hStep
  · cases hStep

/-- The release goes out when the rest of the clean-up is done. -/
theorem release (h : Invariant s) (hPc : s.pc = .cleaning i k) : Invariant { s.send (.release i) with
    opened := s.opened.erase i
    pc := .releasing i k } := by
  obtain ⟨hQuiet, hOthers⟩ := h.at_pc hPc
  refine ⟨h.separate, h.send_lost (.release i), .of_send hQuiet (.release i), hOthers, ?_⟩
  intro hInbox
  show i ∉ s.owned
  cases hConnected : s.connected with
  | true =>
      simp only [State.send, hConnected, hQuiet.1] at hInbox
      cases hInbox
  | false =>
      rw [(h.lost hConnected).1]
      exact Finset.notMem_empty i

/-- An exception of the clean-up leaves the slot to the aggregator, which must not have it any
more. -/
theorem cleanup_raises (h : Invariant s) (hPc : s.pc = .cleaning i k)
    (hGone : i ∈ (Pc.cleaning i k).exposed → i ∉ s.owned) (opened : Finset SlotId) :
    Invariant ({ s with opened := opened }.unwind i k) := by
  obtain ⟨hQuiet, hOthers⟩ := h.at_pc hPc
  exact unwind h.separate h.lost hQuiet hOthers hGone

/-- The activated slots go from one table to the other. -/
theorem finish_activating (h : Invariant s) {activated : Finset SlotId}
    (hPc : s.pc = .activating ∅ activated) : Invariant { s with
      pending_slots := s.pending_slots \ activated
      active_slots := s.active_slots ∪ activated
      pc := .checking } := by
  obtain ⟨hQuiet, hBooks⟩ := h.at_pc hPc
  obtain ⟨hOwned, _, hActivated, _⟩ := hBooks
  refine ⟨?_, h.lost, hQuiet, ?_⟩
  · show Disjoint (s.pending_slots \ activated) (s.active_slots ∪ activated)
    rw [Finset.disjoint_union_right]
    exact ⟨h.separate.mono_left Finset.sdiff_subset, Finset.sdiff_disjoint⟩
  · show s.owned = s.pending_slots \ activated ∪ (s.active_slots ∪ activated)
    rw [hOwned]
    show s.pending_slots ∪ s.active_slots = _
    rw [Finset.union_comm s.active_slots, ← Finset.union_assoc,
      Finset.sdiff_union_of_subset hActivated]

/-- The completed slots leave the table. -/
theorem finish_completing (h : Invariant s) {completed : Finset SlotId}
    (hPc : s.pc = .completing ∅ completed) :
    Invariant { s with active_slots := s.active_slots \ completed, pc := .boundary } := by
  obtain ⟨hQuiet, hBooks⟩ := h.at_pc hPc
  obtain ⟨hOwned, _, hDone⟩ := hBooks
  refine ⟨h.separate.mono_right Finset.sdiff_subset, h.lost, hQuiet, ?_⟩
  show s.owned = s.pending_slots ∪ s.active_slots \ completed
  rw [hOwned]
  show (s.pending_slots ∪ s.active_slots) \ completed = _
  rw [Finset.union_sdiff_distrib, Finset.sdiff_eq_self_of_disjoint (h.separate.mono_right hDone)]

theorem finish_failing (h : Invariant s) (hPc : s.pc = .failing ∅ ∅) :
    Invariant { s with pending_slots := ∅, pc := .boundary } := by
  obtain ⟨hQuiet, hBooks⟩ := h.at_pc hPc
  obtain ⟨hActive, hOwned⟩ := hBooks
  refine ⟨Finset.disjoint_empty_left _, h.lost, hQuiet, ?_⟩
  show s.owned = ∅ ∪ s.active_slots
  rw [Finset.subset_empty.mp hActive, Finset.subset_empty.mp hOwned, Finset.empty_union]

theorem finish (h : Invariant s) (hStep : step s .finish = some s') : Invariant s' := by
  simp only [step] at hStep
  split at hStep
  · rename_i rest activated hPc
    split at hStep
    · rename_i hDone
      obtain rfl := Option.some.inj hStep
      rw [hDone] at hPc
      exact h.finish_activating hPc
    · cases hStep
  · rename_i hPc
    split at hStep
    · obtain rfl := Option.some.inj hStep
      obtain ⟨hQuiet, hOwned⟩ := h.at_pc hPc
      exact ⟨h.separate, h.lost, hQuiet, hOwned⟩
    · cases hStep
  · rename_i rest hPc
    split at hStep
    · obtain rfl := Option.some.inj hStep
      obtain ⟨hQuiet, hBooks⟩ := h.at_pc hPc
      exact ⟨h.separate, h.lost, hQuiet, hBooks.1⟩
    · cases hStep
  · rename_i rest completed hPc
    split at hStep
    · rename_i hDone
      obtain rfl := Option.some.inj hStep
      rw [hDone] at hPc
      exact h.finish_completing hPc
    · cases hStep
  · rename_i active pending hPc
    split at hStep
    · rename_i hDone
      obtain rfl := Option.some.inj hStep
      rw [hDone.1, hDone.2] at hPc
      exact h.finish_failing hPc
    · cases hStep
  · cases hStep

/-- Where the worker is neither waiting nor cleaning up, it owns no slot that is not in the
tables, and no call is under way. -/
theorem raise (h : Invariant s) (hStep : step s .raise = some s') : Invariant s' := by
  have hQuiet := h.wire
  have hBooks := h.books
  simp only [step] at hStep
  split at hStep
  case h_7 => cases hStep
  all_goals
    rename_i hPc
    obtain rfl := Option.some.inj hStep
    rw [hPc] at hQuiet hBooks
    apply fail_all_active_slots h.separate h.lost hQuiet
  · exact Finset.subset_of_eq hBooks
  · exact Finset.subset_of_eq hBooks.1
  · exact Finset.subset_of_eq hBooks
  · exact Finset.subset_of_eq hBooks.1
  · exact Finset.subset_of_eq hBooks
  · exact (Finset.subset_of_eq hBooks.1).trans Finset.sdiff_subset

theorem generate (h : Invariant s) (hPc : s.pc = .checking ∨ s.pc = .token)
    {teardown : Finset SlotId} (hActive : teardown ⊆ s.active_slots) :
    Invariant { s with pc := .tearing teardown } := by
  have hQuiet := h.wire
  have hOwned := h.books
  rcases hPc with hPc | hPc
  · rw [hPc] at hQuiet hOwned
    exact ⟨h.separate, h.lost, hQuiet, hOwned, hActive⟩
  · rw [hPc] at hQuiet hOwned
    exact ⟨h.separate, h.lost, hQuiet, hOwned, hActive⟩

theorem complete (h : Invariant s) (hPc : s.pc = .token) {completed : Finset SlotId}
    (hActive : completed ⊆ s.active_slots) :
    Invariant { s with pc := .completing completed ∅ } := by
  obtain ⟨hQuiet, hOwned⟩ := h.at_pc hPc
  refine ⟨h.separate, h.lost, hQuiet, ?_, hActive, Finset.empty_subset _⟩
  show s.owned = s.tracked \ ∅
  rw [Finset.sdiff_empty]
  exact hOwned

/-- A slot whose IPC handles do not open is owned and in no table. -/
theorem not_prepare_raises (h : Invariant s) (hPc : s.pc = .preparing i)
    (hGone : ∀ j ∈ s.pc.exposed, j ∉ s.owned) : False := by
  have hBooks := h.books
  rw [hPc] at hBooks hGone
  apply hGone i rfl
  rw [hBooks.2]
  exact Finset.mem_insert_self i s.tracked

theorem step (h : Invariant s) {l : Label} (hGuard : Undropped s l)
    (hStep : Ownership.step s l = some s') : Invariant s' := by
  cases l with
  | handle slot_id => exact h.handle hStep
  | disconnect =>
      simp only [Ownership.step] at hStep
      split at hStep
      · obtain rfl := Option.some.inj hStep
        exact h.disconnect hGuard
      · cases hStep
  | claim =>
      simp only [Ownership.step] at hStep
      split at hStep
      · rename_i hPc
        obtain rfl := Option.some.inj hStep
        exact h.claim hPc
      · cases hStep
  | recv => exact h.recv hStep
  | recv_raises dropped => exact h.recv_raises hGuard.1 hGuard.2.1 hGuard.2.2 hStep
  | prepared =>
      simp only [Ownership.step] at hStep
      split at hStep
      · rename_i i hPc
        obtain rfl := Option.some.inj hStep
        exact h.prepared hPc
      · cases hStep
  | prepare_raises opened =>
      simp only [Ownership.step] at hStep
      split at hStep
      · rename_i i hPc
        exact (h.not_prepare_raises hPc hGuard).elim
      · cases hStep
  | activate activated timed_out =>
      simp only [Ownership.step] at hStep
      split at hStep
      · rename_i hPc
        split at hStep
        · rename_i hSlots
          obtain rfl := Option.some.inj hStep
          exact h.activate hPc hSlots.1 hSlots.2.1 hSlots.2.2
        · cases hStep
      · cases hStep
  | next i => exact h.next hStep
  | release =>
      simp only [Ownership.step] at hStep
      split at hStep
      · rename_i i k hPc
        split at hStep
        · obtain rfl := Option.some.inj hStep
          exact h.release hPc
        · cases hStep
      · cases hStep
  | cleanup_raises closed =>
      simp only [Ownership.step] at hStep
      split at hStep
      · rename_i i k hPc
        split at hStep
        · cases hStep
        · obtain rfl := Option.some.inj hStep
          apply h.cleanup_raises hPc
          intro hExposed
          rw [← hPc] at hExposed
          exact hGuard i hExposed
      · cases hStep
  | generate teardown =>
      simp only [Ownership.step] at hStep
      split at hStep
      · rename_i hPc
        split at hStep
        · rename_i hActive
          obtain rfl := Option.some.inj hStep
          exact h.generate (.inl hPc) hActive
        · cases hStep
      · rename_i hPc
        split at hStep
        · rename_i hActive
          obtain rfl := Option.some.inj hStep
          exact h.generate (.inr hPc) hActive
        · cases hStep
      · cases hStep
  | complete completed =>
      simp only [Ownership.step] at hStep
      split at hStep
      · rename_i hPc
        split at hStep
        · rename_i hActive
          obtain rfl := Option.some.inj hStep
          exact h.complete hPc hActive
        · cases hStep
      · cases hStep
  | finish => exact h.finish hStep
  | raise => exact h.raise hStep

theorem conserved (h : Invariant s) : Conserved s := by
  have hBooks := h.books
  intro hBoundary
  cases hPc : s.pc with
  | boundary =>
      rw [hPc] at hBooks
      exact hBooks
  | token =>
      rw [hPc] at hBooks
      exact hBooks
  | _ =>
      rw [hPc] at hBoundary
      cases hBoundary

end Invariant

/-- While nothing drops a slot on its way into the tables or out of them, the aggregator has the
worker down for the slots in the tables at every boundary. -/
theorem slots_conserved_of_reach {s : State} (run : machine.Reach Undropped s) : Conserved s := by
  have hInvariant : Invariant s := by
    apply run.invariant Invariant
    · rintro _ rfl
      exact Invariant.initial
    · intro s l s' hPrior hGuard hStep
      exact hPrior.step hGuard hStep
  exact hInvariant.conserved

/-- Two requests: one of them is evicted, the completion of the other one raises after its slot
has been released, and both are cleaned up. -/
def evictedAndCompleted : List Label :=
  [ .claim, .handle (some 3), .recv, .prepared, .claim, .handle (some 5), .recv, .prepared,
    .activate {3, 5} ∅, .finish, .generate {3}, .next 3, .release, .handle none, .recv, .finish,
    .complete {5}, .next 5, .release, .handle none, .recv, .raise, .next 5, .cleanup_raises false,
    .finish ]

/-- Once they are cleaned up, the slot of a third request is the one that the worker owns. -/
theorem conserved_of_evicted_and_completed : ∃ s, machine.Reach Undropped s ∧
    s.pc.is_boundary ∧ s.owned = {7} ∧ Conserved s := by
  have hRun : (machine.replayUnder Undropped {}
      (evictedAndCompleted ++ [.claim, .handle (some 7), .recv, .prepared])).map
        (fun s => (s.pc.is_boundary, s.owned)) = some (true, {7}) := by decide +kernel
  obtain ⟨s, hReplay, hEnd⟩ := Option.map_eq_some_iff.mp hRun
  obtain ⟨hBoundary, hOwned⟩ := Prod.mk.inj hEnd
  have run := System.reach_of_replayUnder (.start rfl) hReplay
  exact ⟨s, run, hBoundary, hOwned, slots_conserved_of_reach run⟩

/-- The tokenizer raises once the slot of a request has been claimed, and the slot is in no
table. -/
theorem tokenizer_exception_leaks_slot : ∃ s, machine.Reachable s ∧
    s.owned = {3} ∧ s.tracked = ∅ ∧ ¬Conserved s := by
  have hRun : (machine.replay {} [.claim, .handle (some 3), .recv, .prepare_raises true]).map
      (fun s => (s.pc.is_boundary, s.owned, s.tracked)) = some (true, {3}, ∅) := by
    decide +kernel
  obtain ⟨s, hReplay, hEnd⟩ := Option.map_eq_some_iff.mp hRun
  obtain ⟨hBoundary, hBooks⟩ := Prod.mk.inj hEnd
  obtain ⟨hOwned, hTracked⟩ := Prod.mk.inj hBooks
  refine ⟨s, System.reachable_of_replay (.start rfl) hReplay, hOwned, hTracked, ?_⟩
  intro hConserved
  have hSame := hConserved hBoundary
  rw [hOwned, hTracked] at hSame
  exact absurd hSame (by decide)

end Worker.Ownership
