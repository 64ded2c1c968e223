import SwarmLoRA.Aggregator.SlotCalls

/-! The connection threads of the aggregator. Every registered worker has one, which handles the
slot requests that arrive on the worker's connection and, after a disconnect, gives back the
slots that the worker still owns. The worker id in a message is whatever the sender has put
there. -/
namespace Aggregator.Connections

open Ipc Machine

/-- What a message holds under a key. `other` is a value that is not an integer. -/
inductive Argument where
  | absent
  | integer (n : Int)
  | other
  deriving DecidableEq

/-- The C++ `int` that `msg.get(key, -1)` is passed as; `none` is the `TypeError` for
a value that does not fit. -/
def Argument.toInt : Argument → Option Int
  | .absent => some (-1)
  | .integer n => if -2 ^ 31 ≤ n ∧ n < 2 ^ 31 then some n else none
  | .other => none

inductive SlotRequest where
  | claim
  | release
  | other
  deriving DecidableEq

/-- A message of type `slot_request`. -/
structure Message where
  slot_request : SlotRequest
  worker_id : Argument
  slot_id : Argument
  deriving DecidableEq

/-- Where the thread of a connection stands. `serving` is `_handle_slot_request`;
`scanning` and `releasing` are the two loops of the disconnect handler, which keep the
slots that the first one has found. -/
inductive ThreadPc where
  | unregistered
  | waiting
  | serving (call : Call)
  | scanning (sid : Nat) (stale_slots : List Slot)
  | releasing (stale_slots : List Slot) (pc : Option ReleasePc)
  | closed
  deriving DecidableEq

/-- The call on the slot pool that the thread of worker `t` is making. The disconnect
handler releases in the name of `t`. -/
def ThreadPc.call (t : Nat) : ThreadPc → Call
  | .serving call => call
  | .releasing _ (some pc) => .release t pc
  | _ => .idle

/-- `claimedOver` is a history variable: the connection over which the slot was last
given an owner, until a release takes that owner back. -/
structure State where
  pool : SlotPool
  ctrl : ControlBlock
  max_workers : Nat
  num_registered : Nat
  threads : Nat → ThreadPc
  claimedOver : Slot → Option Nat

inductive Label where
  | register
  /-- A slot request arrives on connection `t`. -/
  | message (t : Nat) (msg : Message)
  /-- Thread `t` makes its next atomic step. -/
  | advance (t : Nat) (spurious : Bool)
  /-- The reply to a slot request is sent, or the connection is found broken. -/
  | reply (t : Nat) (sent : Bool)
  /-- The worker says it is done, or its connection is lost. -/
  | disconnect (t : Nat)

/-- The connection that the step belongs to. -/
def Label.thread : Label → Option Nat
  | .register => none
  | .message t _ | .advance t _ | .reply t _ | .disconnect t => some t

namespace State

def setThread (s : State) (t : Nat) (pc : ThreadPc) : State :=
  { s with threads := Function.update s.threads t pc }

/-- One atomic step of a claim that thread `t` makes in the name of `w`. -/
def claimStep (s : State) (t : Nat) (w : Int) (spurious : Bool) (pc : ClaimPc) : State :=
  { s with
    pool := (claim_slot s.pool w spurious pc).1
    ctrl := claim_slot_scrub s.ctrl pc
    claimedOver := match pc with
      | .storeOwner i => Function.update s.claimedOver i (some t)
      | _ => s.claimedOver }

/-- One atomic step of a release in the name of `w`. -/
def releaseStep (s : State) (w : Int) (pc : ReleasePc) : State :=
  { s with
    pool := (release_slot s.pool w pc).1
    claimedOver := match pc with
      | .casOwner i =>
          if s.pool.owner_worker_id i = w then Function.update s.claimedOver i none
          else s.claimedOver
      | _ => s.claimedOver }

end State

/-- `_handle_slot_request` up to the call on the pool: the worker in whose name the call
is made is the one that the message names. -/
def handle_slot_request (pool : SlotPool) (msg : Message) : ThreadPc :=
  match msg.slot_request with
  | .claim =>
      match msg.worker_id.toInt with
      | some w => .serving (.claim w (.loadFree 0 {}))
      | none => .waiting
  | .release =>
      match msg.slot_id.toInt, msg.worker_id.toInt with
      | some slot_id, some w => .serving (.release w (release_slot_entry pool slot_id))
      | _, _ => .waiting
  | .other => .waiting

/-- The next step of the thread of worker `t`, apart from what arrives on its connection. -/
def advance (s : State) (t : Nat) (spurious : Bool) : Option State :=
  match s.threads t with
  | .serving (.claim w pc) =>
      some ((s.claimStep t w spurious pc).setThread t
        (.serving (.claim w (claim_slot s.pool w spurious pc).2)))
  | .serving (.release w pc) =>
      some ((s.releaseStep w pc).setThread t (.serving (.release w (release_slot s.pool w pc).2)))
  | .scanning sid stale_slots =>
      if (sid : Int) < s.pool.num_slots then
        match slotOf sid with
        | some i =>
            if s.pool.owner_worker_id i = t then
              some { s.setThread t (.scanning (sid + 1) (stale_slots ++ [i])) with
                ctrl := s.ctrl.slot_signal_leave i }
            else some (s.setThread t (.scanning (sid + 1) stale_slots))
        | none => some (s.setThread t (.scanning (sid + 1) stale_slots))
      else some (s.setThread t (.releasing stale_slots none))
  | .releasing [] none => some (s.setThread t .closed)
  | .releasing (i :: rest) none =>
      some (s.setThread t (.releasing rest (some (release_slot_entry s.pool i))))
  | .releasing stale_slots (some pc) =>
      if SlotCalls.finished (.release t pc) then some (s.setThread t (.releasing stale_slots none))
      else some ((s.releaseStep t pc).setThread t
        (.releasing stale_slots (some (release_slot s.pool t pc).2)))
  | _ => none

def step (s : State) : Label → Option State
  | .register =>
      if s.num_registered < s.max_workers then
        some { s.setThread s.num_registered .waiting with num_registered := s.num_registered + 1 }
      else none
  | .message t msg =>
      if s.threads t = .waiting then some (s.setThread t (handle_slot_request s.pool msg)) else none
  | .advance t spurious => advance s t spurious
  | .reply t sent =>
      match s.threads t with
      | .serving call =>
          if SlotCalls.finished call then
            some (s.setThread t (if sent then .waiting else .scanning 0 []))
          else none
      | _ => none
  | .disconnect t =>
      if s.threads t = .waiting then some (s.setThread t (.scanning 0 [])) else none

/-- A new pool, and no worker registered. -/
structure Initial (s : State) : Prop where
  pool : ∃ cudaMalloc num_slots hidden_dim intermediate_dim num_kv_heads head_dim max_seq_per_step
    dtype_size, init_slot_pool cudaMalloc num_slots hidden_dim intermediate_dim num_kv_heads
      head_dim max_seq_per_step dtype_size = some s.pool
  registered : s.num_registered = 0
  threads : ∀ t, s.threads t = .unregistered
  claimedOver : ∀ i, s.claimedOver i = none

def machine : System State Label := ⟨Initial, step⟩

/-- The worker in whose name the step takes a free slot, or takes a slot from its owner. -/
def actsFor (s : State) : Label → Option Int
  | .advance t spurious =>
      match (s.threads t).call t with
      | .claim w (.casWord i expected_word) =>
          if s.pool.free_mask.word (wordIndex i) = expected_word ∧ spurious = false then some w
          else none
      | .release w (.casOwner i) => if s.pool.owner_worker_id i = w then some w else none
      | _ => none
  | _ => none

/-- The condition on a step: a slot is taken, or taken back, only in the name of the worker
that was registered over the connection. -/
def Authentic (s : State) (l : Label) : Prop :=
  ∀ w ∈ actsFor s l, ∀ t ∈ l.thread, w = (t : Int)

/-- The owner of a slot changes only from nobody to the worker of the connection or back,
and once the disconnect handler of a connection is over, no slot that was claimed over the
connection is still taken. -/
structure Authority (s : State) (l : Label) (s' : State) : Prop where
  owners : ∀ i, s'.pool.owner_worker_id i ≠ s.pool.owner_worker_id i → ∃ t ∈ l.thread,
    (s.pool.owner_worker_id i = -1 ∧ s'.pool.owner_worker_id i = (t : Int)) ∨
    (s.pool.owner_worker_id i = (t : Int) ∧ s'.pool.owner_worker_id i = -1)
  returned : ∀ t, s'.threads t = .closed → ∀ i, s'.claimedOver i ≠ some t

/-- A thread in this place has still to give slot `i` back if it was claimed over its
connection. -/
def ThreadPc.Covers (i : Slot) : ThreadPc → Prop
  | .unregistered | .closed => False
  | .waiting | .serving _ => True
  | .scanning sid stale_slots => i ∈ stale_slots ∨ sid ≤ i
  | .releasing stale_slots pc => i ∈ stale_slots ∨ pc = some (.casOwner i)

/-- What the threads are doing on the pool. -/
def State.calls (s : State) (t : Nat) : Call :=
  (s.threads t).call t

/-- What holds between two steps of any number of connections: a claim is made in the name of its
own connection, an owned slot was claimed over the connection of its owner, and a connection that is
still open covers all that was claimed over it. -/
structure Invariant (s : State) : Prop where
  consistent : s.pool.Consistent s.calls
  claiming : ∀ t w i, s.calls t = .claim w (.storeOwner i) → w = (t : Int)
  owner : ∀ i, (s.pool.owner_worker_id i = -1 ∧ s.claimedOver i = none) ∨
    ∃ t : Nat, s.pool.owner_worker_id i = t ∧ s.claimedOver i = some t
  covered : ∀ t i, s.claimedOver i = some t → (s.threads t).Covers i
  fresh : ∀ t, s.num_registered ≤ t → s.threads t = .unregistered

variable {s s' : State} {t : Nat} {w : Int} {i : Slot} {spurious : Bool}

/-- A slot that is claimed over a connection has the connection's worker as its owner. -/
theorem Invariant.owner_of_claimedOver (h : Invariant s) (hClaimed : s.claimedOver i = some t) :
    s.pool.owner_worker_id i = (t : Int) := by
  rcases h.owner i with ⟨-, hNone⟩ | ⟨t', hOwner, hSome⟩
  · simp [hNone] at hClaimed
  · rw [hClaimed, Option.some.injEq] at hSome
    rw [hOwner, hSome]

theorem Invariant.lt_num_slots (h : Invariant s) (hClaimed : s.claimedOver i = some t) :
    (i : Int) < s.pool.num_slots := by
  refine (h.consistent.owned i ?_).1
  rw [h.owner_of_claimedOver hClaimed]
  omega

theorem Invariant.registered (h : Invariant s) (ht : s.threads t ≠ .unregistered) :
    t < s.num_registered := by
  by_contra hFresh
  exact ht (h.fresh t (by omega))

/-- The rule that every step of thread `t` goes through: what the step must show of the
pool, of the owners and of the place where the thread comes to stand. -/
theorem Invariant.act (h : Invariant s) {pc : ThreadPc} (ht : t < s'.num_registered)
    (hThreads : s'.threads = Function.update s.threads t pc)
    (hNum : s.num_registered ≤ s'.num_registered)
    (hConsistent : s'.pool.Consistent (Function.update s.calls t (pc.call t)))
    (hClaiming : ∀ w i, pc.call t = .claim w (.storeOwner i) → w = (t : Int))
    (hOwner : ∀ i, (s'.pool.owner_worker_id i = -1 ∧ s'.claimedOver i = none) ∨
      ∃ t : Nat, s'.pool.owner_worker_id i = t ∧ s'.claimedOver i = some t)
    (hCovers : ∀ i, s'.claimedOver i = some t → pc.Covers i)
    (hOther : ∀ i t', t' ≠ t → s'.claimedOver i = some t' → s.claimedOver i = some t') :
    Invariant s' := by
  have hCalls : s'.calls = Function.update s.calls t (pc.call t) := by
    funext t'
    by_cases ht' : t' = t
    · subst ht'
      simp [State.calls, hThreads]
    · simp [State.calls, hThreads, ht']
  refine ⟨hCalls ▸ hConsistent, ?_, hOwner, ?_, ?_⟩
  · intro t' w i hClaim
    rw [hCalls] at hClaim
    by_cases ht' : t' = t
    · subst ht'
      rw [Function.update_self] at hClaim
      exact hClaiming w i hClaim
    · rw [Function.update_of_ne ht'] at hClaim
      exact h.claiming t' w i hClaim
  · intro t' i hClaimed
    rw [hThreads]
    by_cases ht' : t' = t
    · subst ht'
      rw [Function.update_self]
      exact hCovers i hClaimed
    · rw [Function.update_of_ne ht']
      exact h.covered t' i (hOther i t' ht' hClaimed)
  · intro t' hFresh
    rw [hThreads, Function.update_of_ne (by omega)]
    exact h.fresh t' (hNum.trans hFresh)

/-- A thread that is not in the middle of a call moves on, to a place that still covers
what was claimed over its connection. -/
theorem Invariant.move (h : Invariant s) {pc : ThreadPc} (ht : t < s'.num_registered)
    (hThreads : s'.threads = Function.update s.threads t pc)
    (hNum : s.num_registered ≤ s'.num_registered) (hPool : s'.pool = s.pool)
    (hOver : s'.claimedOver = s.claimedOver)
    (hBefore : (s.calls t).carried = none) (hAfter : (pc.call t).carried = none)
    (hCall : ∀ w cpc, pc.call t = .claim w cpc → cpc = .loadFree 0 {})
    (hCovers : ∀ i, s.claimedOver i = some t → pc.Covers i) :
    Invariant s' := by
  refine h.act ht hThreads hNum ?_ ?_ ?_ ?_ ?_
  · rw [hPool]
    exact h.consistent.move rfl rfl rfl hBefore hAfter
      fun w i x hEq => by simpa using hCall w _ hEq
  · intro w i hEq
    simpa using hCall w _ hEq
  · rw [hPool, hOver]
    exact h.owner
  · rw [hOver]
    exact hCovers
  · intro i t' _ hClaimed
    rwa [hOver] at hClaimed

theorem invariant_initial (h : Initial s) : Invariant s := by
  obtain ⟨cudaMalloc, num_slots, hidden_dim, intermediate_dim, num_kv_heads, head_dim,
    max_seq_per_step, dtype_size, hPool⟩ := h.pool
  have hConsistent := (SlotCalls.invariant_initial (s := ⟨s.pool, none, s.calls, fun _ => []⟩)
    ⟨⟨_, _, _, _, _, _, _, _, hPool⟩, fun t => by simp [State.calls, h.threads t, ThreadPc.call],
      fun _ => rfl⟩)
  refine ⟨hConsistent.consistent, ?_, ?_, ?_, fun t _ => h.threads t⟩
  · intro t w i hClaim
    simp [State.calls, h.threads t, ThreadPc.call] at hClaim
  · intro i
    refine .inl ⟨?_, h.claimedOver i⟩
    rcases hConsistent.owner i with hNone | ⟨w, hOwner⟩
    · exact hNone
    · have hHeld := hConsistent.held i w hOwner
      simp at hHeld
  · intro t i hClaimed
    simp [h.claimedOver i] at hClaimed

/-- A step of a claim in the name of the connection's own worker: the slot whose owner it
stores was nobody's. -/
theorem Invariant.claim (h : Invariant s) {pc : ClaimPc}
    (hServing : s.threads t = .serving (.claim w pc))
    (hOwn : ∀ i, (claim_slot s.pool w spurious pc).2 = .storeOwner i → w = (t : Int)) :
    Invariant ((s.claimStep t w spurious pc).setThread t
      (.serving (.claim w (claim_slot s.pool w spurious pc).2))) := by
  have hCall : s.calls t = .claim w pc := by rw [State.calls, hServing]; rfl
  have hStored : ∀ i, pc = .storeOwner i → w = (t : Int) := by
    rintro i rfl
    exact h.claiming t w i hCall
  have hConsistent : (claim_slot s.pool w spurious pc).1.Consistent (Function.update s.calls t
      (.claim w (claim_slot s.pool w spurious pc).2)) :=
    h.consistent.claim_slot spurious (fun i hPc => by have := hStored i hPc; omega) hCall rfl
  refine h.act (t := t) (h.registered (by simp [hServing])) rfl (Nat.le_refl _) hConsistent
    ?_ ?_ ?_ ?_
  · intro w' i hClaim
    simp only [ThreadPc.call, Call.claim.injEq] at hClaim
    exact hClaim.1 ▸ hOwn i hClaim.2
  · intro j
    by_cases hStore : ∃ i, pc = .storeOwner i
    · obtain ⟨i, rfl⟩ := hStore
      by_cases hj : j = i
      · subst hj
        exact .inr ⟨t, by simp [State.claimStep, State.setThread, claim_slot, hStored]⟩
      · simpa [State.claimStep, State.setThread, claim_slot, hj] using h.owner j
    · have hOwner : (claim_slot s.pool w spurious pc).1.owner_worker_id = s.pool.owner_worker_id :=
        SlotPool.owner_worker_id_claim_slot hStore
      cases pc <;> first
        | exact absurd ⟨_, rfl⟩ hStore
        | simpa only [State.claimStep, State.setThread, hOwner] using h.owner j
  · intro j _
    trivial
  · intro j t' ht' hClaimed
    cases pc with
    | storeOwner i =>
        by_cases hj : j = i
        · subst hj
          simp [State.claimStep, State.setThread, Ne.symm ht'] at hClaimed
        · simpa [State.claimStep, State.setThread, hj] using hClaimed
    | _ => exact hClaimed

/-- A step of a release in the name of the connection's own worker, or one that finds that
the slot is not that worker's. -/
theorem Invariant.release (h : Invariant s) {pc : ReleasePc} {next : ThreadPc}
    (hCall : s.calls t = .release w pc)
    (hNext : next.call t = .release w (release_slot s.pool w pc).2)
    (hOwn : ∀ i, pc = .casOwner i → s.pool.owner_worker_id i = w → w = (t : Int))
    (hCovers : ∀ i, (s.releaseStep w pc).claimedOver i = some t → next.Covers i) :
    Invariant ((s.releaseStep w pc).setThread t next) := by
  have ht : t < s.num_registered := by
    refine h.registered fun hNew => ?_
    simp [State.calls, hNew, ThreadPc.call] at hCall
  have hConsistent : (release_slot s.pool w pc).1.Consistent (Function.update s.calls t
      (.release w (release_slot s.pool w pc).2)) :=
    h.consistent.release_slot (fun i hPc hOwner => by have := hOwn i hPc hOwner; omega) hCall rfl
  rw [← hNext] at hConsistent
  refine h.act (t := t) ht rfl (Nat.le_refl _) hConsistent ?_ ?_ ?_ ?_
  · simp [hNext]
  · intro j
    by_cases hTake : ∃ i, pc = .casOwner i ∧ s.pool.owner_worker_id i = w
    · obtain ⟨i, rfl, hOwner⟩ := hTake
      by_cases hj : j = i
      · subst hj
        exact .inl (by simp [State.releaseStep, State.setThread, release_slot, hOwner])
      · simpa [State.releaseStep, State.setThread, release_slot, hOwner, hj] using h.owner j
    · have hOwner : (release_slot s.pool w pc).1.owner_worker_id = s.pool.owner_worker_id :=
        SlotPool.owner_worker_id_release_slot hTake
      cases pc with
      | casOwner i =>
          have hNot : s.pool.owner_worker_id i ≠ w := fun hEq => hTake ⟨i, rfl, hEq⟩
          simpa [State.releaseStep, State.setThread, hOwner, hNot] using h.owner j
      | _ => simpa only [State.releaseStep, State.setThread, hOwner] using h.owner j
  · exact hCovers
  · intro j t' ht' hClaimed
    cases pc with
    | casOwner i =>
        simp only [State.releaseStep, State.setThread] at hClaimed
        split at hClaimed
        next =>
          by_cases hj : j = i
          · subst hj
            simp at hClaimed
          · rwa [Function.update_of_ne hj] at hClaimed
        next => exact hClaimed
    | _ => exact hClaimed

/-- Between two calls the thread carries no slot. -/
theorem carried_of_finished {call : Call} (hFinished : SlotCalls.finished call = true) :
    call.carried = none := by
  cases call with
  | idle => rfl
  | claim w pc => cases pc <;> first | rfl | simp [SlotCalls.finished] at hFinished
  | release w pc => cases pc <;> first | rfl | simp [SlotCalls.finished] at hFinished

theorem carried_release_slot_entry (pool : SlotPool) (slot_id w : Int) :
    (Call.release w (release_slot_entry pool slot_id)).carried = none := by
  unfold release_slot_entry
  split
  next => rfl
  next => split <;> rfl

theorem release_slot_entry_eq (hLt : (i : Int) < s.pool.num_slots) :
    release_slot_entry s.pool i = .casOwner i := by
  have hNot : ¬ ((i : Int) < 0 ∨ s.pool.num_slots ≤ i) := by omega
  have hSlot : slotOf i = some i := by simp [slotOf]
  rw [release_slot_entry, if_neg hNot, hSlot]

/-- The message fixes the call that the thread starts; it takes nothing yet. -/
theorem Invariant.message (h : Invariant s) (msg : Message) (hWaiting : s.threads t = .waiting) :
    Invariant (s.setThread t (handle_slot_request s.pool msg)) := by
  have ht : t < s.num_registered := h.registered (by simp [hWaiting])
  have hBefore : (s.calls t).carried = none := by rw [State.calls, hWaiting]; rfl
  unfold handle_slot_request
  split
  next =>
    split
    next w _ =>
      refine h.move ht rfl (Nat.le_refl _) rfl rfl hBefore rfl ?_ fun _ _ => trivial
      intro w' pc hEq
      simpa [ThreadPc.call, eq_comm] using (Call.claim.inj hEq).2
    next =>
      exact h.move ht rfl (Nat.le_refl _) rfl rfl hBefore rfl (by simp [ThreadPc.call])
        fun _ _ => trivial
  next =>
    split
    next slot_id w _ _ =>
      exact h.move ht rfl (Nat.le_refl _) rfl rfl hBefore
        (carried_release_slot_entry s.pool slot_id w) (by simp [ThreadPc.call]) fun _ _ => trivial
    next =>
      exact h.move ht rfl (Nat.le_refl _) rfl rfl hBefore rfl (by simp [ThreadPc.call])
        fun _ _ => trivial
  next =>
    exact h.move ht rfl (Nat.le_refl _) rfl rfl hBefore rfl (by simp [ThreadPc.call])
      fun _ _ => trivial

/-- The disconnect handler looks at every slot of the pool, so what it has not put on its
list yet still lies ahead. -/
theorem Invariant.scan (h : Invariant s) {sid : Nat} {stale_slots : List Slot}
    (hScanning : s.threads t = .scanning sid stale_slots)
    (hStep : advance s t spurious = some s') : Invariant s' := by
  have ht : t < s.num_registered := h.registered (by simp [hScanning])
  have hBefore : (s.calls t).carried = none := by rw [State.calls, hScanning]; rfl
  have hCovered : ∀ j, s.claimedOver j = some t → j ∈ stale_slots ∨ sid ≤ j := by
    intro j hClaimed
    simpa [hScanning, ThreadPc.Covers] using h.covered t j hClaimed
  simp only [advance, hScanning] at hStep
  split at hStep
  next hSid =>
    split at hStep
    next i hSlot =>
      have hi : (i : Nat) = sid := by
        simp only [slotOf, Int.toNat_natCast, Option.dite_none_right_eq_some, Option.some.injEq]
          at hSlot
        obtain ⟨_, rfl⟩ := hSlot
        rfl
      split at hStep
      next hOwner =>
        obtain rfl := Option.some.inj hStep
        refine h.move ht rfl (Nat.le_refl _) rfl rfl hBefore rfl (by simp [ThreadPc.call]) ?_
        intro j hClaimed
        rcases hCovered j hClaimed with hMem | hLe
        · exact .inl (List.mem_append_left _ hMem)
        · by_cases hj : j = i
          · exact .inl (by simp [hj])
          · exact .inr (by have := Fin.val_ne_of_ne hj; omega)
      next hOwner =>
        obtain rfl := Option.some.inj hStep
        refine h.move ht rfl (Nat.le_refl _) rfl rfl hBefore rfl (by simp [ThreadPc.call]) ?_
        intro j hClaimed
        refine (hCovered j hClaimed).imp_right fun hLe => ?_
        have hj : j ≠ i := by
          rintro rfl
          exact hOwner (h.owner_of_claimedOver hClaimed)
        have := Fin.val_ne_of_ne hj
        omega
    next hSlot =>
      obtain rfl := Option.some.inj hStep
      refine h.move ht rfl (Nat.le_refl _) rfl rfl hBefore rfl (by simp [ThreadPc.call]) ?_
      intro j hClaimed
      refine (hCovered j hClaimed).imp_right fun hLe => ?_
      have := j.isLt
      simp [slotOf] at hSlot
      omega
  next hSid =>
    obtain rfl := Option.some.inj hStep
    refine h.move ht rfl (Nat.le_refl _) rfl rfl hBefore rfl (by simp [ThreadPc.call]) ?_
    intro j hClaimed
    have := h.lt_num_slots hClaimed
    exact .inl ((hCovered j hClaimed).resolve_right (by omega))

/-- The disconnect handler gives back the slots on its list one after the other, each in the
name of the connection's worker, who still owns it. -/
theorem Invariant.giveBack (h : Invariant s) {stale_slots : List Slot} {pc : Option ReleasePc}
    (hReleasing : s.threads t = .releasing stale_slots pc)
    (hStep : advance s t spurious = some s') : Invariant s' := by
  have ht : t < s.num_registered := h.registered (by simp [hReleasing])
  have hCovered : ∀ j, s.claimedOver j = some t → j ∈ stale_slots ∨ pc = some (.casOwner j) := by
    intro j hClaimed
    simpa [hReleasing, ThreadPc.Covers] using h.covered t j hClaimed
  cases pc with
  | none =>
      have hBefore : (s.calls t).carried = none := by rw [State.calls, hReleasing]; rfl
      cases stale_slots with
      | nil =>
          simp only [advance, hReleasing, Option.some.injEq] at hStep
          subst hStep
          refine h.move ht rfl (Nat.le_refl _) rfl rfl hBefore rfl (by simp [ThreadPc.call]) ?_
          intro j hClaimed
          simpa using hCovered j hClaimed
      | cons i rest =>
          simp only [advance, hReleasing, Option.some.injEq] at hStep
          subst hStep
          refine h.move ht rfl (Nat.le_refl _) rfl rfl hBefore
            (carried_release_slot_entry s.pool i t) (by simp [ThreadPc.call]) ?_
          intro j hClaimed
          have hList : j = i ∨ j ∈ rest := by simpa using hCovered j hClaimed
          refine hList.symm.imp_right ?_
          rintro rfl
          rw [release_slot_entry_eq (h.lt_num_slots hClaimed)]
  | some pc =>
      have hCall : s.calls t = .release t pc := by rw [State.calls, hReleasing]; rfl
      simp only [advance, hReleasing] at hStep
      split at hStep
      next hFinished =>
        obtain rfl := Option.some.inj hStep
        refine h.move ht rfl (Nat.le_refl _) rfl rfl (hCall ▸ carried_of_finished hFinished) rfl
          (by simp [ThreadPc.call]) ?_
        intro j hClaimed
        refine .inl ((hCovered j hClaimed).resolve_right ?_)
        rintro ⟨⟩
        simp [SlotCalls.finished] at hFinished
      next =>
        obtain rfl := Option.some.inj hStep
        refine h.release hCall rfl (fun _ _ _ => rfl) ?_
        intro j hClaimed
        -- The slot whose owner this step takes back is no longer claimed over anything.
        cases pc with
        | casOwner i =>
            by_cases hj : j = i
            · subst hj
              by_cases hOwner : s.pool.owner_worker_id j = t
              · simp [State.releaseStep, hOwner] at hClaimed
              · simp only [State.releaseStep, hOwner, if_false] at hClaimed
                exact absurd (h.owner_of_claimedOver hClaimed) hOwner
            · have hOld : s.claimedOver j = some t := by
                simp only [State.releaseStep] at hClaimed
                split at hClaimed
                next => rwa [Function.update_of_ne hj] at hClaimed
                next => exact hClaimed
              have hList : j ∈ stale_slots ∨ i = j := by simpa using hCovered j hOld
              exact .inl (hList.resolve_right (Ne.symm hj))
        | _ => exact .inl ((hCovered j hClaimed).resolve_right (by simp))

theorem invariant_step {l : Label} (h : Invariant s) (hGuard : Authentic s l)
    (hStep : step s l = some s') : Invariant s' := by
  cases l with
  | register =>
      simp only [step, Option.ite_none_right_eq_some, Option.some.injEq] at hStep
      obtain ⟨-, rfl⟩ := hStep
      have hNew : s.threads s.num_registered = .unregistered := h.fresh _ (Nat.le_refl _)
      refine h.move (t := s.num_registered) (Nat.lt_succ_self _) rfl (Nat.le_succ _) rfl rfl ?_ rfl
        (by simp [ThreadPc.call]) fun _ _ => trivial
      rw [State.calls, hNew]
      rfl
  | message t msg =>
      simp only [step, Option.ite_none_right_eq_some, Option.some.injEq] at hStep
      obtain ⟨hWaiting, rfl⟩ := hStep
      exact h.message msg hWaiting
  | advance t spurious =>
      have hOwn : ∀ w ∈ actsFor s (.advance t spurious), w = (t : Int) :=
        fun w hActs => hGuard w hActs t rfl
      cases hPc : s.threads t with
      | serving call =>
          have hCall : s.calls t = call := by rw [State.calls, hPc]; rfl
          cases call with
          | idle => simp [step, advance, hPc] at hStep
          | claim w pc =>
              simp only [step, advance, hPc, Option.some.injEq] at hStep
              subst hStep
              refine h.claim hPc ?_
              intro i hStore
              -- Only the compare-exchange leads to the store of the owner.
              cases pc with
              | casWord j x =>
                  refine hOwn w ?_
                  simp only [claim_slot] at hStore
                  split at hStore
                  next hWord => simp [actsFor, hPc, ThreadPc.call, hWord]
                  next => simp at hStore
              | loadFree k free =>
                  simp only [claim_slot] at hStore
                  split at hStore
                  next => simp at hStore
                  next => split at hStore <;> (try split at hStore) <;> simp at hStore
              | scrubReady j k => simp only [claim_slot] at hStore; split at hStore <;> simp at hStore
              | scrubEvicted j k => simp only [claim_slot] at hStore; split at hStore <;> simp at hStore
              | storeOwner j => simp [claim_slot] at hStore
              | returned j => simp [claim_slot] at hStore
              | threw => simp [claim_slot] at hStore
          | release w pc =>
              simp only [step, advance, hPc, Option.some.injEq] at hStep
              subst hStep
              refine h.release hCall rfl ?_ fun _ _ => trivial
              rintro i rfl hOwner
              exact hOwn w (by simp [actsFor, hPc, ThreadPc.call, hOwner])
      | scanning sid stale_slots => exact h.scan hPc hStep
      | releasing stale_slots pc => exact h.giveBack hPc hStep
      | unregistered => simp [step, advance, hPc] at hStep
      | waiting => simp [step, advance, hPc] at hStep
      | closed => simp [step, advance, hPc] at hStep
  | reply t sent =>
      simp only [step] at hStep
      split at hStep
      next call hPc =>
        simp only [Option.ite_none_right_eq_some, Option.some.injEq] at hStep
        obtain ⟨hFinished, rfl⟩ := hStep
        have hCall : s.calls t = call := by rw [State.calls, hPc]; rfl
        refine h.move (h.registered (by simp [hPc])) rfl (Nat.le_refl _) rfl rfl
          (hCall ▸ carried_of_finished hFinished) ?_ ?_ ?_
        · cases sent <;> rfl
        · cases sent <;> simp [ThreadPc.call]
        · cases sent <;> simp [ThreadPc.Covers]
      next => simp at hStep
  | disconnect t =>
      simp only [step, Option.ite_none_right_eq_some, Option.some.injEq] at hStep
      obtain ⟨hWaiting, rfl⟩ := hStep
      refine h.move (h.registered (by simp [hWaiting])) rfl (Nat.le_refl _) rfl rfl ?_ rfl
        (by simp [ThreadPc.call]) fun _ _ => .inr (Nat.zero_le _)
      rw [State.calls, hWaiting]
      rfl

theorem invariant_of_reach (run : machine.Reach Authentic s) : Invariant s :=
  run.invariant Invariant (fun _ => invariant_initial)
    fun _ _ _ h hGuard hStep => invariant_step h hGuard hStep

/-- The owners after a step of a connection thread. -/
theorem Invariant.owners (h : Invariant s) {l : Label} (hGuard : Authentic s l)
    (hStep : step s l = some s')
    (hChanged : s'.pool.owner_worker_id i ≠ s.pool.owner_worker_id i) :
    ∃ t ∈ l.thread,
      (s.pool.owner_worker_id i = -1 ∧ s'.pool.owner_worker_id i = (t : Int)) ∨
      (s.pool.owner_worker_id i = (t : Int) ∧ s'.pool.owner_worker_id i = -1) := by
  cases l with
  | register =>
      simp only [step, Option.ite_none_right_eq_some, Option.some.injEq] at hStep
      obtain ⟨-, rfl⟩ := hStep
      exact absurd rfl hChanged
  | message t msg =>
      simp only [step, Option.ite_none_right_eq_some, Option.some.injEq] at hStep
      obtain ⟨-, rfl⟩ := hStep
      exact absurd rfl hChanged
  | reply t sent =>
      simp only [step] at hStep
      split at hStep
      next =>
        simp only [Option.ite_none_right_eq_some, Option.some.injEq] at hStep
        obtain ⟨-, rfl⟩ := hStep
        exact absurd rfl hChanged
      next => simp at hStep
  | disconnect t =>
      simp only [step, Option.ite_none_right_eq_some, Option.some.injEq] at hStep
      obtain ⟨-, rfl⟩ := hStep
      exact absurd rfl hChanged
  | advance t spurious =>
      refine ⟨t, rfl, ?_⟩
      have hRelease : ∀ w pc, s.calls t = .release w pc →
          (release_slot s.pool w pc).1.owner_worker_id i ≠ s.pool.owner_worker_id i →
          s.pool.owner_worker_id i = (t : Int) ∧
            (release_slot s.pool w pc).1.owner_worker_id i = -1 := by
        intro w pc hCall hTaken
        by_cases hTake : ∃ j, pc = .casOwner j ∧ s.pool.owner_worker_id j = w
        · obtain ⟨j, rfl, hOwner⟩ := hTake
          by_cases hij : i = j
          · subst hij
            have hOwn : w = (t : Int) :=
              hGuard w (by simp [actsFor, show (s.threads t).call t = _ from hCall, hOwner]) t rfl
            simp [release_slot, hOwner, hOwn]
          · simp [release_slot, hOwner, hij] at hTaken
        · exact absurd (congrFun (SlotPool.owner_worker_id_release_slot hTake) i) hTaken
      simp only [step, advance] at hStep
      split at hStep
      next w pc hPc =>
        obtain rfl := Option.some.inj hStep
        have hCall : s.calls t = .claim w pc := by rw [State.calls, hPc]; rfl
        by_cases hStore : ∃ j, pc = .storeOwner j
        · obtain ⟨j, rfl⟩ := hStore
          by_cases hij : i = j
          · subst hij
            refine .inl ⟨?_, ?_⟩
            · by_contra hOwned
              exact (h.consistent.owned i hOwned).2 t (by rw [hCall]; rfl)
            · simp [State.claimStep, State.setThread, claim_slot, h.claiming t w i hCall]
          · simp [State.claimStep, State.setThread, claim_slot, hij] at hChanged
        · exact absurd (congrFun (SlotPool.owner_worker_id_claim_slot hStore) i) hChanged
      next w pc hPc =>
        obtain rfl := Option.some.inj hStep
        exact .inr (hRelease w pc (by rw [State.calls, hPc]; rfl) hChanged)
      next =>
        split at hStep
        next =>
          split at hStep
          next => split at hStep <;> obtain rfl := Option.some.inj hStep <;> exact absurd rfl hChanged
          next => obtain rfl := Option.some.inj hStep; exact absurd rfl hChanged
        next => obtain rfl := Option.some.inj hStep; exact absurd rfl hChanged
      next => obtain rfl := Option.some.inj hStep; exact absurd rfl hChanged
      next => obtain rfl := Option.some.inj hStep; exact absurd rfl hChanged
      next stale_slots pc hPc =>
        split at hStep
        next => obtain rfl := Option.some.inj hStep; exact absurd rfl hChanged
        next =>
          obtain rfl := Option.some.inj hStep
          exact .inr (hRelease t pc (by rw [State.calls, hPc]; rfl) hChanged)
      next => simp at hStep

/-- As long as slots are taken and taken back only in the name of the connection's worker,
every worker has authority over its own slots and no others. -/
theorem authority_of_authentic {l : Label} (run : machine.Reach Authentic s)
    (hGuard : Authentic s l) (hStep : machine.step s l = some s') : Authority s l s' where
  owners _ hChanged := (invariant_of_reach run).owners hGuard hStep hChanged
  returned t hClosed i hClaimed := by
    simpa [hClosed, ThreadPc.Covers] using
      (invariant_of_reach (.next run hGuard hStep)).covered t i hClaimed

instance (s : State) (l : Label) : Decidable (Authentic s l) :=
  inferInstanceAs (Decidable (∀ w ∈ actsFor s l, ∀ t ∈ l.thread, w = (t : Int)))

/-- A pool of two slots that two workers may register for. -/
def twoWorkers : State where
  pool := SlotCalls.twoSlots.pool
  ctrl := {}
  max_workers := 2
  num_registered := 0
  threads := fun _ => .unregistered
  claimedOver := fun _ => none

theorem twoWorkers_initial : machine.initial twoWorkers :=
  ⟨⟨fun _ => true, 2, 8, 16, 2, 4, 4, 2, rfl⟩, rfl, fun _ => rfl, fun _ => rfl⟩

/-- Both workers register, and worker 0 claims a slot over its connection. -/
def firstClaim : List Label :=
  [.register, .register, .message 0 ⟨.claim, .integer 0, .absent⟩] ++
    List.replicate 8 (.advance 0 false) ++ [.reply 0 true]

/-- Worker 0 disconnects right away, and its slot is given back. -/
theorem authority_of_disconnect : ∃ s l s', machine.Reach Authentic s ∧
    s.claimedOver 0 = some 0 ∧ machine.step s l = some s' ∧ Authority s l s' := by
  have hRun : (machine.replayUnder Authentic twoWorkers (firstClaim ++ [.disconnect 0])).map
      (fun s => (s.claimedOver 0, (machine.step s (.advance 0 false)).isSome,
        decide (Authentic s (.advance 0 false)))) = some (some 0, true, true) := by decide +kernel
  obtain ⟨s, hReplay, hEnd⟩ := Option.map_eq_some_iff.mp hRun
  have run := Machine.System.reach_of_replayUnder (.start twoWorkers_initial) hReplay
  obtain ⟨hClaimed, hSome, hGuard⟩ := by simpa only [Prod.mk.injEq] using hEnd
  obtain ⟨s', hStep⟩ := Option.isSome_iff_exists.mp hSome
  exact ⟨s, .advance 0 false, s', run, hClaimed, hStep,
    authority_of_authentic run (of_decide_eq_true hGuard) hStep⟩

/-- A release that worker 1 sends in the name of worker 0 takes the slot of worker 0 away
from it. -/
theorem forged_release_takes_slot : ∃ s l s', machine.Reachable s ∧
    machine.step s l = some s' ∧ ¬ Authority s l s' := by
  have hRun : (machine.replay twoWorkers (firstClaim ++
      [.message 1 ⟨.release, .integer 0, .integer 0⟩])).map (fun s => (s.pool.owner_worker_id 0,
        (machine.step s (.advance 1 false)).map fun s' => s'.pool.owner_worker_id 0)) =
      some (0, some (-1)) := by decide +kernel
  obtain ⟨s, hReplay, hEnd⟩ := Option.map_eq_some_iff.mp hRun
  have run := Machine.System.reachable_of_replay (.start twoWorkers_initial) hReplay
  obtain ⟨hBefore, hNext⟩ := Prod.mk.inj hEnd
  obtain ⟨s', hStep, hAfter⟩ := Option.map_eq_some_iff.mp hNext
  refine ⟨s, .advance 1 false, s', run, hStep, fun hAuthority => ?_⟩
  obtain ⟨t, ht, hOwners⟩ := hAuthority.owners 0 (by rw [hBefore, hAfter]; decide)
  simp only [Label.thread, Option.mem_def, Option.some.injEq] at ht
  subst ht
  rw [hBefore] at hOwners
  revert hOwners
  simp

end Aggregator.Connections
