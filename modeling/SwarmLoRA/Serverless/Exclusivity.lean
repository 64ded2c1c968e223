import SwarmLoRA.Serverless.Claiming

namespace Serverless.Claiming

open Machine

/-- What a thread has of which container: a mark, a swap under way, a mark to be removed, or the
container itself for a batch. -/
inductive Role where
  | free
  | marks (container_id : ContainerId)
  | swaps (inline : Bool) (container_id : ContainerId)
  | unmarks (container_id : ContainerId)
  | holds (batch : Batch) (container_id : ContainerId)

/-- The swap is made by a thread for its own batch. -/
def Requester.inline : Requester → Bool
  | batch _ => true
  | rebalance _ => false

/-- What a point of the code has of a container. -/
def Pc.role : Pc → Role
  | marked swap => .marks swap.container_id
  | swapping swap | swapped swap => .swaps swap.requester.inline swap.container_id
  | unmarking swap _ => .unmarks swap.container_id
  | executing batch id | finishing batch id => .holds batch id
  | _ => .free

/-- The container that a thread has marked. -/
def Role.mark : Role → Option ContainerId
  | marks id | swaps _ id | unmarks id => some id
  | free | holds _ _ => none

namespace State

/-- What the thread has of which container. -/
def role (s : State) (t : ThreadId) : Role := (s.pc t).role

/-- A swap of the container has been asked for and is not done. -/
def Swapping (s : State) (id : ContainerId) : Prop :=
  ∃ t inline, s.role t = .swaps inline id

/-- The container is bound to the function of the batch, idle and not marked. -/
def Claimable (s : State) (batch : Batch) (id : ContainerId) : Prop :=
  id ∉ s.swapping_containers ∧ ∃ c, s.containers.find id = some c ∧
    c.function_id = some batch.function_id ∧ c.pending_requests = 0

/-- Another container is ready for the same function, and no swap takes it away. -/
def Spare (s : State) (id : ContainerId) : Prop :=
  ∃ c id' c', s.containers.find id = some c ∧ s.containers.find id' = some c' ∧ id' ≠ id ∧
    c'.status = .ready ∧ c'.function_id = c.function_id ∧ ¬s.Swapping id'

/-- An inline swap of a container of the same function is not done. -/
def Contended (s : State) (id : ContainerId) : Prop :=
  ∃ t id', s.role t = .swaps true id' ∧
    (s.containers.find id').map (·.function_id) = (s.containers.find id).map (·.function_id)

/-- A function has a ready container. -/
def Serves (s : State) (function_id : FunctionId) : Prop :=
  ∃ id c, s.containers.find id = some c ∧ c.status = .ready ∧ c.function_id = some function_id

end State

/-- What a thread has checked holds when it acts on it: at a claim the container is bound, idle and
not marked, and at a swap it is idle and, where an inline swap is concerned, not the last of its
function. -/
def Fresh (s : State) : Label → Prop
  | .claim t => ∀ batch id, s.pc t = .selected batch id → s.Claimable batch id
  | .claim_swapped t => ∀ batch id, s.pc t = .returned batch id → s.Claimable batch id
  | .swap_adapter t => ∀ swap, s.pc t = .marked swap →
      (∃ c, s.containers.find swap.container_id = some c ∧ c.pending_requests = 0) ∧
        (swap.requester.inline = true ∨ s.Contended swap.container_id → s.Spare swap.container_id)
  | _ => True

/-- What a step changes, of what the threads have and share. A claim and a swap come with what the
guard says of the container. -/
inductive Effect (s s' : State) : Prop where
  | quiet (hRole : s'.role = s.role) (hFind : s'.containers.find = s.containers.find)
      (hMarks : s'.swapping_containers = s.swapping_containers)
  | claim {t : ThreadId} {batch : Batch} {id : ContainerId} {c : Container}
      (hFree : s.role t = .free)
      (hUnmarked : id ∉ s.swapping_containers)
      (hContainer : s.containers.find id = some c)
      (hBound : c.function_id = some batch.function_id)
      (hIdle : c.pending_requests = 0)
      (hRole : s'.role = Function.update s.role t (.holds batch id))
      (hFind : s'.containers.find = Function.update s.containers.find id
        (some { c with pending_requests := c.pending_requests + batch.size }))
      (hMarks : s'.swapping_containers = s.swapping_containers)
  | mark {t : ThreadId} {id : ContainerId}
      (hFree : s.role t = .free)
      (hNew : id ∉ s.swapping_containers)
      (hRole : s'.role = Function.update s.role t (.marks id))
      (hFind : s'.containers.find = s.containers.find)
      (hMarks : s'.swapping_containers = id :: s.swapping_containers)
  | start {t : ThreadId} {inline : Bool} {id : ContainerId} {c : Container}
      (hMarked : s.role t = .marks id)
      (hContainer : s.containers.find id = some c)
      (hIdle : c.pending_requests = 0)
      (hSpare : inline = true ∨ s.Contended id → s.Spare id)
      (hRole : s'.role = Function.update s.role t (.swaps inline id))
      (hFind : s'.containers.find = s.containers.find)
      (hMarks : s'.swapping_containers = s.swapping_containers)
  | land {t : ThreadId} {inline : Bool} {id : ContainerId} {c' : Option Container}
      (hSwaps : s.role t = .swaps inline id)
      (hRole : s'.role = Function.update s.role t (.unmarks id))
      (hFind : s'.containers.find = Function.update s.containers.find id c')
      (hMarks : s'.swapping_containers = s.swapping_containers)
  | unmark {t : ThreadId} {id : ContainerId}
      (hUnmarks : s.role t = .unmarks id)
      (hRole : s'.role = Function.update s.role t .free)
      (hFind : s'.containers.find = s.containers.find)
      (hMarks : s'.swapping_containers = s.swapping_containers.filter (· ≠ id))
  | release {t : ThreadId} {batch : Batch} {id : ContainerId}
      (hHolds : s.role t = .holds batch id)
      (hRole : s'.role = Function.update s.role t .free)
      (hFind : s'.containers.find = Function.update s.containers.find id
        ((s.containers.find id).map fun c =>
          { c with pending_requests := c.pending_requests - batch.size }))
      (hMarks : s'.swapping_containers = s.swapping_containers)
  | register {id : ContainerId} {c : Container}
      (hNew : s.containers.find id = none)
      (hRole : s'.role = s.role)
      (hFind : s'.containers.find = Function.update s.containers.find id (some c))
      (hMarks : s'.swapping_containers = s.swapping_containers)

section Steps

variable {functions : List FunctionProfile} {s s' : State} {l : Label}

/-- A thread that moves changes its own role only. -/
theorem role_update (s : State) (t : ThreadId) (pc : Pc) :
    (fun u => (Function.update s.pc t pc u).role) = Function.update s.role t pc.role := by
  funext u
  by_cases hu : u = t
  · subst hu
    simp
  · simp [hu, State.role]

/-- A thread that goes on as what it was changes nothing. -/
theorem Effect.goto {t : ThreadId} {pc : Pc} {selection_lock : Option ThreadId}
    (hSame : pc.role = s.role t) :
    Effect s { s.goto t pc with selection_lock := selection_lock } := by
  refine .quiet ?_ rfl rfl
  exact (role_update s t pc).trans (by rw [hSame, Function.update_eq_self])

/-- A claim whose checks hold when it is made. -/
theorem Effect.claimed {t : ThreadId} {batch : Batch} {id : ContainerId}
    {selection_lock : Option ThreadId} (hFree : s.role t = .free)
    (hClaimable : s.Claimable batch id) :
    Effect s { s.claim t batch id with selection_lock := selection_lock } := by
  obtain ⟨hUnmarked, c, hContainer, hBound, hIdle⟩ := hClaimable
  refine .claim hFree hUnmarked hContainer hBound hIdle (role_update s t _) ?_ rfl
  show Function.update s.containers.find id ((s.containers.find id).map _) = _
  rw [hContainer, Option.map_some]

/-- The role follows from the point. -/
theorem role_of_pc {t : ThreadId} {pc : Pc} (hPc : s.pc t = pc) : s.role t = pc.role :=
  congrArg Pc.role hPc

/-- A requester that looks again has nothing. -/
theorem Requester.role_retry (requester : Requester) : requester.retry.role = .free := by
  cases requester <;> rfl

/-- Nor has one that goes on after its swap. -/
theorem Requester.role_proceed (requester : Requester) (id : ContainerId) :
    (requester.proceed id).role = .free := by
  cases requester <;> rfl

/-- Until it has chosen a container a thread changes nothing that is shared but the lock. -/
theorem effect_of_choice {t : ThreadId} (hLabel : (∃ batch, l = .dispatch t batch) ∨
      l = .give_up t ∨ l = .select t ∨ (∃ id, l = .pick_best t id) ∨ l = .count t ∨ l = .copy t ∨
      (∃ id, l = .pick t id) ∨ ∃ function_id id, l = .rebalance t function_id id)
    (hStep : step functions s l = some s') : Effect s s' := by
  rcases hLabel with ⟨_, rfl⟩ | rfl | rfl | ⟨_, rfl⟩ | rfl | rfl | ⟨_, rfl⟩ | ⟨_, _, rfl⟩
  all_goals
    simp only [step] at hStep
    split at hStep
    case h_2 => cases hStep
    rename_i hPc
  · cases hStep
    exact .goto (role_of_pc hPc).symm
  · cases hStep
    exact .goto (role_of_pc hPc).symm
  · split at hStep <;> cases hStep
    exact .goto (role_of_pc hPc).symm
  · split at hStep <;> split at hStep <;> cases hStep
    · exact .goto (role_of_pc hPc).symm
    · exact .goto (role_of_pc hPc).symm
  · split at hStep <;> cases hStep
    · exact .goto (role_of_pc hPc).symm
    · exact .goto (role_of_pc hPc).symm
  · cases hStep
    exact .goto (role_of_pc hPc).symm
  · split at hStep <;> split at hStep <;> cases hStep
    · exact .goto (role_of_pc hPc).symm
    · exact .goto (role_of_pc hPc).symm
  · rename_i hIdle
    split at hStep <;> cases hStep
    exact .goto (role_of_pc hIdle).symm

/-- Two of the steps take a container for a batch, and both do the same. -/
theorem effect_of_claim {t : ThreadId} (hLabel : l = .claim t ∨ l = .claim_swapped t)
    (hFresh : Fresh s l) (hStep : step functions s l = some s') : Effect s s' := by
  rcases hLabel with rfl | rfl
  all_goals
    simp only [step] at hStep
    split at hStep
    · rename_i batch id hPc
      cases hStep
      exact .claimed (role_of_pc hPc) (hFresh batch id hPc)
    · cases hStep

/-- A swap begins with its mark, on a container that nobody has marked. -/
theorem effect_of_mark {t : ThreadId} (hStep : step functions s (.mark t) = some s') :
    Effect s s' := by
  simp only [step] at hStep
  split at hStep
  · rename_i swap hPc
    split at hStep
    · cases hStep
      exact .goto (swap.requester.role_retry.trans (role_of_pc hPc).symm)
    · rename_i hNew
      cases hStep
      exact .mark (role_of_pc hPc) hNew (role_update s t _) rfl rfl
  · cases hStep

/-- The container is taken for the swap as its checks found it. -/
theorem effect_of_swap_adapter {t : ThreadId} (hFresh : Fresh s (.swap_adapter t))
    (hStep : step functions s (.swap_adapter t) = some s') : Effect s s' := by
  simp only [step] at hStep
  split at hStep
  · rename_i swap hPc
    obtain ⟨⟨c, hContainer, hIdle⟩, hSpare⟩ := hFresh swap hPc
    cases hStep
    exact .start (role_of_pc hPc) hContainer hIdle hSpare (role_update s t _) rfl rfl
  · cases hStep

/-- The container answers: it has been rebound, or the swap has failed. -/
theorem effect_of_answer {t : ThreadId} {success : Bool}
    (hStep : step functions s (.answer t success) = some s') : Effect s s' := by
  simp only [step] at hStep
  split at hStep
  · rename_i swap hPc
    cases hStep
    cases success with
    | true => exact .goto (role_of_pc hPc).symm
    | false =>
        exact .land (role_of_pc hPc) (role_update s t _) (Function.update_eq_self _ _).symm rfl
  · cases hStep

/-- The mark ends with the swap. -/
theorem effect_of_unmark {t : ThreadId} (hStep : step functions s (.unmark t) = some s') :
    Effect s s' := by
  simp only [step] at hStep
  split at hStep
  · rename_i swap success hPc
    cases hStep
    refine .unmark (role_of_pc hPc) ((role_update s t _).trans (congrArg _ ?_)) rfl rfl
    cases success with
    | true => exact swap.requester.role_proceed swap.container_id
    | false => exact swap.requester.role_retry
  · cases hStep

/-- Every step on what was checked has one of these effects. -/
theorem effect_of_step (hFresh : Fresh s l) (hStep : step functions s l = some s') :
    Effect s s' := by
  cases l with
  | dispatch t batch => exact effect_of_choice (t := t) (by simp) hStep
  | give_up t => exact effect_of_choice (t := t) (by simp) hStep
  | select t => exact effect_of_choice (t := t) (by simp) hStep
  | pick_best t id => exact effect_of_choice (t := t) (by simp) hStep
  | count t => exact effect_of_choice (t := t) (by simp) hStep
  | copy t => exact effect_of_choice (t := t) (by simp) hStep
  | pick t id => exact effect_of_choice (t := t) (by simp) hStep
  | rebalance t function_id id => exact effect_of_choice (t := t) (by simp) hStep
  | claim t => exact effect_of_claim (.inl rfl) hFresh hStep
  | claim_swapped t => exact effect_of_claim (.inr rfl) hFresh hStep
  | mark t => exact effect_of_mark hStep
  | swap_adapter t => exact effect_of_swap_adapter hFresh hStep
  | answer t success => exact effect_of_answer hStep
  | unmark t => exact effect_of_unmark hStep
  | respond t =>
      simp only [step] at hStep
      split at hStep
      · rename_i hPc
        cases hStep
        exact .goto (role_of_pc hPc).symm
      · cases hStep
  | rebind t =>
      simp only [step] at hStep
      split at hStep
      · rename_i swap hPc
        cases hStep
        exact .land (role_of_pc hPc) (role_update s t _) rfl rfl
      · cases hStep
  | release t =>
      simp only [step] at hStep
      split at hStep
      · rename_i batch id hPc
        cases hStep
        exact .release (role_of_pc hPc) (role_update s t _) rfl rfl
      · cases hStep
  | register id container =>
      simp only [step] at hStep
      split at hStep
      · rename_i hNew
        cases hStep
        exact .register hNew.1 rfl rfl rfl
      · cases hStep

/-- A mark is one thread's. -/
structure Marks (s : State) : Prop where
  marked : ∀ t id, (s.role t).mark = some id → id ∈ s.swapping_containers
  alone : ∀ t t' id, (s.role t).mark = some id → (s.role t').mark = some id → t = t'

/-- A container that a batch has is bound to its function and has only the batch pending. -/
structure Holds (s : State) : Prop where
  held : ∀ t batch id, s.role t = .holds batch id → ∃ c, s.containers.find id = some c ∧
    c.function_id = some batch.function_id ∧ c.pending_requests = batch.size
  alone : ∀ t t' batch batch' id, s.role t = .holds batch id → s.role t' = .holds batch' id → t = t'

/-- What holds of a run in which everything that was checked holds when it is acted on: marks and
containers have one thread each, and a container that is swapped is no batch's. -/
structure Sound (s : State) : Prop where
  marks : Marks s
  holds : Holds s
  clear : ∀ t inline id, s.role t = .swaps inline id → ∀ t' batch, s.role t' ≠ .holds batch id
  spare : ∀ t id, s.role t = .swaps true id → s.Spare id

section Roles

variable {t u : ThreadId} {r : Role}

/-- One thread moves, the others stay. -/
theorem role_cases (hRole : s'.role = Function.update s.role t r) (u : ThreadId) :
    u = t ∧ s'.role u = r ∨ u ≠ t ∧ s'.role u = s.role u := by
  rw [hRole]
  by_cases hu : u = t
  · subst hu
    exact .inl ⟨rfl, Function.update_self u r s.role⟩
  · exact .inr ⟨hu, Function.update_of_ne hu r s.role⟩

/-- Where a thread is what the step made of no thread, it was so before. -/
theorem role_before {x : Role} (hRole : s'.role = Function.update s.role t r) (hOther : r ≠ x)
    (hNow : s'.role u = x) : s.role u = x := by
  rcases role_cases hRole u with ⟨-, hNew⟩ | ⟨-, hOld⟩
  · exact absurd (hNew.symm.trans hNow) hOther
  · exact hOld.symm.trans hNow

/-- A thread that keeps its mark changes nobody's mark. -/
theorem mark_same (hRole : s'.role = Function.update s.role t r) (hSame : r.mark = (s.role t).mark)
    (u : ThreadId) : (s'.role u).mark = (s.role u).mark := by
  rcases role_cases hRole u with ⟨rfl, hNew⟩ | ⟨-, hOld⟩
  · rw [hNew, hSame]
  · rw [hOld]

/-- Who is swapped was swapped before, unless the thread begins a swap. -/
theorem swapping_before (hRole : s'.role = Function.update s.role t r)
    (hOther : ∀ inline id, r ≠ .swaps inline id) {id : ContainerId} (hNow : s'.Swapping id) :
    s.Swapping id := by
  obtain ⟨u, inline, hSwaps⟩ := hNow
  exact ⟨u, inline, role_before hRole (hOther inline id) hSwaps⟩

end Roles

/-- With the marks of the threads as they were, the list is right as it was. -/
theorem Marks.same (h : Marks s) (hMark : ∀ u, (s'.role u).mark = (s.role u).mark)
    (hMarks : s'.swapping_containers = s.swapping_containers) : Marks s' := by
  refine ⟨?_, ?_⟩
  · intro u id hMarked
    rw [hMarks]
    exact h.marked u id (hMark u ▸ hMarked)
  · intro u u' id hMarked hMarked'
    exact h.alone u u' id (hMark u ▸ hMarked) (hMark u' ▸ hMarked')

/-- A new mark is entered once. -/
theorem Marks.mark (h : Marks s) {t : ThreadId} {id : ContainerId}
    (hNew : id ∉ s.swapping_containers)
    (hRole : s'.role = Function.update s.role t (.marks id))
    (hMarks : s'.swapping_containers = id :: s.swapping_containers) : Marks s' := by
  refine ⟨?_, ?_⟩
  · intro u id' hMarked
    rw [hMarks]
    rcases role_cases hRole u with ⟨-, hThis⟩ | ⟨-, hOld⟩
    · rw [hThis] at hMarked
      cases hMarked
      exact List.mem_cons_self
    · exact List.mem_cons_of_mem id (h.marked u id' (hOld ▸ hMarked))
  · intro u u' id' hMarked hMarked'
    rcases role_cases hRole u with ⟨rfl, hThis⟩ | ⟨-, hOld⟩ <;>
      rcases role_cases hRole u' with ⟨rfl, hThis'⟩ | ⟨-, hOld'⟩
    · rfl
    · rw [hThis] at hMarked
      cases hMarked
      exact absurd (h.marked u' id (hOld' ▸ hMarked')) hNew
    · rw [hThis'] at hMarked'
      cases hMarked'
      exact absurd (h.marked u id (hOld ▸ hMarked)) hNew
    · exact h.alone u u' id' (hOld ▸ hMarked) (hOld' ▸ hMarked')

/-- A mark that ends is taken off the list. -/
theorem Marks.unmark (h : Marks s) {t : ThreadId} {id : ContainerId}
    (hUnmarks : s.role t = .unmarks id) (hRole : s'.role = Function.update s.role t .free)
    (hMarks : s'.swapping_containers = s.swapping_containers.filter (· ≠ id)) : Marks s' := by
  have hBefore (u : ThreadId) {id' : ContainerId} (hMarked : (s'.role u).mark = some id') :
      u ≠ t ∧ (s.role u).mark = some id' := by
    rcases role_cases hRole u with ⟨-, hThis⟩ | ⟨hu, hOld⟩
    · rw [hThis] at hMarked
      cases hMarked
    · exact ⟨hu, hOld ▸ hMarked⟩
  refine ⟨?_, ?_⟩
  · intro u id' hMarked
    obtain ⟨hu, hOld⟩ := hBefore u hMarked
    have hNe : id' ≠ id := by
      rintro rfl
      exact hu (h.alone u t id' hOld (hUnmarks ▸ rfl))
    rw [hMarks]
    exact List.mem_filter.mpr ⟨h.marked u id' hOld, decide_eq_true hNe⟩
  · intro u u' id' hMarked hMarked'
    exact h.alone u u' id' (hBefore u hMarked).2 (hBefore u' hMarked').2

/-- An idle container is nobody's. -/
theorem Holds.nobody (h : Holds s) {id : ContainerId} {c : Container}
    (hContainer : s.containers.find id = some c) (hIdle : c.pending_requests = 0)
    (t : ThreadId) (batch : Batch) : s.role t ≠ .holds batch id := by
  intro hHolds
  obtain ⟨c', hContainer', -, hPending⟩ := h.held t batch id hHolds
  rw [hContainer, Option.some.injEq] at hContainer'
  subst hContainer'
  have hPos := batch.size_pos
  omega

/-- What a batch holds stays bound to its function as long as nobody else writes to it. -/
theorem Holds.same (h : Holds s)
    (hHolds : ∀ u batch id, s'.role u = .holds batch id → s.role u = .holds batch id)
    (hFind : ∀ u batch id, s.role u = .holds batch id → s'.role u = .holds batch id →
      s'.containers.find id = s.containers.find id) : Holds s' := by
  refine ⟨?_, ?_⟩
  · intro u batch id hNow
    have hOld := hHolds u batch id hNow
    rw [hFind u batch id hOld hNow]
    exact h.held u batch id hOld
  · intro u u' b b' id hNow hNow'
    exact h.alone u u' b b' id (hHolds u b id hNow) (hHolds u' b' id hNow')

/-- A claim finds its container idle and bound, and raises its count to one. -/
theorem Holds.claim (h : Holds s) {t : ThreadId} {batch : Batch} {id : ContainerId} {c : Container}
    (hContainer : s.containers.find id = some c)
    (hBound : c.function_id = some batch.function_id)
    (hIdle : c.pending_requests = 0)
    (hRole : s'.role = Function.update s.role t (.holds batch id))
    (hFind : s'.containers.find = Function.update s.containers.find id
      (some { c with pending_requests := c.pending_requests + batch.size })) : Holds s' := by
  have hNobody := h.nobody hContainer hIdle
  refine ⟨?_, ?_⟩
  · intro u b id' hHolds
    rcases role_cases hRole u with ⟨-, hThis⟩ | ⟨-, hOld⟩
    · cases hThis.symm.trans hHolds
      refine ⟨{ c with pending_requests := c.pending_requests + batch.size }, ?_, hBound, ?_⟩
      · rw [hFind, Function.update_self]
      · rw [hIdle, Nat.zero_add]
    · rw [hOld] at hHolds
      have hNe : id' ≠ id := by
        rintro rfl
        exact hNobody u b hHolds
      rw [hFind, Function.update_of_ne hNe]
      exact h.held u b id' hHolds
  · intro u u' b b' id' hHolds hHolds'
    rcases role_cases hRole u with ⟨rfl, hThis⟩ | ⟨-, hOld⟩ <;>
      rcases role_cases hRole u' with ⟨rfl, hThis'⟩ | ⟨-, hOld'⟩
    · rfl
    · cases hThis.symm.trans hHolds
      exact absurd (hOld' ▸ hHolds') (hNobody u' b')
    · cases hThis'.symm.trans hHolds'
      exact absurd (hOld ▸ hHolds) (hNobody u b)
    · exact h.alone u u' b b' id' (hOld ▸ hHolds) (hOld' ▸ hHolds')

/-- What keeps status and function of the containers that no swap has, and asks for no new swap,
keeps the spare containers. -/
theorem State.Spare.keep {id : ContainerId} (h : s.Spare id)
    (hSwapping : ∀ id', s'.Swapping id' → s.Swapping id')
    (hKept : ∀ id' c, id' = id ∨ ¬s.Swapping id' → s.containers.find id' = some c →
      ∃ c', s'.containers.find id' = some c' ∧ c'.status = c.status ∧
        c'.function_id = c.function_id) : s'.Spare id := by
  obtain ⟨c, id', c', hContainer, hOther, hNe, hReady, hSame, hStays⟩ := h
  obtain ⟨d, hContainer', -, hFunction⟩ := hKept id c (.inl rfl) hContainer
  obtain ⟨d', hOther', hStatus', hFunction'⟩ := hKept id' c' (.inr hStays) hOther
  exact ⟨d, id', d', hContainer', hOther', hNe, hStatus'.trans hReady,
    hFunction'.trans (hSame.trans hFunction.symm), fun hSwap => hStays (hSwapping id' hSwap)⟩

/-- Nothing of what is shared has changed. -/
theorem Sound.quiet (h : Sound s) (hRole : s'.role = s.role)
    (hFind : ∀ id c, s.containers.find id = some c → s'.containers.find id = some c)
    (hMarks : s'.swapping_containers = s.swapping_containers) : Sound s' := by
  have hSame (u : ThreadId) : s'.role u = s.role u := congrFun hRole u
  refine ⟨h.marks.same (fun u => congrArg Role.mark (hSame u)) hMarks, ?_, ?_, ?_⟩
  · refine h.holds.same (fun u b id hNow => hSame u ▸ hNow) fun u b id hOld _ => ?_
    obtain ⟨c, hContainer, -⟩ := h.holds.held u b id hOld
    rw [hContainer, hFind id c hContainer]
  · intro u inline id hSwaps u' b hHolds
    exact h.clear u inline id (hSame u ▸ hSwaps) u' b (hSame u' ▸ hHolds)
  · intro u id hSwaps
    refine (h.spare u id (hSame u ▸ hSwaps)).keep ?_ ?_
    · rintro id' ⟨u', inline, hSwapping⟩
      exact ⟨u', inline, hSame u' ▸ hSwapping⟩
    · exact fun id' c _ hContainer => ⟨c, hFind id' c hContainer, rfl, rfl⟩

/-- A batch gets a container that no swap has marked and no batch holds. -/
theorem Sound.claim (h : Sound s) {t : ThreadId} {batch : Batch} {id : ContainerId} {c : Container}
    (hFree : s.role t = .free)
    (hUnmarked : id ∉ s.swapping_containers)
    (hContainer : s.containers.find id = some c)
    (hBound : c.function_id = some batch.function_id)
    (hIdle : c.pending_requests = 0)
    (hRole : s'.role = Function.update s.role t (.holds batch id))
    (hFind : s'.containers.find = Function.update s.containers.find id
      (some { c with pending_requests := c.pending_requests + batch.size }))
    (hMarks : s'.swapping_containers = s.swapping_containers) : Sound s' := by
  refine ⟨h.marks.same (mark_same hRole (hFree ▸ rfl)) hMarks,
    h.holds.claim hContainer hBound hIdle hRole hFind, ?_, ?_⟩
  · intro u inline id' hSwaps u' b hHolds
    have hBefore : s.role u = .swaps inline id' := role_before hRole nofun hSwaps
    rcases role_cases hRole u' with ⟨-, hThis⟩ | ⟨-, hOld⟩
    · cases hThis.symm.trans hHolds
      exact hUnmarked (h.marks.marked u id (hBefore ▸ rfl))
    · exact h.clear u inline id' hBefore u' b (hOld ▸ hHolds)
  · intro u id' hSwaps
    refine (h.spare u id' (role_before hRole nofun hSwaps)).keep
      (fun k hNow => swapping_before hRole nofun hNow) fun k d _ hFound => ?_
    rw [hFind]
    by_cases hk : k = id
    · subst hk
      rw [hContainer, Option.some.injEq] at hFound
      subst hFound
      exact ⟨{ c with pending_requests := c.pending_requests + batch.size },
        Function.update_self _ _ _, rfl, rfl⟩
    · exact ⟨d, (Function.update_of_ne hk _ _).trans hFound, rfl, rfl⟩

/-- A thread that comes to have or gives up no more than a mark leaves the containers alone. -/
theorem Sound.remark (h : Sound s) {t : ThreadId} {r : Role} (hMarks : Marks s')
    (hRole : s'.role = Function.update s.role t r)
    (hFind : s'.containers.find = s.containers.find)
    (hSwaps : ∀ inline id, r ≠ .swaps inline id) (hHolds : ∀ batch id, r ≠ .holds batch id) :
    Sound s' := by
  refine ⟨hMarks, ?_, ?_, ?_⟩
  · exact h.holds.same (fun u b id hNow => role_before hRole (hHolds b id) hNow)
      fun _ _ id _ _ => congrFun hFind id
  · intro u inline id hNow u' b hNow'
    exact h.clear u inline id (role_before hRole (hSwaps inline id) hNow) u' b
      (role_before hRole (hHolds b id) hNow')
  · intro u id hNow
    exact (h.spare u id (role_before hRole (hSwaps true id) hNow)).keep
      (fun k hThere => swapping_before hRole hSwaps hThere)
      fun k c _ hFound => ⟨c, hFind ▸ hFound, rfl, rfl⟩

/-- The container that a swap would take from another one is not its last spare. -/
theorem Sound.start (h : Sound s) {t : ThreadId} {inline : Bool} {id : ContainerId} {c : Container}
    (hMarked : s.role t = .marks id)
    (hContainer : s.containers.find id = some c)
    (hIdle : c.pending_requests = 0)
    (hSpare : inline = true ∨ s.Contended id → s.Spare id)
    (hRole : s'.role = Function.update s.role t (.swaps inline id))
    (hFind : s'.containers.find = s.containers.find)
    (hMarks : s'.swapping_containers = s.swapping_containers) : Sound s' := by
  have hBefore {k : ContainerId} (hNow : s'.Swapping k) : s.Swapping k ∨ k = id := by
    obtain ⟨u, i, hSwaps⟩ := hNow
    rcases role_cases hRole u with ⟨-, hThis⟩ | ⟨-, hOld⟩
    · cases hThis.symm.trans hSwaps
      exact .inr rfl
    · exact .inl ⟨u, i, hOld ▸ hSwaps⟩
  refine ⟨h.marks.same (mark_same hRole (hMarked ▸ rfl)) hMarks, ?_, ?_, ?_⟩
  · exact h.holds.same (fun u b id' hNow => role_before hRole nofun hNow)
      fun _ _ id' _ _ => congrFun hFind id'
  · intro u i id' hSwaps u' b hHolds
    have hHeld : s.role u' = .holds b id' := role_before hRole nofun hHolds
    rcases role_cases hRole u with ⟨-, hThis⟩ | ⟨-, hOld⟩
    · cases hThis.symm.trans hSwaps
      exact h.holds.nobody hContainer hIdle u' b hHeld
    · exact h.clear u i id' (hOld ▸ hSwaps) u' b hHeld
  · intro u id' hSwaps
    rcases role_cases hRole u with ⟨-, hThis⟩ | ⟨-, hOld⟩
    · cases hThis.symm.trans hSwaps
      obtain ⟨d, k, d', hFound, hFound', hNe, hReady, hSame, hStays⟩ := hSpare (.inl rfl)
      refine ⟨d, k, d', hFind ▸ hFound, hFind ▸ hFound', hNe, hReady, hSame, fun hNow => ?_⟩
      exact (hBefore hNow).elim hStays hNe
    · rw [hOld] at hSwaps
      obtain ⟨d, k, d', hFound, hFound', hNe, hReady, hSame, hStays⟩ := h.spare u id' hSwaps
      by_cases hk : k = id
      · -- the spare container is taken: its own spare is one for both
        subst hk
        have hContended : s.Contended k := by
          refine ⟨u, id', hSwaps, ?_⟩
          rw [hFound, hFound', Option.map_some, Option.map_some, hSame]
        obtain ⟨e, m, e', hAt, hAt', hNe', hReady', hSame', hStays'⟩ := hSpare (.inr hContended)
        rw [hFound', Option.some.injEq] at hAt
        subst hAt
        have hOther : m ≠ id' := by
          rintro rfl
          exact hStays' ⟨u, true, hSwaps⟩
        refine ⟨d, m, e', hFind ▸ hFound, hFind ▸ hAt', hOther, hReady', hSame'.trans hSame,
          fun hNow => ?_⟩
        exact (hBefore hNow).elim hStays' hNe'
      · refine ⟨d, k, d', hFind ▸ hFound, hFind ▸ hFound', hNe, hReady, hSame, fun hNow => ?_⟩
        exact (hBefore hNow).elim hStays hk

/-- The swap ends in one change of the container, which it has alone. -/
theorem Sound.land (h : Sound s) {t : ThreadId} {inline : Bool} {id : ContainerId}
    {c' : Option Container}
    (hSwaps : s.role t = .swaps inline id)
    (hRole : s'.role = Function.update s.role t (.unmarks id))
    (hFind : s'.containers.find = Function.update s.containers.find id c')
    (hMarks : s'.swapping_containers = s.swapping_containers) : Sound s' := by
  have hKept {k : ContainerId} (hk : k ≠ id) : s'.containers.find k = s.containers.find k := by
    rw [hFind, Function.update_of_ne hk]
  refine ⟨h.marks.same (mark_same hRole (hSwaps ▸ rfl)) hMarks, ?_, ?_, ?_⟩
  · refine h.holds.same (fun u b id' hNow => role_before hRole nofun hNow) fun u b id' hOld _ => ?_
    refine hKept ?_
    rintro rfl
    exact h.clear t inline id' hSwaps u b hOld
  · intro u i id' hSwaps' u' b hHolds
    exact h.clear u i id' (role_before hRole nofun hSwaps') u' b (role_before hRole nofun hHolds)
  · intro u id' hSwaps'
    have hOther : id' ≠ id := by
      rintro rfl
      rcases role_cases hRole u with ⟨-, hThis⟩ | ⟨hu, hOld⟩
      · cases hThis.symm.trans hSwaps'
      · exact hu (h.marks.alone u t id' (hOld ▸ hSwaps' ▸ rfl) (hSwaps ▸ rfl))
    refine (h.spare u id' (role_before hRole nofun hSwaps')).keep
      (fun k hNow => swapping_before hRole nofun hNow) fun k d hk hFound => ?_
    have hNe : k ≠ id := by
      rcases hk with rfl | hStays
      · exact hOther
      · rintro rfl
        exact hStays ⟨t, inline, hSwaps⟩
    exact ⟨d, (hKept hNe).trans hFound, rfl, rfl⟩

/-- The batch gives its container back with nothing pending. -/
theorem Sound.release (h : Sound s) {t : ThreadId} {batch : Batch} {id : ContainerId}
    (hHolds : s.role t = .holds batch id)
    (hRole : s'.role = Function.update s.role t .free)
    (hFind : s'.containers.find = Function.update s.containers.find id
      ((s.containers.find id).map fun c =>
        { c with pending_requests := c.pending_requests - batch.size }))
    (hMarks : s'.swapping_containers = s.swapping_containers) : Sound s' := by
  refine ⟨h.marks.same (mark_same hRole (hHolds ▸ rfl)) hMarks, ?_, ?_, ?_⟩
  · refine h.holds.same (fun u b id' hNow => role_before hRole nofun hNow)
      fun u b id' hOld hNow => ?_
    have hNe : id' ≠ id := by
      rintro rfl
      rcases role_cases hRole u with ⟨-, hThis⟩ | ⟨hu, -⟩
      · cases hThis.symm.trans hNow
      · exact hu (h.holds.alone u t b batch id' hOld hHolds)
    rw [hFind, Function.update_of_ne hNe]
  · intro u inline id' hSwaps u' b hHolds'
    exact h.clear u inline id' (role_before hRole nofun hSwaps) u' b
      (role_before hRole nofun hHolds')
  · intro u id' hSwaps
    refine (h.spare u id' (role_before hRole nofun hSwaps)).keep
      (fun k hNow => swapping_before hRole nofun hNow) fun k d _ hFound => ?_
    rw [hFind]
    by_cases hk : k = id
    · subst hk
      rw [Function.update_self, hFound]
      exact ⟨_, rfl, rfl, rfl⟩
    · exact ⟨d, (Function.update_of_ne hk _ _).trans hFound, rfl, rfl⟩

/-- Every effect keeps what is known. -/
theorem Sound.effect (h : Sound s) (hEffect : Effect s s') : Sound s' := by
  cases hEffect with
  | quiet hRole hFind hMarks =>
      exact h.quiet hRole (fun id c hContainer => hFind ▸ hContainer) hMarks
  | claim hFree hUnmarked hContainer hBound hIdle hRole hFind hMarks =>
      exact h.claim hFree hUnmarked hContainer hBound hIdle hRole hFind hMarks
  | mark _ hNew hRole hFind hMarks =>
      exact h.remark (h.marks.mark hNew hRole hMarks) hRole hFind nofun nofun
  | start hMarked hContainer hIdle hSpare hRole hFind hMarks =>
      exact h.start hMarked hContainer hIdle hSpare hRole hFind hMarks
  | land hSwaps hRole hFind hMarks => exact h.land hSwaps hRole hFind hMarks
  | unmark hUnmarks hRole hFind hMarks =>
      exact h.remark (h.marks.unmark hUnmarks hRole hMarks) hRole hFind nofun nofun
  | release hHolds hRole hFind hMarks => exact h.release hHolds hRole hFind hMarks
  | register hNew hRole hFind hMarks =>
      refine h.quiet hRole (fun id c hContainer => ?_) hMarks
      rw [hFind, Function.update_of_ne ?_, hContainer]
      rintro rfl
      cases hNew.symm.trans hContainer

/-- It is known in every run whose claims and swaps find what their checks found. -/
theorem sound_of_reach (run : (claiming functions).Reach Fresh s) : Sound s := by
  refine run.invariant Sound ?_ fun s l s' h hFresh hStep => h.effect (effect_of_step hFresh hStep)
  rintro s ⟨-, -, hIdle, -⟩
  have hFree (t : ThreadId) : s.role t = .free := role_of_pc (hIdle t)
  refine ⟨⟨?_, ?_⟩, ⟨?_, ?_⟩, ?_, ?_⟩
  · intro t id hMark
    rw [hFree] at hMark
    cases hMark
  · intro t t' id hMark
    rw [hFree] at hMark
    cases hMark
  · intro t batch id hHolds
    cases (hFree t).symm.trans hHolds
  · intro t t' batch batch' id hHolds
    cases (hFree t).symm.trans hHolds
  · intro t inline id hSwaps
    cases (hFree t).symm.trans hSwaps
  · intro t id hSwaps
    cases (hFree t).symm.trans hSwaps

/-- A container that was returned for a batch is bound to its function and no other batch has it,
until the request is done. -/
structure Exclusive (s : State) : Prop where
  bound : ∀ t batch id, s.pc t = .executing batch id →
    ∃ c, s.containers.find id = some c ∧ c.function_id = some batch.function_id
  alone : ∀ t t' batch batch' id, s.pc t = .executing batch id → s.pc t' = .executing batch' id →
    t = t'

/-- A step starts no swap of a container that was returned for a batch, and no inline swap takes the
last ready container of a function. -/
structure Undisturbing (s : State) (l : Label) (s' : State) : Prop where
  no_swap : ∀ t swap, l = .swap_adapter t → s.pc t = .marked swap →
    ∀ t' batch, s.pc t' ≠ .executing batch swap.container_id
  serves : ∀ t swap, l = .rebind t → s.pc t = .swapped swap → swap.requester.inline = true →
    ∀ function_id, s.Serves function_id → s'.Serves function_id

/-- So no container is executing two batches, or one during a swap. -/
theorem Sound.exclusive (h : Sound s) : Exclusive s :=
  ⟨fun t batch id hPc => by
      obtain ⟨c, hContainer, hBound, -⟩ := h.holds.held t batch id (role_of_pc hPc)
      exact ⟨c, hContainer, hBound⟩,
    fun t t' batch batch' id hPc hPc' =>
      h.holds.alone t t' batch batch' id (role_of_pc hPc) (role_of_pc hPc')⟩

/-- And no step disturbs a container that another thread has. -/
theorem Sound.undisturbing (h : Sound s) (hFresh : Fresh s l)
    (hStep : step functions s l = some s') : Undisturbing s l s' := by
  refine ⟨?_, ?_⟩
  · rintro t swap rfl hPc t' batch hPc'
    obtain ⟨⟨c, hContainer, hIdle⟩, -⟩ := hFresh swap hPc
    exact h.holds.nobody hContainer hIdle t' batch (role_of_pc hPc')
  · rintro t swap rfl hPc hInline function_id ⟨id, c, hContainer, hReady, hServes⟩
    have hSwaps : s.role t = .swaps true swap.container_id := hInline ▸ role_of_pc hPc
    obtain ⟨d, id', d', hHere, hOther, hNe, hReady', hSame, -⟩ := h.spare t _ hSwaps
    have hKept {k : ContainerId} (hk : k ≠ swap.container_id) :
        s'.containers.find k = s.containers.find k := by
      simp only [step, hPc, Option.some.injEq] at hStep
      subst hStep
      exact Function.update_of_ne hk _ _
    by_cases hid : id = swap.container_id
    · subst hid
      rw [hContainer, Option.some.injEq] at hHere
      subst hHere
      exact ⟨id', d', (hKept hNe).trans hOther, hReady', hSame.trans hServes⟩
    · exact ⟨id, c, (hKept hid).trans hContainer, hReady, hServes⟩

/-- In a run in which what a thread has checked holds when it acts on it, a container that was
returned for a batch is that batch's alone, and no inline swap takes the last of a function. -/
theorem container_exclusivity (run : (claiming functions).Reach Fresh s) :
    Exclusive s ∧ ∀ l s', Fresh s l → (claiming functions).step s l = some s' →
      Undisturbing s l s' :=
  ⟨(sound_of_reach run).exclusive,
    fun _ _ hFresh hStep => (sound_of_reach run).undisturbing hFresh hStep⟩

end Steps

/-- Two functions and two containers, both for the second function. -/
def two_functions : List FunctionProfile :=
  [{ function_id := "f", adapter_id := some "adapter/f" },
    { function_id := "g", adapter_id := some "adapter/g" }]

/-- Two idle containers that are bound to `g`. -/
def two_containers : State where
  containers := ((∅ : Data.OrderedDict ContainerId Container).set "c1"
    { function_id := some "g", lora_id := some "adapter/g" }).set "c2"
    { function_id := some "g", lora_id := some "adapter/g" }

/-- A batch of one request. -/
def one_request (function_id : FunctionId) : Batch where
  function_id := function_id
  size := 1
  size_pos := Nat.one_pos

/-- That is how a controller may start. -/
theorem initial_two_containers : Initial two_containers := by
  refine ⟨rfl, rfl, fun _ => rfl, ?_⟩
  intro id c hFind
  simp only [two_containers, Data.OrderedDict.find_set, Data.OrderedDict.find_empty] at hFind
  split at hFind
  · cases hFind
    rfl
  · split at hFind
    · cases hFind
      rfl
    · cases hFind

/-- The swap that thread `t` has chosen, but for the end of the mark. -/
def inline_swap (t : ThreadId) : List Label :=
  [.mark t, .swap_adapter t, .answer t true, .rebind t]

/-- How thread `t` comes to choose `id` for an inline swap. -/
def inline_choice (t : ThreadId) (batch : Batch) (id : ContainerId) : List Label :=
  [.dispatch t batch, .select t, .pick_best t none, .count t, .copy t, .pick t (some id)]

/-- While one thread has a container swapped for `f`, another claims the one that is left to `g`. -/
theorem container_exclusivity_two : ∃ s,
    s.pc 0 = .executing (one_request "f") "c1" ∧ s.pc 1 = .executing (one_request "g") "c2" ∧
    Exclusive s ∧ ∀ l s', Fresh s l → (claiming two_functions).step s l = some s' →
      Undisturbing s l s' := by
  have hStart : (claiming two_functions).Reach Fresh two_containers := .start initial_two_containers
  have hMarked := Machine.System.reach_of_replay
    (inline_choice 0 (one_request "f") "c1" ++ [.mark 0])
    (by simp [inline_choice, Fresh]) hStart rfl
  have hSwapping := hMarked.next (l := Label.swap_adapter 0) (by
    intro swap hPc
    cases hPc
    refine ⟨⟨_, rfl, rfl⟩, fun _ => ⟨_, "c2", _, rfl, rfl, by decide, rfl, rfl, ?_⟩⟩
    rintro ⟨t, inline, hRole⟩
    cases t with
    | zero => cases hRole
    | succ t => cases hRole) rfl
  have hSelected := Machine.System.reach_of_replay
    [.dispatch 1 (one_request "g"), .select 1, .pick_best 1 (some "c2"), .answer 0 true]
    (by simp [Fresh]) hSwapping rfl
  have hClaimed := hSelected.next (l := Label.claim 1) (by
    intro batch id hPc
    cases hPc
    exact ⟨by decide, _, rfl, rfl, rfl⟩) rfl
  have hReturned := Machine.System.reach_of_replay
    [.rebind 0, .unmark 0] (by simp [Fresh]) hClaimed rfl
  have hExecuting := hReturned.next (l := Label.claim_swapped 0) (by
    intro batch id hPc
    cases hPc
    exact ⟨by decide, _, rfl, rfl, rfl⟩) rfl
  exact ⟨_, rfl, rfl, container_exclusivity hExecuting⟩

/-- Between the end of its inline swap and its claim a thread has no hold of the container, so
another thread for the same function selects it. -/
theorem claimed_twice : ∃ s, (claiming two_functions).Reachable s ∧
    s.pc 0 = .executing (one_request "f") "c1" ∧ s.pc 1 = .executing (one_request "f") "c1" := by
  have hRun : ((claiming two_functions).replay two_containers
      (inline_choice 0 (one_request "f") "c1" ++ inline_swap 0 ++
        [.unmark 0, .dispatch 1 (one_request "f"), .select 1, .pick_best 1 (some "c1"), .claim 1,
          .claim_swapped 0])).map (fun s => (s.pc 0, s.pc 1)) =
      some (.executing (one_request "f") "c1", .executing (one_request "f") "c1") := by
    rfl
  obtain ⟨s, hReplay, hPcs⟩ := Option.map_eq_some_iff.mp hRun
  have run := Machine.System.reachable_of_replay (M := claiming two_functions)
    (.start initial_two_containers) hReplay
  exact ⟨s, run, congrArg Prod.fst hPcs, congrArg Prod.snd hPcs⟩

/-- Two threads that have counted the containers of a function before either swap each take one of
them. -/
theorem last_container_taken : ∃ s s', (claiming two_functions).Reachable s ∧
    (claiming two_functions).step s (.rebind 1) = some s' ∧
    (∃ swap, s.pc 1 = .swapped swap ∧ swap.requester.inline = true) ∧
    s.Serves "g" ∧ ¬s'.Serves "g" := by
  let swap : Swap := ⟨.batch (one_request "f"), "adapter/f", "c2"⟩
  have hRun : ((claiming two_functions).replay two_containers
      (inline_choice 0 (one_request "f") "c1" ++ inline_choice 1 (one_request "f") "c2" ++
        inline_swap 0 ++ [.mark 1, .swap_adapter 1, .answer 1 true])).map
        (fun s => (s.pc 1, s.containers.keys, (s.containers.find "c1").map (·.function_id),
          s.containers.find "c2")) =
      some (.swapped swap, ["c1", "c2"], some (some "f"),
        some { function_id := some "g", lora_id := some "adapter/g" }) := by
    rfl
  obtain ⟨s, hReplay, hFacts⟩ := Option.map_eq_some_iff.mp hRun
  simp only [Prod.mk.injEq] at hFacts
  obtain ⟨hPc, hKeys, hFirst, hSecond⟩ := hFacts
  have run := Machine.System.reachable_of_replay (M := claiming two_functions)
    (.start initial_two_containers) hReplay
  refine ⟨s, (s.modify "c2" fun c => c.swapped "f" "adapter/f").goto 1 (.unmarking swap true), run,
    ?_, ⟨swap, hPc, rfl⟩, ⟨"c2", _, hSecond, rfl, rfl⟩, ?_⟩
  · simp only [claiming, step, hPc]
    rfl
  · rintro ⟨id, c, hFind, -, hServes⟩
    have hMem : id ∈ s.containers.keys :=
      (Data.OrderedDict.mem_keys (s.containers.modify "c2" fun c => c.swapped "f" "adapter/f")
        id).mpr (hFind ▸ rfl)
    simp only [State.goto, State.modify, Data.OrderedDict.find_modify] at hFind
    rw [hKeys, List.mem_pair] at hMem
    rcases hMem with rfl | rfl
    · rw [if_neg (by decide)] at hFind
      rw [hFind, Option.map_some, hServes] at hFirst
      exact absurd hFirst (by decide)
    · rw [if_pos rfl, hSecond, Option.map_some, Option.some.injEq] at hFind
      subst hFind
      exact absurd hServes (by decide)

end Serverless.Claiming
