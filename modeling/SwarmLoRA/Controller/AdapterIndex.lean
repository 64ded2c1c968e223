import SwarmLoRA.Controller.Loaded
import SwarmLoRA.Controller.Rounds

namespace Controller

namespace AdapterRegistry

inductive Call where
  | register (worker_id : WorkerId) (adapter_id : AdapterId)
  | unregister (worker_id : WorkerId)
  deriving DecidableEq

def call (r : AdapterRegistry) : Call → AdapterRegistry
  | .register worker_id adapter_id => r.register worker_id adapter_id
  | .unregister worker_id => r.unregister worker_id

/-- The registry after the calls, each of which runs under the lock without a pause. -/
def called (calls : List Call) : AdapterRegistry :=
  calls.foldl call {}

def get_workers_for_adapter (r : AdapterRegistry) (adapter_id : AdapterId) : Finset WorkerId :=
  r.adapter_to_workers adapter_id

/-- The two maps say the same: a worker is in the set of an adapter exactly if the adapter is the
one it is registered with, so that it is in one set at most. -/
structure Indexed (r : AdapterRegistry) : Prop where
  contains : ∀ a wid, wid ∈ r.adapter_to_workers a ↔ r.worker_to_adapter wid = some a
  workers : ∀ a, (r.get_workers_for_adapter a : Set WorkerId) =
    {wid | r.worker_to_adapter wid = some a}
  single : ∀ a b wid, wid ∈ r.adapter_to_workers a → wid ∈ r.adapter_to_workers b → a = b

/-- The adapter that the worker is registered with has a name, or the call registers the worker
with the same adapter again. -/
def Releases (r : AdapterRegistry) : Call → Prop
  | .register wid a => ∀ old ∈ r.worker_to_adapter wid, named old ∨ old = a
  | .unregister wid => ∀ old ∈ r.worker_to_adapter wid, named old

instance (r : AdapterRegistry) : DecidablePred r.Releases
  | .register wid _ => inferInstanceAs (Decidable (∀ old ∈ r.worker_to_adapter wid, _))
  | .unregister wid => inferInstanceAs (Decidable (∀ old ∈ r.worker_to_adapter wid, _))

variable {r : AdapterRegistry} {a old : AdapterId} {wid w : WorkerId} {c : Call} {calls : List Call}

theorem indexed_iff :
    r.Indexed ↔ ∀ a wid, wid ∈ r.adapter_to_workers a ↔ r.worker_to_adapter wid = some a := by
  refine ⟨Indexed.contains, fun h => ⟨h, ?_, ?_⟩⟩
  · intro a
    ext wid
    exact h a wid
  · intro a b wid ha hb
    exact Option.some.inj (((h a wid).mp ha).symm.trans ((h b wid).mp hb))

/-- Only the old adapter forgets the worker, and only if it has a name. -/
theorem mem_discard_iff : w ∈ (r.discard wid (some old)).adapter_to_workers a ↔
    w ∈ r.adapter_to_workers a ∧ ¬ (w = wid ∧ a = old ∧ named old) := by
  constructor
  · intro hMem
    refine ⟨mem_of_mem_discard hMem, ?_⟩
    rintro ⟨rfl, rfl, hNamed⟩
    cases a with
    | none => cases hNamed
    | some name =>
        have hName : name ≠ "" := of_decide_eq_true hNamed
        simp [discard, hName] at hMem
  · rintro ⟨hMem, hNot⟩
    unfold discard
    split
    next name hOld =>
      obtain rfl := Option.some.inj hOld
      split
      next => exact hMem
      next hName =>
        by_cases ha : a = some name
        · subst ha
          have hNamed : named (some name) := decide_eq_true hName
          have hw : w ≠ wid := fun hw => hNot ⟨hw, rfl, hNamed⟩
          simpa [hw] using hMem
        · simpa [ha] using hMem
    next => exact hMem

/-- What the old adapter of a worker knows of it once the worker has been discarded. -/
theorem mem_discarded_iff (h : r.Indexed) :
    w ∈ (r.discard wid (r.worker_to_adapter wid)).adapter_to_workers a ↔
      r.worker_to_adapter w = some a ∧ (w = wid → ¬ named a) := by
  cases hOld : r.worker_to_adapter wid with
  | none =>
      have hSame : r.discard wid none = r := rfl
      rw [hSame, h.contains]
      refine ⟨fun hAdapter => ⟨hAdapter, ?_⟩, And.left⟩
      rintro rfl
      rw [hOld] at hAdapter
      cases hAdapter
  | some old =>
      rw [mem_discard_iff, h.contains]
      refine and_congr_right fun hAdapter => ⟨fun hNot hw hNamed => ?_, fun hNot hAll => ?_⟩
      · subst hw
        obtain rfl := Option.some.inj (hOld.symm.trans hAdapter)
        exact hNot ⟨rfl, rfl, hNamed⟩
      · obtain ⟨hw, rfl, hNamed⟩ := hAll
        exact hNot hw hNamed

theorem indexed_register_iff (h : r.Indexed) :
    (r.register wid a).Indexed ↔ r.Releases (.register wid a) := by
  have hMem (b : AdapterId) (w : WorkerId) : w ∈ (r.register wid a).adapter_to_workers b ↔
      (b = a ∧ w = wid) ∨ (r.worker_to_adapter w = some b ∧ (w = wid → ¬ named b)) := by
    rw [← mem_discarded_iff h]
    by_cases hb : b = a
    · subst hb
      simp [register]
    · simp [register, hb]
  have hAdapter (w : WorkerId) : (r.register wid a).worker_to_adapter w =
      if w = wid then some a else r.worker_to_adapter w := by
    simp [register, worker_to_adapter_discard, Function.update_apply]
  rw [indexed_iff]
  constructor
  · intro hIndexed old hOld
    by_contra hNot
    obtain ⟨hNamed, hOther⟩ := not_or.mp hNot
    have hStale := (hIndexed old wid).mp ((hMem old wid).mpr (.inr ⟨hOld, fun _ => hNamed⟩))
    rw [hAdapter, if_pos rfl] at hStale
    exact hOther (Option.some.inj hStale).symm
  · intro hReleases b w
    rw [hMem, hAdapter]
    by_cases hw : w = wid
    · subst hw
      rw [if_pos rfl]
      constructor
      · rintro (⟨rfl, -⟩ | ⟨hOld, hNamed⟩)
        · rfl
        · exact congrArg some ((hReleases b hOld).resolve_left (hNamed rfl)).symm
      · intro hSame
        exact .inl ⟨(Option.some.inj hSame).symm, rfl⟩
    · simp [hw]

theorem indexed_unregister_iff (h : r.Indexed) :
    (r.unregister wid).Indexed ↔ r.Releases (.unregister wid) := by
  have hMem (b : AdapterId) (w : WorkerId) : w ∈ (r.unregister wid).adapter_to_workers b ↔
      r.worker_to_adapter w = some b ∧ (w = wid → ¬ named b) := mem_discarded_iff h
  have hAdapter (w : WorkerId) : (r.unregister wid).worker_to_adapter w =
      if w = wid then none else r.worker_to_adapter w := by
    simp [unregister, Function.update_apply]
  rw [indexed_iff]
  constructor
  · intro hIndexed old hOld
    by_contra hNamed
    have hStale := (hIndexed old wid).mp ((hMem old wid).mpr ⟨hOld, fun _ => hNamed⟩)
    rw [hAdapter, if_pos rfl] at hStale
    cases hStale
  · intro hReleases b w
    rw [hMem, hAdapter]
    by_cases hw : w = wid
    · subst hw
      rw [if_pos rfl]
      refine iff_of_false ?_ (fun hNone => by cases hNone)
      rintro ⟨hOld, hNamed⟩
      exact hNamed rfl (hReleases b hOld)
    · simp [hw]

theorem indexed_call_iff (h : r.Indexed) : (r.call c).Indexed ↔ r.Releases c := by
  cases c with
  | register wid a => exact indexed_register_iff h
  | unregister wid => exact indexed_unregister_iff h

theorem called_append (calls : List Call) (c : Call) :
    called (calls ++ [c]) = (called calls).call c := by
  simp [called]

theorem indexed_empty : (called []).Indexed :=
  indexed_iff.mpr fun a wid => by simp [called]

/-- The two maps agree at every point of a sequence of calls exactly if no call takes a worker away
from an adapter that has no name. Such a worker stays in the set of that adapter. -/
theorem indexed_along_iff (calls : List Call) :
    (∀ past, past <+: calls → (called past).Indexed) ↔
      ∀ past c, past ++ [c] <+: calls → (called past).Releases c := by
  constructor
  · intro hIndexed past c hPast
    have hBefore := hIndexed past ((List.prefix_append past [c]).trans hPast)
    exact (indexed_call_iff hBefore).mp (called_append past c ▸ hIndexed _ hPast)
  · intro hReleases past
    induction past using List.reverseRecOn with
    | nil => exact fun _ => indexed_empty
    | append_singleton past c ih =>
        intro hPast
        have hBefore := ih ((List.prefix_append past [c]).trans hPast)
        rw [called_append]
        exact (indexed_call_iff hBefore).mpr (hReleases past c hPast)

/-- A worker that is started with no default adapter and then swapped stays in the set of no
adapter. -/
theorem stale_without_adapter :
    ¬ (called [.register 0 none, .register 0 (some "a")]).Indexed := by
  intro h
  have hStale := (h.contains none 0).mp (by decide)
  exact absurd hStale (by decide)

end AdapterRegistry

/-- An effect of the controller is one call on the registry, or none. -/
theorem registry_of_effect {cfg : Config} {s₀ : State} {l : Label} {x y : Held}
    (hEffect : Effect cfg s₀ l x y) :
    y.1.registry = x.1.registry ∨ ∃ c, y.1.registry = x.1.registry.call c := by
  cases hEffect with
  | register => exact .inr ⟨.register _ _, rfl⟩
  | unregister => exact .inr ⟨.unregister _, rfl⟩
  | _ => exact .inl rfl

/-- The registry of a controller comes from the calls that it has made. -/
theorem registry_of_reach {cfg : Config} {s : State} {guard : State → Label → Prop}
    (run : (machine cfg).Reach guard s) : ∃ calls, s.registry = AdapterRegistry.called calls := by
  refine run.invariant_of_effects (madeOf_effects guard)
    (fun x => ∃ calls, x.1.registry = AdapterRegistry.called calls) ?_ ?_
  · exact fun s hInitial => ⟨[], hInitial.registry⟩
  · rintro s l x y - - - ⟨calls, hCalls⟩ hEffect
    obtain hSame | ⟨c, hCall⟩ := registry_of_effect hEffect
    · exact ⟨calls, hSame.trans hCalls⟩
    · refine ⟨calls ++ [c], ?_⟩
      rw [hCall, hCalls, AdapterRegistry.called_append]

end Controller
