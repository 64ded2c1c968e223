import Mathlib.Logic.Relation

/-! Labelled state machines with an executable step function, the states that runs reach when
every step meets a guard, and the rules that carry a property of one step over to every run. -/
namespace Machine

/-- A machine in which several parties move. A label says which party moves and
how its choices fall, and `step` is `none` where that move is not enabled. -/
structure System (State Label : Type) where
  initial : State → Prop
  step : State → Label → Option State

namespace System

variable {State Label : Type} {M : System State Label}
  {guard guard' : State → Label → Prop}

/-- The states at the end of a run whose steps all meet `guard`. The guard reads
the state before the step and the label, never the state after it. -/
inductive Reach (M : System State Label) (guard : State → Label → Prop) : State → Prop where
  | start {s : State} (hInitial : M.initial s) : Reach M guard s
  | next {s s' : State} {l : Label} (prior : Reach M guard s) (hGuard : guard s l)
      (hStep : M.step s l = some s') : Reach M guard s'

/-- The states at the end of any run at all. -/
abbrev Reachable (M : System State Label) : State → Prop :=
  M.Reach fun _ _ => True

/-- The states that guarded steps lead to from a state. -/
abbrev Steps (M : System State Label) (guard : State → Label → Prop) : State → State → Prop :=
  Relation.ReflTransGen fun s s' => ∃ l, guard s l ∧ M.step s l = some s'

theorem Reach.steps {s s' : State} (run : M.Reach guard s) (more : M.Steps guard s s') :
    M.Reach guard s' := by
  induction more with
  | refl => exact run
  | tail _ hLast ih =>
      obtain ⟨l, hGuard, hStep⟩ := hLast
      exact .next ih hGuard hStep

/-- A property of the initial states that every guarded step preserves holds at
the end of every guarded run. -/
theorem Reach.invariant (I : State → Prop)
    (hInit : ∀ s, M.initial s → I s)
    (hStep : ∀ s l s', I s → guard s l → M.step s l = some s' → I s')
    {s : State} (run : M.Reach guard s) : I s := by
  induction run with
  | start hInitial => exact hInit _ hInitial
  | next prior hGuard hLast ih => exact hStep _ _ _ ih hGuard hLast

/-- The invariant rule relative to what is already known of the run so far. -/
theorem Reach.invariant_of_reach (I : State → Prop)
    (hInit : ∀ s, M.initial s → I s)
    (hStep : ∀ s l s', M.Reach guard s → I s → guard s l → M.step s l = some s' → I s')
    {s : State} (run : M.Reach guard s) : I s := by
  induction run with
  | start hInitial => exact hInit _ hInitial
  | next prior hGuard hLast ih => exact hStep _ _ _ prior ih hGuard hLast

/-- Steps that meet one guard in the states that its runs reach meet another, so
what is proved under the second holds under the first. -/
theorem Reach.transfer
    (hGuard : ∀ s l s', M.Reach guard' s → guard s l → M.step s l = some s' → guard' s l)
    {s : State} (run : M.Reach guard s) : M.Reach guard' s := by
  induction run with
  | start hInitial => exact .start hInitial
  | next prior hMeets hLast ih => exact .next ih (hGuard _ _ _ ih hMeets hLast) hLast

/-- A machine whose every step another machine can follow, by any number of steps of its own, has
its runs followed. -/
theorem Reach.simulated {State' Label' : Type} {N : System State' Label'} (R : State → State' → Prop)
    (hInit : ∀ s, M.initial s → ∃ t, N.initial t ∧ R s t)
    (hStep : ∀ s l s' t, R s t → N.Reachable t → guard s l → M.step s l = some s' →
      ∃ t', N.Steps (fun _ _ => True) t t' ∧ R s' t')
    {s : State} (run : M.Reach guard s) : ∃ t, N.Reachable t ∧ R s t := by
  induction run with
  | start hInitial =>
      obtain ⟨t, hStart, hRelated⟩ := hInit _ hInitial
      exact ⟨t, .start hStart, hRelated⟩
  | next prior hGuard hLast ih =>
      obtain ⟨t, run, hRelated⟩ := ih
      obtain ⟨t', hSteps, hRelated'⟩ := hStep _ _ _ t hRelated run hGuard hLast
      exact ⟨t', run.steps hSteps, hRelated'⟩

/-- Replay a schedule; `none` as soon as a label is not enabled. -/
def replay (M : System State Label) : State → List Label → Option State
  | s, [] => some s
  | s, l :: rest => (M.step s l).bind fun s' => M.replay s' rest

/-- Replay a schedule and also check the guard before every step. -/
def replayUnder (M : System State Label) (guard : State → Label → Prop)
    [∀ s l, Decidable (guard s l)] : State → List Label → Option State
  | s, [] => some s
  | s, l :: rest =>
      if guard s l then (M.step s l).bind fun s' => M.replayUnder guard s' rest else none

theorem reach_of_replayUnder [∀ s l, Decidable (guard s l)] {schedule : List Label}
    {s s' : State} (run : M.Reach guard s)
    (hReplay : M.replayUnder guard s schedule = some s') : M.Reach guard s' := by
  induction schedule generalizing s with
  | nil =>
      simp only [replayUnder, Option.some.injEq] at hReplay
      exact hReplay ▸ run
  | cons l rest ih =>
      simp only [replayUnder, Option.ite_none_right_eq_some, Option.bind_eq_some_iff] at hReplay
      obtain ⟨hGuard, middle, hStep, hRest⟩ := hReplay
      exact ih (.next run hGuard hStep) hRest

/-- Labels that the guard lets through everywhere need no check. -/
theorem reach_of_replay (schedule : List Label) (hFree : ∀ l ∈ schedule, ∀ s, guard s l)
    {s s' : State} (run : M.Reach guard s) (hReplay : M.replay s schedule = some s') :
    M.Reach guard s' := by
  induction schedule generalizing s with
  | nil =>
      simp only [replay, Option.some.injEq] at hReplay
      exact hReplay ▸ run
  | cons l rest ih =>
      simp only [replay, Option.bind_eq_some_iff] at hReplay
      obtain ⟨middle, hStep, hRest⟩ := hReplay
      have hRestFree : ∀ l ∈ rest, ∀ s, guard s l := fun l hMem =>
        hFree l (List.mem_cons_of_mem _ hMem)
      exact ih hRestFree (.next run (hFree l List.mem_cons_self s) hStep) hRest

theorem reachable_of_replay {schedule : List Label} {s s' : State} (run : M.Reachable s)
    (hReplay : M.replay s schedule = some s') : M.Reachable s' :=
  reach_of_replay _ (fun _ _ _ => trivial) run hReplay

end System

end Machine
