import SwarmLoRA.Controller.Queue
import SwarmLoRA.Controller.Spawning
import SwarmLoRA.Machine.Backing

namespace Controller

open Machine State

namespace State

/-- The adapters of the entries whose requests have no worker yet. -/
def unresolved (s : State) (queue : List PendingRequest) : List AdapterId :=
  (queue.filter fun pr => s.isPending pr.future).map (·.adapter_id)

/-- What the pruning does to the requests that wait. -/
def prune_events (expired : FutureId → Bool) : State → List PendingRequest → List (Event AdapterId)
  | _, [] => []
  | s, pr :: rest =>
      if !s.isPending pr.future || expired pr.future then
        (if s.isPending pr.future then [.withdrawn pr.adapter_id] else []) ++
          prune_events expired (s.cancel pr.future) rest
      else []

/-- What the look at one entry does. A request that gets a worker, or a swap, waits no more. -/
def look_events (cfg : Config) (s : State) (pr : PendingRequest) (expired : Bool)
    (best_wid : WorkerId) : List (Event AdapterId) :=
  if !s.isPending pr.future then []
  else if expired then [.withdrawn pr.adapter_id]
  else match s.decide_route cfg pr.adapter_id best_wid with
    | some (_, .route _ _ _, some _) => [.withdrawn pr.adapter_id]
    | some (_, .spawn, _) => [.ordered pr.adapter_id]
    | _ => []

/-- What a look at all the entries does. -/
def pass_events (cfg : Config) (expired : FutureId → Bool) (best_wid : FutureId → WorkerId) :
    State → List PendingRequest → List (Event AdapterId)
  | _, [] => []
  | s, pr :: rest =>
      s.look_events cfg pr (expired pr.future) (best_wid pr.future) ++
        match s.dispatch_one cfg pr (expired pr.future) (best_wid pr.future) with
        | some (s, _) => pass_events cfg expired best_wid s rest
        | none => []

/-- What a round of the dispatcher does: it prunes, and looks at what is left. -/
def dispatch_events (cfg : Config) (s : State) (pruned expired : FutureId → Bool)
    (best_wid : FutureId → WorkerId) : List (Event AdapterId) :=
  prune_events pruned s s.pending_requests ++
    pass_events cfg expired best_wid (prune pruned s s.pending_requests).1
      (prune pruned s s.pending_requests).2

/-- Requests of the queue that get a worker or are cancelled in a step. -/
def leaving (s s' : State) : List AdapterId :=
  (s.pending_requests.filter fun pr => s.isPending pr.future && !s'.isPending pr.future).map
    (·.adapter_id)

/-- The requests that a step has queued. -/
def queued (s s' : State) : List AdapterId :=
  (s'.pending_requests.drop s.pending_requests.length).map (·.adapter_id)

end State

/-- A state with the history of its coroutines: for each of them the adapter of the call of
`_spawn_for_dispatch` that it carries out, if the dispatcher or burst detection has begun it. -/
structure Watched where
  state : State
  begun : List (Option AdapterId)

namespace Watched

/-- The coroutines that a step leaves alone. -/
def kept (w : Watched) : Label → List (Option AdapterId)
  | .run i _ _ => w.begun.eraseIdx i
  | _ => w.begun

/-- A coroutine that goes on with a call inherits its history. The spawns of the proactive loop have
none. -/
def heir (w : Watched) (l : Label) (task : Task) : Option AdapterId :=
  match l with
  | .run i _ _ =>
      match w.state.tasks[i]?.bind Task.spawn with
      | some _ => task.spawn.bind fun _ => w.begun[i]?.join
      | none => task.spawn
  | .proactive _ _ => none
  | _ => task.spawn

/-- The calls after a step. -/
def next (w : Watched) (l : Label) (s' : State) : Watched where
  state := s'
  begun := w.kept l ++ (s'.tasks.drop (w.kept l).length).map (w.heir l)

/-- The call that a step ends. -/
def returned (w : Watched) (l : Label) (s' : State) : List AdapterId :=
  match l with
  | .run i _ _ =>
      if (s'.tasks.drop (w.kept l).length).any fun task => task.spawn.isSome then []
      else w.begun[i]?.join.toList
  | _ => []

/-- The spawns that burst detection adds. Those of the proactive loop are not counted. -/
def started (w : Watched) (l : Label) (s' : State) : List AdapterId :=
  match l with
  | .proactive _ _ => []
  | _ => s'.spawns_in_progress.drop w.state.spawns_in_progress.length

/-- The requests that wait in the queue, and the calls that the dispatcher and burst detection have
begun and that have not ended. -/
def account (w : Watched) : Account AdapterId where
  demands := w.state.unresolved w.state.pending_requests
  orders := w.begun.filterMap id

/-- What a step does to the account, in the order in which it does it. Burst detection comes before
the request is queued. -/
def events (cfg : Config) (w : Watched) (l : Label) : List (Event AdapterId) :=
  match l with
  | .dispatch pruned expired best_wid => w.state.dispatch_events cfg pruned expired best_wid
  | _ =>
      match step cfg w.state l with
      | none => []
      | some s' =>
          (w.returned l s').map .delivered ++ (w.state.leaving s').map .withdrawn ++
            (w.started l s').map .ordered ++ (w.state.queued s').map .demanded

end Watched

/-- The load balancer with the calls of `_spawn_for_dispatch`, as history variables. -/
def watched (cfg : Config) : System Watched Label where
  initial w := Initial w.state ∧ w.begun = []
  step w l := (step cfg w.state l).map (w.next l)

/-- No spawn is started for an adapter, and no request of it gives up its place in the queue, unless
more of its requests wait than spawns for it are in flight. -/
def Sparing (cfg : Config) (w : Watched) (l : Label) : Prop :=
  w.account.Always Account.Spare (w.events cfg l)

instance (cfg : Config) (w : Watched) (l : Label) : Decidable (Sparing cfg w l) :=
  inferInstanceAs (Decidable (Account.Always _ _ _))

/-- Whenever a spawn is started, at most as many are in flight as requests wait. -/
def Proportionate (cfg : Config) (w : Watched) (l : Label) : Prop :=
  w.account.Always Account.Moderate (w.events cfg l)

instance (cfg : Config) (w : Watched) (l : Label) : Decidable (Proportionate cfg w l) :=
  inferInstanceAs (Decidable (Account.Always _ _ _))

namespace State

variable {cfg : Config} {s s' : State} {queue : List PendingRequest}

/-- The queue in two parts. -/
theorem unresolved_append (more : List PendingRequest) :
    s.unresolved (queue ++ more) = s.unresolved queue ++ s.unresolved more := by
  rw [unresolved, List.filter_append, List.map_append]
  rfl

/-- Where no request has a worker yet, every entry counts. -/
theorem unresolved_of_pending (hPending : ∀ pr ∈ queue, s.isPending pr.future = true) :
    s.unresolved queue = queue.map (·.adapter_id) := by
  rw [unresolved, List.filter_eq_self.mpr hPending]

/-- What counts depends on the futures only. -/
theorem unresolved_congr (hSame : ∀ pr ∈ queue, s'.isPending pr.future = s.isPending pr.future) :
    s'.unresolved queue = s.unresolved queue :=
  congrArg (List.map _) (List.filter_congr hSame)

/-- The requests that waited before are those that leave and those that still wait. -/
theorem unresolved_leaving
    (hOnly : ∀ pr ∈ s.pending_requests, s'.isPending pr.future = true →
      s.isPending pr.future = true) :
    (s'.unresolved s.pending_requests : Multiset AdapterId) =
      s.unresolved s.pending_requests - s.leaving s' := by
  have hStill : s'.unresolved s.pending_requests =
      (((s.pending_requests.filter fun pr => s.isPending pr.future).filter
        fun pr => s'.isPending pr.future).map (·.adapter_id)) := by
    rw [unresolved, List.filter_filter]
    refine congrArg (List.map _) (List.filter_congr fun pr hpr => ?_)
    cases hPending : s'.isPending pr.future with
    | false => rfl
    | true => rw [hOnly pr hpr hPending]; rfl
  have hLeaving : s.leaving s' =
      (((s.pending_requests.filter fun pr => s.isPending pr.future).filter
        fun pr => !s'.isPending pr.future).map (·.adapter_id)) := by
    rw [leaving, List.filter_filter]
    refine congrArg (List.map _) (List.filter_congr fun pr _ => Bool.and_comm _ _)
  have hPerm := (List.filter_append_perm (fun pr => s'.isPending pr.future)
    (s.pending_requests.filter fun pr => s.isPending pr.future)).map (·.adapter_id)
  rw [List.map_append, ← hStill, ← hLeaving] at hPerm
  have hSum : (s'.unresolved s.pending_requests : Multiset AdapterId) + s.leaving s' =
      s.unresolved s.pending_requests := by
    rw [Multiset.coe_add]
    exact Multiset.coe_eq_coe.mpr hPerm
  rw [← hSum, Multiset.add_sub_cancel_right]

/-- A stretch of code leaves waiting what does not leave, and what it queues. -/
theorem unresolved_next {call : Option AdapterId} (hStretch : Stretch call s s')
    (hMade : ∀ pr ∈ s.pending_requests, pr.future < s.nextFuture) :
    (s'.unresolved s'.pending_requests : Multiset AdapterId) =
      s.queued s' + ((s.unresolved s.pending_requests : Multiset AdapterId) - s.leaving s') := by
  obtain ⟨new, hNew, hPending⟩ := hStretch.queue
  have hOnly : ∀ pr ∈ s.pending_requests, s'.isPending pr.future = true →
      s.isPending pr.future = true := fun pr hpr hStill =>
    (hStretch.futures pr.future hStill).resolve_right (hMade pr hpr).ne
  have hQueued : s.queued s' = new.map (·.adapter_id) := by
    rw [queued, hNew, List.drop_left]
  rw [hNew, unresolved_append, unresolved_of_pending hPending, ← hQueued, ← Multiset.coe_add,
    unresolved_leaving hOnly, Multiset.add_comm]

/-- No two entries stand for a request that waits. -/
def Distinct (s : State) (queue : List PendingRequest) : Prop :=
  queue.Pairwise fun p q => s.isPending p.future = true → q.future ≠ p.future

/-- Futures that stay distinct. -/
theorem distinct_congr {rest : List PendingRequest} (hDistinct : s.Distinct rest)
    (hSame : ∀ q ∈ rest, s'.isPending q.future = s.isPending q.future) : s'.Distinct rest := by
  refine List.Pairwise.imp_of_mem (fun {p q} hp _ hOther hPending => ?_) hDistinct
  exact hOther (hSame p hp ▸ hPending)

/-- Cancelling one request leaves the others. -/
theorem isPending_cancel_of_ne {f g : FutureId} (hOther : g ≠ f) :
    (s.cancel f).isPending g = s.isPending g := by
  unfold cancel
  split
  next =>
    change decide ((Function.update s.futures f _ g).state = .pending) = _
    rw [Function.update_of_ne hOther]
    rfl
  next => rfl

/-- The first entry counts if its request waits. -/
theorem unresolved_cons {pr : PendingRequest} :
    s.unresolved (pr :: queue) =
      if s.isPending pr.future then pr.adapter_id :: s.unresolved queue else s.unresolved queue := by
  unfold unresolved
  rw [List.filter_cons]
  split <;> rfl

/-- One request less that waits. -/
theorem run_withdrawn_cons {a : AdapterId} {l : List AdapterId} {orders : Multiset AdapterId} :
    (⟨↑(a :: l), orders⟩ : Account AdapterId).run [.withdrawn a] = ⟨l, orders⟩ :=
  congrArg (Account.mk · orders) (Multiset.erase_cons_head a l)

/-- The requests that the pruning cancels are the first ones. -/
theorem prune_spec {expired : FutureId → Bool} {orders : Multiset AdapterId}
    (hDistinct : s.Distinct queue) :
    (⟨s.unresolved queue, orders⟩ : Account AdapterId).run (prune_events expired s queue) =
        ⟨(prune expired s queue).1.unresolved (prune expired s queue).2, orders⟩ ∧
      (prune expired s queue).1.Distinct (prune expired s queue).2 ∧
      (prune expired s queue).1.tasks = s.tasks := by
  induction queue generalizing s with
  | nil => exact ⟨rfl, .nil, rfl⟩
  | cons pr rest ih =>
      obtain ⟨hFirst, hRest⟩ := List.pairwise_cons.mp hDistinct
      unfold prune prune_events
      split
      next hPruned =>
        cases hPending : s.isPending pr.future with
        | false =>
            have hSame : s.cancel pr.future = s := if_neg (by simp [hPending])
            rw [hSame, unresolved_cons, hPending]
            exact ih hRest
        | true =>
            have hOthers (q : PendingRequest) (hq : q ∈ rest) :
                (s.cancel pr.future).isPending q.future = s.isPending q.future :=
              isPending_cancel_of_ne (hFirst q hq hPending)
            obtain ⟨hRun, hLeft, hTasks⟩ := ih (distinct_congr hRest hOthers)
            refine ⟨?_, hLeft, hTasks.trans ?_⟩
            · rw [unresolved_cons, hPending, ← hRun, unresolved_congr hOthers, if_pos rfl,
                if_pos rfl, Account.run_append, run_withdrawn_cons]
            · unfold cancel
              split <;> rfl
      next => exact ⟨rfl, hDistinct, rfl⟩

/-- What the dispatcher's look at one entry may do: the request is done already, it leaves, or it
stays and a spawn is started for it or none. -/
inductive Looked (s s₁ : State) (pr : PendingRequest) : Bool → List (Event AdapterId) → Prop where
  | done (hDone : s.isPending pr.future = false) (hSame : s₁ = s) : Looked s s₁ pr false []
  | leaves {new : List Task} (hPending : s.isPending pr.future = true)
      (hOthers : ∀ f ≠ pr.future, s₁.isPending f = s.isPending f)
      (hTasks : s₁.tasks = s.tasks ++ new) (hNone : new.filterMap Task.spawn = []) :
      Looked s s₁ pr false [.withdrawn pr.adapter_id]
  | stays {new : List Task} (hPending : s.isPending pr.future = true)
      (hFutures : s₁.futures = s.futures) (hTasks : s₁.tasks = s.tasks ++ new) :
      Looked s s₁ pr true ((new.filterMap Task.spawn).map .ordered)

/-- A decision changes no future. -/
theorem decide_route_frame {adapter_id : AdapterId} {best_wid : WorkerId}
    {decision : RoutingDecision} {worker : Option WorkerRef}
    (hDecide : s.decide_route cfg adapter_id best_wid = some (s', decision, worker)) :
    s'.futures = s.futures ∧ s'.tasks = s.tasks := by
  simp only [decide_route, Option.bind_eq_bind, Option.bind_eq_some_iff] at hDecide
  obtain ⟨decision', -, hReserve⟩ := hDecide
  split at hReserve
  next wid needs_swap needs_spawn =>
    split at hReserve
    next o hLookup =>
      obtain ⟨rfl, -⟩ := Prod.mk.inj (Option.some.inj hReserve)
      exact ⟨rfl, rfl⟩
    next =>
      obtain ⟨rfl, -⟩ := Prod.mk.inj (Option.some.inj hReserve)
      exact ⟨rfl, rfl⟩
  next =>
    obtain ⟨rfl, -⟩ := Prod.mk.inj (Option.some.inj hReserve)
    exact ⟨rfl, rfl⟩

/-- What one look comes to. -/
theorem looked_of_dispatch_one {pr : PendingRequest} {expired keep : Bool} {best_wid : WorkerId}
    (hDispatch : s.dispatch_one cfg pr expired best_wid = some (s', keep)) :
    Looked s s' pr keep (s.look_events cfg pr expired best_wid) := by
  unfold dispatch_one at hDispatch
  unfold look_events
  cases hPending : s.isPending pr.future with
  | false =>
      rw [hPending] at hDispatch
      obtain ⟨hSame, rfl⟩ := Prod.mk.inj (Option.some.inj hDispatch)
      exact .done hPending (hSame.symm.trans (if_neg (by simp [hPending])))
  | true =>
      rw [hPending] at hDispatch
      cases expired with
      | true =>
          obtain ⟨rfl, rfl⟩ := Prod.mk.inj (Option.some.inj hDispatch)
          have hNothing : (s.cancel pr.future).tasks = s.tasks ++ [] := by
            rw [List.append_nil]
            unfold cancel
            split <;> rfl
          exact .leaves hPending (fun f hf => isPending_cancel_of_ne hf) hNothing rfl
      | false =>
          simp only [Bool.not_true, Bool.or_false, Bool.false_eq_true, if_false,
            Option.bind_eq_bind, Option.bind_eq_some_iff] at hDispatch
          obtain ⟨⟨s₁, decision, worker⟩, hDecide, hRoute⟩ := hDispatch
          obtain ⟨hFutures, hTasks⟩ := decide_route_frame hDecide
          have hStill : s₁.isPending pr.future = true := by
            unfold isPending at hPending ⊢
            rwa [hFutures]
          have hFrame (f : FutureId) : s₁.isPending f = s.isPending f := by
            unfold isPending
            rw [hFutures]
          rw [Bool.not_true, if_neg Bool.false_ne_true, hDecide]
          have hNothing : s₁.tasks = s.tasks ++ [] := by rw [hTasks, List.append_nil]
          cases decision with
          | route wid needs_swap needs_spawn =>
              cases worker with
              | none =>
                  cases needs_swap <;> obtain ⟨rfl, rfl⟩ := Prod.mk.inj (Option.some.inj hRoute) <;>
                    exact .stays hPending hFutures hNothing
              | some o =>
                  cases needs_swap with
                  | true =>
                      obtain ⟨rfl, rfl⟩ := Prod.mk.inj (Option.some.inj hRoute)
                      exact .leaves hPending (fun f _ => hFrame f) (congrArg (· ++ _) hTasks) rfl
                  | false =>
                      simp only [if_pos hStill] at hRoute
                      obtain ⟨rfl, rfl⟩ := Prod.mk.inj (Option.some.inj hRoute)
                      refine .leaves hPending (fun f hf => ?_) hNothing rfl
                      rw [← hFrame f]
                      change decide ((Function.update s₁.futures pr.future _ f).state = .pending) = _
                      rw [Function.update_of_ne hf]
                      rfl
          | spawn =>
              obtain ⟨rfl, rfl⟩ := Prod.mk.inj (Option.some.inj hRoute)
              have hSame : (s₁.spawn_for_dispatch [pr.adapter_id]).futures = s.futures := hFutures
              have hBegun : (s₁.spawn_for_dispatch [pr.adapter_id]).tasks =
                  s.tasks ++ [.spawnNew (.dispatch pr.adapter_id false)] :=
                congrArg (· ++ [Task.spawnNew (.dispatch pr.adapter_id false)]) hTasks
              exact .stays hPending hSame hBegun
          | queue =>
              obtain ⟨rfl, rfl⟩ := Prod.mk.inj (Option.some.inj hRoute)
              exact .stays hPending hFutures hNothing
          | reject =>
              obtain ⟨rfl, rfl⟩ := Prod.mk.inj (Option.some.inj hRoute)
              exact .stays hPending hFutures hNothing

/-- A pass books the spawns that it starts, and leaves waiting the entries that it keeps. -/
theorem pass_spec {expired : FutureId → Bool} {best_wid : FutureId → WorkerId}
    {still_pending : List PendingRequest} (hDistinct : s.Distinct queue)
    (hPass : dispatch_all cfg expired best_wid s queue = some (s', still_pending)) :
    ∃ new, s'.tasks = s.tasks ++ new ∧
      (∀ f, (∀ q ∈ queue, q.future ≠ f) → s'.isPending f = s.isPending f) ∧
      ∀ kept orders : Multiset AdapterId,
        (⟨kept + s.unresolved queue, orders⟩ : Account AdapterId).run
            (pass_events cfg expired best_wid s queue) =
          ⟨kept + s'.unresolved still_pending, new.filterMap Task.spawn + orders⟩ := by
  induction queue generalizing s still_pending with
  | nil =>
      obtain ⟨rfl, rfl⟩ := Prod.mk.inj (Option.some.inj hPass)
      refine ⟨[], (List.append_nil _).symm, fun _ _ => rfl, fun kept orders => ?_⟩
      rw [List.filterMap_nil, Multiset.coe_nil, Multiset.zero_add]
      rfl
  | cons pr rest ih =>
      simp only [dispatch_all, Option.bind_eq_bind, Option.bind_eq_some_iff] at hPass
      obtain ⟨⟨s₁, keep⟩, hOne, ⟨s₂, still⟩, hAll, hEnd⟩ := hPass
      obtain ⟨rfl, rfl⟩ := Prod.mk.inj (Option.some.inj hEnd)
      obtain ⟨hFirst, hRest⟩ := List.pairwise_cons.mp hDistinct
      have hLooked := looked_of_dispatch_one hOne
      unfold pass_events
      rw [hOne]
      generalize s.look_events cfg pr (expired pr.future) (best_wid pr.future) = looked at hLooked
      cases hLooked with
      | done hDone hSame =>
          subst hSame
          obtain ⟨new, hNew, hFrame, hRun⟩ := ih hRest hAll
          refine ⟨new, hNew, fun f hf => hFrame f fun q hq => hf q (List.mem_cons_of_mem _ hq),
            fun kept orders => ?_⟩
          rw [unresolved_cons, hDone]
          exact hRun kept orders
      | @leaves gone hPending hOthers hTasks hNone =>
          have hSame (q : PendingRequest) (hq : q ∈ rest) :
              s₁.isPending q.future = s.isPending q.future :=
            hOthers q.future (hFirst q hq hPending)
          obtain ⟨new, hNew, hFrame, hRun⟩ := ih (distinct_congr hRest hSame) hAll
          refine ⟨gone ++ new, by rw [hNew, hTasks, List.append_assoc], fun f hf => ?_,
            fun kept orders => ?_⟩
          · rw [hFrame f fun q hq => hf q (List.mem_cons_of_mem _ hq)]
            exact hOthers f (hf pr List.mem_cons_self).symm
          · have hLeaves : (⟨kept + ↑(pr.adapter_id :: s.unresolved rest), orders⟩ :
                Account AdapterId).run [.withdrawn pr.adapter_id] =
                  ⟨kept + s.unresolved rest, orders⟩ := by
              refine congrArg (Account.mk · orders) ?_
              rw [← Multiset.cons_coe, Multiset.add_cons, Multiset.erase_cons_head]
            rw [unresolved_cons, hPending, if_pos rfl, Account.run_append, hLeaves,
              ← unresolved_congr hSame, hRun, List.filterMap_append, hNone, List.nil_append]
            rfl
      | @stays begun hPending hFutures hTasks =>
          have hSame (f : FutureId) : s₁.isPending f = s.isPending f := by
            unfold isPending
            rw [hFutures]
          obtain ⟨new, hNew, hFrame, hRun⟩ :=
            ih (distinct_congr hRest fun q _ => hSame q.future) hAll
          refine ⟨begun ++ new, by rw [hNew, hTasks, List.append_assoc], fun f hf => ?_,
            fun kept orders => ?_⟩
          · rw [hFrame f fun q hq => hf q (List.mem_cons_of_mem _ hq), hSame]
          · have hStill : s₂.isPending pr.future = true := by
              rw [hFrame pr.future fun q hq => hFirst q hq hPending, hSame, hPending]
            rw [unresolved_cons, hPending, if_pos rfl, Account.run_append, Account.run_ordered,
              if_pos rfl, unresolved_cons, hStill, if_pos rfl, ← Multiset.cons_coe,
              ← Multiset.cons_coe, Multiset.add_cons, Multiset.add_cons, ← Multiset.cons_add,
              ← Multiset.cons_add, ← unresolved_congr fun q _ => hSame q.future, hRun,
              List.filterMap_append, ← Multiset.coe_add]
            refine congrArg (Account.mk _) ?_
            rw [← Multiset.add_assoc]
            exact congrArg (· + orders) (Multiset.add_comm _ _)

end State

namespace Watched

/-- The history of a coroutine speaks of the call that it carries out. -/
def Truthful (call : Option AdapterId) (task : Task) : Prop := call = none ∨ call = task.spawn

/-- Every coroutine carries out the call that it is recorded for. -/
def Aligned (w : Watched) : Prop := List.Forall₂ Truthful w.begun w.state.tasks

variable {cfg : Config} {w : Watched} {l : Label} {s' : State}

/-- Taking out a place on both sides. -/
theorem forall₂_eraseIdx {α β : Type} {R : α → β → Prop} {l : List α} {l' : List β}
    (h : List.Forall₂ R l l') (i : Nat) : List.Forall₂ R (l.eraseIdx i) (l'.eraseIdx i) := by
  rw [List.eraseIdx_eq_take_drop_succ, List.eraseIdx_eq_take_drop_succ]
  exact List.rel_append (List.forall₂_take i h) (List.forall₂_drop (i + 1) h)

/-- The calls go on with their coroutines, and new coroutines inherit. -/
theorem next_begun {tasks new : List Task} (hTasks : s'.tasks = tasks ++ new)
    (hLength : (w.kept l).length = tasks.length) :
    (w.next l s').begun = w.kept l ++ new.map (w.heir l) := by
  change w.kept l ++ (s'.tasks.drop (w.kept l).length).map (w.heir l) = _
  rw [hTasks, hLength, List.drop_left]

/-- What a step other than a round of the dispatcher does to the account. -/
theorem events_of_step (hStep : step cfg w.state l = some s')
    (hDispatch : ∀ pruned expired best_wid, l ≠ .dispatch pruned expired best_wid) :
    w.events cfg l = (w.returned l s').map .delivered ++ (w.state.leaving s').map .withdrawn ++
      (w.started l s').map .ordered ++ (w.state.queued s').map .demanded := by
  unfold events
  split
  next pruned expired best_wid => exact absurd rfl (hDispatch pruned expired best_wid)
  next => rw [hStep]

/-- The step is booked, and the histories go on to tell the truth. -/
structure Follows (cfg : Config) (w : Watched) (l : Label) (w' : Watched) : Prop where
  account : w'.account = w.account.run (w.events cfg l)
  aligned : w'.Aligned

/-- New coroutines are recorded for their calls. -/
theorem aligned_next {tasks new : List Task} (hTasks : s'.tasks = tasks ++ new)
    (hKept : List.Forall₂ Truthful (w.kept l) tasks)
    (hHeir : ∀ task ∈ new, Truthful (w.heir l task) task) : (w.next l s').Aligned := by
  unfold Aligned
  rw [next_begun hTasks hKept.length_eq]
  change List.Forall₂ _ _ s'.tasks
  rw [hTasks]
  refine List.rel_append hKept ?_
  rw [List.forall₂_map_left_iff, List.forall₂_same]
  exact hHeir

/-- A step that resumes no coroutine and is not one of the dispatcher. -/
theorem follows_of_tasks {new : List Task} (hAligned : w.Aligned)
    (hStep : step cfg w.state l = some s')
    (hDispatch : ∀ pruned expired best_wid, l ≠ .dispatch pruned expired best_wid)
    (hDemands : (s'.unresolved s'.pending_requests : Multiset AdapterId) =
      w.state.queued s' + ((w.state.unresolved w.state.pending_requests : Multiset AdapterId) -
        w.state.leaving s'))
    (hNew : s'.tasks = w.state.tasks ++ new)
    (hSpawns : s'.spawns_in_progress = w.state.spawns_in_progress ++ new.filterMap Task.spawn)
    (hKept : w.kept l = w.begun) (hReturned : w.returned l s' = [])
    (hHeir : w.heir l = Task.spawn ∧
        w.started l s' = s'.spawns_in_progress.drop w.state.spawns_in_progress.length ∨
      w.heir l = (fun _ => none) ∧ w.started l s' = []) :
    Follows cfg w l (w.next l s') := by
  have hOld : List.Forall₂ Truthful (w.kept l) w.state.tasks := by
    rw [hKept]
    exact hAligned
  have hBegun := next_begun hNew hOld.length_eq
  refine ⟨?_, aligned_next hNew hOld fun task _ => ?_⟩
  · rw [events_of_step hStep hDispatch, Account.run_changes, hReturned, Multiset.coe_nil,
      Multiset.sub_zero]
    refine congrArg₂ Account.mk hDemands ?_
    rw [hBegun, hKept, List.filterMap_append, List.filterMap_map, ← Multiset.coe_add,
      Multiset.add_comm]
    refine congrArg (fun begun : List AdapterId => (begun : Multiset AdapterId) + _) ?_
    rcases hHeir with ⟨hHeir, hStarted⟩ | ⟨hHeir, hStarted⟩
    · rw [hHeir, hStarted, hSpawns, List.drop_left]
      rfl
    · rw [hHeir, hStarted]
      exact List.filterMap_eq_nil_iff.mpr fun _ _ => rfl
  · rcases hHeir with ⟨hHeir, -⟩ | ⟨hHeir, -⟩
    · rw [hHeir]
      exact .inr rfl
    · rw [hHeir]
      exact .inl rfl

/-- A stretch of code begins and ends the calls that the account says. -/
theorem follows_of_stretch (hAligned : w.Aligned)
    (hMade : ∀ pr ∈ w.state.pending_requests, pr.future < w.state.nextFuture)
    (hStep : step cfg w.state l = some s')
    (hDispatch : ∀ pruned expired best_wid, l ≠ .dispatch pruned expired best_wid)
    (hStretch : Stretch none w.state s') (hKept : w.kept l = w.begun)
    (hReturned : w.returned l s' = [])
    (hHeir : w.heir l = Task.spawn ∧
        w.started l s' = s'.spawns_in_progress.drop w.state.spawns_in_progress.length ∨
      w.heir l = (fun _ => none) ∧ w.started l s' = []) :
    Follows cfg w l (w.next l s') := by
  obtain ⟨new, hNew, hSpawns⟩ := hStretch.tasks
  exact follows_of_tasks hAligned hStep hDispatch (unresolved_next hStretch hMade) hNew hSpawns
    hKept hReturned hHeir

section Resumed

variable {i : Nat} {env : Env} {outcome : Outcome} {task : Task} {call : Option AdapterId}

/-- The call of a coroutine. -/
theorem begun_of_task (hAligned : w.Aligned) (hTask : w.state.tasks[i]? = some task) :
    ∃ call, w.begun[i]? = some call ∧ Truthful call task := by
  obtain ⟨hLt, rfl⟩ := List.getElem?_eq_some_iff.mp hTask
  have hBegun : i < w.begun.length := by
    rw [List.Forall₂.length_eq hAligned]
    exact hLt
  exact ⟨_, List.getElem?_eq_getElem hBegun, List.Forall₂.get hAligned hBegun hLt⟩

/-- The calls of the other coroutines are all but that of the one that is resumed. -/
theorem orders_of_begun (hCall : w.begun[i]? = some call) :
    (w.begun.filterMap id : Multiset AdapterId) =
      call.toList + (w.begun.eraseIdx i).filterMap id := by
  obtain ⟨hLt, rfl⟩ := List.getElem?_eq_some_iff.mp hCall
  have hPerm := (List.getElem_cons_eraseIdx_perm hLt).filterMap id
  rw [← Multiset.coe_eq_coe.mpr hPerm, Multiset.coe_add]
  cases hOwn : w.begun[i] with
  | none => rfl
  | some a => rfl

/-- The calls that are in flight after a coroutine has gone on. -/
theorem orders_next {s₀ : State} (hStretch : Stretch task.spawn s₀ s') (hAligned : w.Aligned)
    (hTask : w.state.tasks[i]? = some task) (hTasks : s₀.tasks = w.state.tasks.eraseIdx i)
    (hSpawns : s₀.spawns_in_progress = w.state.spawns_in_progress) :
    ((w.next (.run i env outcome) s').begun.filterMap id : Multiset AdapterId) =
      w.started (.run i env outcome) s' +
        ((w.begun.filterMap id : Multiset AdapterId) - w.returned (.run i env outcome) s') := by
  obtain ⟨call, hCall, hTruth⟩ := begun_of_task hAligned hTask
  obtain ⟨new, hNew, hCalls⟩ := hStretch.tasks
  rw [hTasks] at hNew
  rw [hSpawns] at hCalls
  have hOld : List.Forall₂ Truthful (w.kept (.run i env outcome)) (w.state.tasks.eraseIdx i) :=
    forall₂_eraseIdx hAligned i
  have hAdded : s'.tasks.drop (w.kept (.run i env outcome)).length = new := by
    rw [hNew, hOld.length_eq, List.drop_left]
  rw [next_begun hNew hOld.length_eq, List.filterMap_append, List.filterMap_map,
    orders_of_begun hCall, ← Multiset.coe_add]
  unfold started returned heir
  simp only [hAdded, hCall, hTask, Option.bind_some, Option.join_some]
  have hInherited : new.filterMap (fun t => t.spawn.bind fun _ => call) =
      (new.filterMap Task.spawn).filterMap fun _ => call := List.filterMap_filterMap.symm
  cases hSpawn : task.spawn with
  | none =>
      rw [hSpawn] at hCalls
      have hNone : call = none := hTruth.elim id fun hSame => hSame.trans hSpawn
      have hDrop : s'.spawns_in_progress.drop w.state.spawns_in_progress.length =
          new.filterMap Task.spawn := by
        rw [hCalls]
        exact List.drop_left
      rw [hDrop, hNone, Option.toList_none, ite_self, Multiset.coe_nil, Multiset.sub_zero,
        Multiset.zero_add, Multiset.add_comm]
      rfl
  | some a =>
      rw [hSpawn] at hCalls
      rcases hCalls with ⟨hGoesOn, hSame⟩ | ⟨hEnds, hErased⟩
      · have hAny : (new.any fun t => t.spawn.isSome) = true := by
          have hMem : a ∈ new.filterMap Task.spawn := by simp [hGoesOn]
          obtain ⟨t, ht, hOwn⟩ := List.mem_filterMap.mp hMem
          exact List.any_eq_true.mpr ⟨t, ht, by simp [hOwn]⟩
        have hOwn : new.filterMap (fun t => t.spawn.bind fun _ => call) = call.toList := by
          rw [hInherited, hGoesOn]
          cases call with
          | none => rfl
          | some b => rfl
        rw [hSame, List.drop_length, if_pos hAny, Multiset.coe_nil, Multiset.zero_add,
          Multiset.sub_zero, Multiset.add_comm, ← hOwn]
        rfl
      · have hNotAny : ¬ (new.any fun t => t.spawn.isSome) = true := by
          intro hAny
          obtain ⟨t, ht, hSome⟩ := List.any_eq_true.mp hAny
          simp [List.filterMap_eq_nil_iff.mp hEnds t ht] at hSome
        have hDrop : s'.spawns_in_progress.drop w.state.spawns_in_progress.length = [] := by
          rw [hErased]
          exact List.drop_eq_nil_of_le List.length_erase_le
        rw [hDrop, if_neg hNotAny, Multiset.coe_nil, Multiset.zero_add,
          Multiset.add_comm (call.toList : Multiset AdapterId), Multiset.add_sub_cancel_right]
        change _ + Multiset.ofList (new.filterMap fun t => t.spawn.bind fun _ => call) = _
        rw [hInherited, hEnds]
        exact Multiset.add_zero _

/-- A coroutine that is begun by another one goes on with its call. -/
theorem heir_truthful {new : List Task} (hTask : w.state.tasks[i]? = some task)
    (hCall : w.begun[i]? = some call) (hTruth : Truthful call task)
    (hOwn : ∀ a ∈ task.spawn, ∀ t ∈ new, t.spawn = none ∨ t.spawn = some a) :
    ∀ t ∈ new, Truthful (w.heir (.run i env outcome) t) t := by
  intro t ht
  unfold heir
  simp only [hTask, hCall, Option.bind_some, Option.join_some]
  cases hSpawn : task.spawn with
  | none => exact .inr rfl
  | some a =>
      change Truthful (t.spawn.bind fun _ => call) t
      rcases hOwn a hSpawn t ht with hNone | hSame
      · rw [hNone]
        exact .inl rfl
      · rw [hSame]
        exact hTruth.imp_right fun hCaller => hCaller.trans (hSpawn.trans hSame.symm)

/-- A step that resumes a coroutine. -/
theorem follows_of_resume (hAligned : w.Aligned)
    (hMade : ∀ pr ∈ w.state.pending_requests, pr.future < w.state.nextFuture)
    (hTask : w.state.tasks[i]? = some task)
    (hStep : step cfg w.state (.run i env outcome) = some s')
    (hStretch : Stretch task.spawn { w.state with tasks := w.state.tasks.eraseIdx i } s') :
    Follows cfg w (.run i env outcome) (w.next (.run i env outcome) s') := by
  obtain ⟨call, hCall, hTruth⟩ := begun_of_task hAligned hTask
  obtain ⟨new, hNew, hCalls⟩ := hStretch.tasks
  refine ⟨?_, aligned_next hNew (forall₂_eraseIdx hAligned i)
    (heir_truthful hTask hCall hTruth fun a hSpawn t ht => ?_)⟩
  · have hDemands := unresolved_next hStretch hMade
    rw [events_of_step hStep (by simp), Account.run_changes]
    exact congrArg₂ Account.mk hDemands (orders_next hStretch hAligned hTask rfl rfl)
  · rw [Option.mem_def.mp hSpawn] at hCalls
    cases hOwn : t.spawn with
    | none => exact .inl rfl
    | some b =>
        have hMem : b ∈ new.filterMap Task.spawn := List.mem_filterMap.mpr ⟨t, ht, hOwn⟩
        rcases hCalls with ⟨hGoesOn, -⟩ | ⟨hEnds, -⟩
        · rw [hGoesOn] at hMem
          rw [List.mem_singleton.mp hMem]
          exact .inr rfl
        · rw [hEnds] at hMem
          exact absurd hMem List.not_mem_nil

end Resumed

/-- Cancelling all the requests is quiet. -/
theorem quiet_cancel_all (queue : List PendingRequest) (s : State) :
    Quiet s (queue.foldl (fun s pr => s.cancel pr.future) s) := by
  induction queue generalizing s with
  | nil => exact .refl s
  | cons pr rest ih => exact (Quiet.cancel pr.future).trans (ih (s.cancel pr.future))

/-- Nobody waits any more then. -/
theorem cancelled_all (queue : List PendingRequest) (s : State) :
    ∀ pr ∈ queue, (queue.foldl (fun s pr => s.cancel pr.future) s).isPending pr.future = false := by
  induction queue generalizing s with
  | nil => exact fun pr hpr => absurd hpr List.not_mem_nil
  | cons first rest ih =>
      intro pr hpr
      rcases List.mem_cons.mp hpr with rfl | hpr
      · by_contra hPending
        rw [Bool.not_eq_false] at hPending
        have hStill := (quiet_cancel_all rest (s.cancel pr.future)).futures pr.future hPending
        rw [isPending_cancel] at hStill
        exact absurd hStill Bool.false_ne_true
      · exact ih (s.cancel first.future) pr hpr

/-- All requests leave with the end of the queue. -/
theorem unresolved_cancelled {s : State} (hStep : step cfg s .cancelPending = some s') :
    (s'.unresolved s'.pending_requests : Multiset AdapterId) =
      s.queued s' + ((s.unresolved s.pending_requests : Multiset AdapterId) - s.leaving s') := by
  have hGone := cancelled_all s.pending_requests s
  obtain rfl := Option.some.inj hStep
  generalize s.pending_requests.foldl (fun s pr => s.cancel pr.future) s = s₁ at hGone
  have hLeaving : s.leaving { s₁ with pending_requests := [] } =
      s.unresolved s.pending_requests := by
    refine congrArg (List.map _) (List.filter_congr fun pr hpr => ?_)
    change (s.isPending pr.future && !s₁.isPending pr.future) = _
    rw [hGone pr hpr]
    exact Bool.and_true _
  have hQueued : s.queued { s₁ with pending_requests := [] } = [] :=
    congrArg (List.map _) List.drop_nil
  have hNobody : (s.unresolved s.pending_requests : Multiset AdapterId) -
      s.unresolved s.pending_requests = 0 :=
    Multiset.le_zero.mp (Multiset.sub_le_iff_le_add.mpr (Multiset.zero_add _).ge)
  rw [hLeaving, hQueued, hNobody]
  rfl

/-- Where all requests are cancelled, they all are withdrawn. -/
theorem follows_of_cancel (hAligned : w.Aligned)
    (hStep : step cfg w.state .cancelPending = some s') :
    Follows cfg w .cancelPending (w.next .cancelPending s') := by
  have hQuiet := quiet_cancel_all w.state.pending_requests w.state
  obtain ⟨new, hNew, hNone⟩ := hQuiet.tasks
  have hDemands := unresolved_cancelled hStep
  have hTasks : s'.tasks = w.state.tasks ++ new := by
    obtain rfl := Option.some.inj hStep
    exact hNew
  have hSpawns : s'.spawns_in_progress =
      w.state.spawns_in_progress ++ new.filterMap Task.spawn := by
    rw [hNone, List.append_nil]
    obtain rfl := Option.some.inj hStep
    exact hQuiet.spawns
  exact follows_of_tasks hAligned hStep (by simp) hDemands hTasks hSpawns rfl rfl (.inl ⟨rfl, rfl⟩)

/-- A round of the dispatcher. -/
theorem follows_of_dispatch {pruned expired : FutureId → Bool} {best_wid : FutureId → WorkerId}
    (hAligned : w.Aligned) (hDistinct : w.state.Distinct w.state.pending_requests)
    (hStep : step cfg w.state (.dispatch pruned expired best_wid) = some s') :
    Follows cfg w (.dispatch pruned expired best_wid)
      (w.next (.dispatch pruned expired best_wid) s') := by
  simp only [step, dispatch, Option.bind_eq_bind, Option.bind_eq_some_iff] at hStep
  obtain ⟨⟨s₁, still_pending⟩, hPass, hEnd⟩ := hStep
  obtain ⟨hPrune, hLeft, hTasks⟩ := @prune_spec _ _ pruned (w.begun.filterMap id) hDistinct
  obtain ⟨new, hNew, -, hRun⟩ := pass_spec hLeft hPass
  have hAfter : s'.tasks = w.state.tasks ++ new := by
    obtain rfl := Option.some.inj hEnd
    exact hNew.trans (congrArg (· ++ new) hTasks)
  have hWaiting : s'.unresolved s'.pending_requests = s₁.unresolved still_pending := by
    obtain rfl := Option.some.inj hEnd
    rfl
  have hOld : List.Forall₂ Truthful (w.kept (.dispatch pruned expired best_wid)) w.state.tasks :=
    hAligned
  refine ⟨?_, aligned_next hAfter hOld fun task _ => .inr rfl⟩
  have hBooked := hRun 0 (w.begun.filterMap id)
  rw [Multiset.zero_add, Multiset.zero_add] at hBooked
  change _ = Account.run (Account.mk _ _) (dispatch_events cfg w.state pruned expired best_wid)
  unfold dispatch_events
  rw [Account.run_append, hPrune, hBooked, ← hWaiting]
  refine congrArg (Account.mk _) ?_
  rw [next_begun hAfter hOld.length_eq, List.filterMap_append, List.filterMap_map,
    ← Multiset.coe_add, Multiset.add_comm]
  rfl

/-- Of two entries for one request, one is too many. -/
theorem distinct_of_queued {s : State} (hQueued : Queued (s, 0))
    (hMade : ∀ pr ∈ s.pending_requests, pr.future < s.nextFuture) :
    s.Distinct s.pending_requests := by
  have hOnce (p : PendingRequest) (hp : p ∈ s.pending_requests)
      (hPending : s.isPending p.future = true) :
      (s.pending_requests.countP fun q => q.future = p.future) ≤ 1 := by
    have hOne := hQueued.once p.future (hMade p hp) (of_decide_eq_true hPending)
    rw [total_zero, count_entry] at hOne
    unfold representatives at hOne
    omega
  generalize s.pending_requests = queue at hOnce
  induction queue with
  | nil => exact .nil
  | cons p rest ih =>
      refine List.pairwise_cons.mpr ⟨fun q hq hPending hSame => ?_, ih fun q hq hPending => ?_⟩
      · have hAll := hOnce p List.mem_cons_self hPending
        have hOther : 0 < rest.countP fun q => q.future = p.future :=
          List.countP_pos_iff.mpr ⟨q, hq, decide_eq_true hSame⟩
        rw [List.countP_cons_of_pos (by simp)] at hAll
        omega
      · have hAll := hOnce q (List.mem_cons_of_mem _ hq) hPending
        rw [List.countP_cons] at hAll
        omega

/-- Every step does to the account what its events do. -/
theorem follows_of_step (hAligned : w.Aligned)
    (hMade : ∀ pr ∈ w.state.pending_requests, pr.future < w.state.nextFuture)
    (hDistinct : w.state.Distinct w.state.pending_requests)
    (hStep : step cfg w.state l = some s') : Follows cfg w l (w.next l s') := by
  cases l with
  | run i env outcome =>
      have hResume := hStep
      simp only [step] at hResume
      split at hResume
      next task hTask => exact follows_of_resume hAligned hMade hTask hStep (stretch_resume hResume)
      next => simp at hResume
  | dispatch pruned expired best_wid => exact follows_of_dispatch hAligned hDistinct hStep
  | cancelPending => exact follows_of_cancel hAligned hStep
  | proactive rebalances spawns =>
      have hStretch := stretch_step hStep (by simp) (by simp) (by simp)
      exact follows_of_stretch hAligned hMade hStep (by simp) hStretch rfl rfl (.inr ⟨rfl, rfl⟩)
  | _ =>
      have hStretch := stretch_step hStep (by simp) (by simp) (by simp)
      exact follows_of_stretch hAligned hMade hStep (by simp) hStretch rfl rfl (.inl ⟨rfl, rfl⟩)

end Watched

section Runs

variable {cfg : Config} {guard : Watched → Label → Prop} {w w' : Watched} {l : Label}

/-- The load balancer knows nothing of the history. -/
theorem state_of_watched (run : (watched cfg).Reach guard w) :
    (machine cfg).Reachable w.state := by
  induction run with
  | start hInitial => exact .start hInitial.1
  | next prior hGuard hStep ih =>
      obtain ⟨s', hNext, rfl⟩ := Option.map_eq_some_iff.mp hStep
      exact .next ih trivial hNext

/-- So every step of a run follows the account. -/
theorem follows_of_watched (run : (watched cfg).Reach guard w) (hAligned : w.Aligned)
    (hStep : (watched cfg).step w l = some w') : Watched.Follows cfg w l w' := by
  obtain ⟨s', hNext, rfl⟩ := Option.map_eq_some_iff.mp hStep
  have hState := state_of_watched run
  have hMade := (scoped_of_reach hState).queue
  exact Watched.follows_of_step hAligned hMade
    (Watched.distinct_of_queued (queued_of_reach hState) hMade) hNext

/-- The records stay right all along. -/
theorem aligned_of_watched (run : (watched cfg).Reach guard w) : w.Aligned := by
  refine run.invariant_of_reach _ (fun w hInitial => ?_) fun w l w' prior hAligned _ hStep =>
    (follows_of_watched prior hAligned hStep).aligned
  unfold Watched.Aligned
  rw [hInitial.2, hInitial.1.tasks]
  exact .nil

/-- In a run that spares, there are never more calls for an adapter than requests that wait for
it. -/
theorem backed_of_watched (run : (watched cfg).Reach (Sparing cfg) w) :
    w.account.orders ≤ w.account.demands := by
  refine run.backed Watched.account (Watched.events cfg) (fun w hInitial => ?_)
    (fun w l w' prior hStep => (follows_of_watched prior (aligned_of_watched prior) hStep).account)
    fun w l hSparing => hSparing
  change Multiset.ofList (w.begun.filterMap id) ≤ _
  rw [hInitial.2]
  exact Multiset.zero_le _

/-- In runs that spare, no spawn is started beyond the requests that wait. A run spares if each
start of a spawn finds more requests of its adapter waiting than spawns in flight, and no request
leaves the queue otherwise either. -/
theorem proportionate_of_sparing (run : (watched cfg).Reach (Sparing cfg) w)
    (hSparing : Sparing cfg w l) : Proportionate cfg w l :=
  Account.always_moderate (backed_of_watched run) hSparing

end Runs

/-- The aggregator of the device cannot be started, twice, and the request is queued. -/
def without_aggregator : List Label :=
  [.request {} (some "a") 0, .run 0 {} .failed, .run 0 {} .resumed, .run 0 {} .failed]

/-- The dispatcher wakes up, and no request has expired. -/
def wake_up : Label := .dispatch (fun _ => false) (fun _ => false) fun _ => 0

/-- Two workers and an empty queue. -/
theorem built_watched : (watched twoWorkers).initial ⟨built, []⟩ := ⟨built_initial, rfl⟩

/-- The first spawn for a request, and another one once it has failed for good. -/
theorem proportionate_of_two_attempts : ∃ w, (watched twoWorkers).Reach (Sparing twoWorkers) w ∧
    w.account.demands.card = 1 ∧ Proportionate twoWorkers w wake_up := by
  have hRun : ((watched twoWorkers).replayUnder (Sparing twoWorkers) ⟨built, []⟩
      (without_aggregator ++ [wake_up, .run 1 {} .resumed, .run 1 {} .failed, .run 1 {} .resumed,
        .run 1 {} .failed])).map
      (fun w => (w.account.demands.card, decide (Sparing twoWorkers w wake_up))) =
        some (1, true) := by
    decide +kernel
  obtain ⟨w, hReplay, hEnd⟩ := Option.map_eq_some_iff.mp hRun
  obtain ⟨hCard, hSparing⟩ := Prod.mk.inj hEnd
  have run := System.reach_of_replayUnder (.start built_watched) hReplay
  exact ⟨w, run, hCard, proportionate_of_sparing run (of_decide_eq_true hSparing)⟩

/-- One request waits, a spawn is in flight for it, and the dispatcher starts another one. -/
theorem spawned_at_each_look : ∃ w w', (watched twoWorkers).Reachable w ∧
    (watched twoWorkers).step w wake_up = some w' ∧ w.account.demands.card = 1 ∧
    w.account.orders.card = 1 ∧ ¬ Proportionate twoWorkers w wake_up ∧
    w'.account.demands.card = 1 ∧ w'.account.orders.card = 2 := by
  have hRun : ((watched twoWorkers).replay ⟨built, []⟩ (without_aggregator ++ [wake_up])).bind
      (fun w => ((watched twoWorkers).step w wake_up).map fun w' =>
        (w.account.demands.card, w.account.orders.card,
          decide (Proportionate twoWorkers w wake_up), w'.account.demands.card,
          w'.account.orders.card)) = some (1, 1, false, 1, 2) := by
    decide +kernel
  obtain ⟨w, hReplay, hLast⟩ := Option.bind_eq_some_iff.mp hRun
  obtain ⟨w', hStep, hEnd⟩ := Option.map_eq_some_iff.mp hLast
  simp only [Prod.mk.injEq, decide_eq_false_iff_not] at hEnd
  obtain ⟨hWaits, hSpawns, hNot, hStill, hMore⟩ := hEnd
  have run := System.reachable_of_replay (.start built_watched) hReplay
  exact ⟨w, w', run, hStep, hWaits, hSpawns, hNot, hStill, hMore⟩

end Controller
