import SwarmLoRA.Cluster.Accounting
import SwarmLoRA.Cluster.Stretches

namespace Cluster.Global

open Data Machine

/-- What the counters know of where a request is. -/
def RequestPc.booked : RequestPc → Accounting.Pc
  | .launching _ | .polling _ => .seeking
  | .forwarding node_id => .forwarding node_id
  | .ended => .ended

/-- A request as the books have it. -/
def Request.booked (req : Request) : Accounting.Request where
  tried_nodes := req.tried_nodes
  attempt := req.attempt
  pc := req.pc.booked

/-- The limits that the books know of. -/
def GlobalControllerConfig.books (cfg : GlobalControllerConfig) : Accounting.Config where
  max_queue_size := cfg.max_queue_size
  forward_max_attempts := cfg.forward_max_attempts

/-- No launch that is still awaited has been made for the request. -/
def State.Unlaunched (s : State) (r : RequestId) : Prop :=
  ∀ (i : Nat) (l : Launch), s.launches[i]? = some l → l.awaited = true → l.caller ≠ .request r

/-- The counters of the global controller are those of the books, and a request for which a launch
is awaited waits for just that launch. The totals of all requests are in the books only. -/
structure Booked (s : State) (books : Accounting.State) : Prop where
  pending : books.pending_requests = s.pending_requests
  inflight : books.inflight_per_node = s.inflight_per_node
  requests : books.requests = s.requests.map Request.booked
  awaited : ∀ (i : Nat) (l : Launch) (r : RequestId), s.launches[i]? = some l →
    l.awaited = true → l.caller = .request r →
      ∃ req, s.requests[r]? = some req ∧ req.pc = .launching i

namespace Booked

variable {cfg : GlobalControllerConfig} {s s' : State} {books : Accounting.State} {r : RequestId}
  {req : Request}

/-- The books have the request. -/
theorem request (h : Booked s books) (hReq : s.requests[r]? = some req) :
    books.requests[r]? = some req.booked := by
  rw [h.requests, List.getElem?_map, hReq]
  rfl

/-- A request that waits for no launch has none made for it. -/
theorem unlaunched (h : Booked s books) (hReq : s.requests[r]? = some req)
    (hPc : ∀ i, req.pc ≠ .launching i) : s.Unlaunched r := by
  intro i l hLaunch hAwaited hCaller
  obtain ⟨req', hSame, hAt⟩ := h.awaited i l r hLaunch hAwaited hCaller
  rw [hReq, Option.some.injEq] at hSame
  subst hSame
  exact hPc i hAt

/-- What has no part in the books. -/
theorem aside (h : Booked s books) (hPending : s'.pending_requests = s.pending_requests)
    (hInflight : s'.inflight_per_node = s.inflight_per_node)
    (hRequests : s'.requests = s.requests)
    (hLaunches : ∀ (i : Nat) (l : Launch) (r : RequestId), s'.launches[i]? = some l →
      l.awaited = true → l.caller = .request r →
        ∃ old, s.launches[i]? = some old ∧ old.awaited = true ∧ old.caller = .request r) :
    Booked s' books where
  pending := by rw [h.pending, hPending]
  inflight := by rw [h.inflight, hInflight]
  requests := by rw [h.requests, hRequests]
  awaited i l r hLaunch hAwaited hCaller := by
    obtain ⟨old, hOld, hStill, hSame⟩ := hLaunches i l r hLaunch hAwaited hCaller
    rw [hRequests]
    exact h.awaited i old r hOld hStill hSame

/-- A request that no awaited launch is made for goes on. -/
theorem awaited_modify (h : Booked s books) (hFree : s.Unlaunched r) (f : Request → Request) :
    ∀ (i : Nat) (l : Launch) (k : RequestId), s.launches[i]? = some l → l.awaited = true →
      l.caller = .request k →
        ∃ req, (s.requests.modify r f)[k]? = some req ∧ req.pc = .launching i := by
  intro i l k hLaunch hAwaited hCaller
  obtain ⟨req, hReq, hPc⟩ := h.awaited i l k hLaunch hAwaited hCaller
  have hOther : r ≠ k := fun hSame => hFree i l hLaunch hAwaited (hSame ▸ hCaller)
  refine ⟨req, ?_, hPc⟩
  simp [hReq, hOther]

/-- One request changes in both. -/
theorem map_modify (h : Booked s books) (hReq : s.requests[r]? = some req) (f : Request → Request) :
    (s.requests.modify r f).map Request.booked = books.requests.set r (f req).booked := by
  rw [h.requests, List.modify_eq_set_getElem?, hReq]
  exact List.map_set

/-- A request that ends gives back its place and its nodes in both. -/
theorem finish (h : Booked s books) (hReq : s.requests[r]? = some req)
    (hFree : s.Unlaunched r) (hPending : 0 < s.pending_requests) :
    Booked (s.finish r) (books.finish r req.booked) where
  pending := by
    show books.pending_requests - 1 = ((s.pending_requests - 1 : Nat) : Int)
    rw [h.pending, Nat.cast_pred hPending]
  inflight := by
    show (fun n => if n ∈ req.booked.tried_nodes then _ else _) = (s.finish r).inflight_per_node
    simp only [State.finish, hReq, h.inflight]
    rfl
  requests := (h.map_modify hReq fun req => { req with pc := .ended }).symm
  awaited := h.awaited_modify hFree _

/-- The end of a request is the end of a search that has found nothing. -/
theorem fail (h : Booked s books) (hReq : s.requests[r]? = some req)
    (hFree : s.Unlaunched r) (hPending : 0 < s.pending_requests) :
    Booked (s.finish r) (books.fail r req.booked) := by
  have hCounted : Booked s { books with failed_requests := books.failed_requests + 1 } :=
    ⟨h.pending, h.inflight, h.requests, h.awaited⟩
  exact hCounted.finish hReq hFree hPending

/-- A request that has found a node charges it in both. -/
theorem forward (h : Booked s books) (hReq : s.requests[r]? = some req)
    (hFree : s.Unlaunched r) (now : Time) (adapter_name : AdapterName) {node_id : NodeId}
    (hNew : node_id ∉ req.tried_nodes) :
    ∃ books', books.seek r req.booked (.found node_id) = some books' ∧
      Booked (s.forward now r adapter_name node_id) books' := by
  refine ⟨_, if_neg hNew, h.pending, ?_, ?_, ?_⟩
  · show Function.update books.inflight_per_node _ _ = _
    rw [h.inflight]
    rfl
  · exact (h.map_modify hReq fun req =>
      { req with tried_nodes := insert node_id req.tried_nodes, pc := .forwarding node_id }).symm
  · exact h.awaited_modify hFree _

/-- The request looks again later or gives up. -/
theorem await_node (h : Booked s books) (hReq : s.requests[r]? = some req)
    (hFree : s.Unlaunched r) (hPending : 0 < s.pending_requests) (left : Nat) :
    ∃ outcome books', books.seek r req.booked outcome = some books' ∧
      Booked (s.await_node r left) books' := by
  unfold State.await_node
  split
  · exact ⟨.nothing, _, rfl, h.fail hReq hFree hPending⟩
  · refine ⟨.suspends, _, rfl, h.pending, h.inflight, ?_, h.awaited_modify hFree _⟩
    exact (h.map_modify hReq fun req => { req with pc := .polling left }).symm

/-- The request waits for the launch that has been begun for it. -/
theorem launch (cfg : GlobalControllerConfig) (h : Booked s books)
    (hReq : s.requests[r]? = some req) (hFree : s.Unlaunched r)
    (now : Time) (base_model : Option BaseModel) (node_id : NodeId) :
    ∃ books', books.seek r req.booked .suspends = some books' ∧
      Booked ((s.launch cfg now base_model (.request r) node_id).set_pc r
        (.launching s.launches.length)) books' := by
  refine ⟨_, rfl, h.pending, h.inflight, ?_, ?_⟩
  · exact (h.map_modify hReq fun req => { req with pc := .launching s.launches.length }).symm
  · intro i l k hLaunch hAwaited hCaller
    by_cases hOld : i < s.launches.length
    · replace hLaunch : s.launches[i]? = some l :=
        (List.getElem?_append_left hOld).symm.trans hLaunch
      exact h.awaited_modify hFree _ i l k hLaunch hAwaited hCaller
    · have hBound := (List.getElem?_eq_some_iff.mp hLaunch).1
      simp only [State.set_pc, State.launch, List.length_append, List.length_singleton] at hBound
      obtain rfl : i = s.launches.length := by omega
      obtain rfl := Option.some.inj (List.getElem?_concat_length.symm.trans hLaunch)
      obtain rfl := Caller.request.inj hCaller
      exact ⟨{ req with pc := .launching s.launches.length },
        by simp [State.set_pc, State.launch, hReq], rfl⟩

/-- No node is found that the request has tried before. -/
theorem untried_of_found {p : PlacementPolicy} {registry : ClusterRegistry} {inflight : Inflight}
    {adapter_name : AdapterName} {order : SetOrder NodeId} {max_active_nodes : Nat}
    {tried_nodes : Finset NodeId} {n : NodeInfo}
    (h : (get_node_for_request p registry inflight adapter_name order max_active_nodes
      tried_nodes).1 = .node n) : n.node_id ∉ tried_nodes := by
  unfold get_node_for_request at h
  dsimp only at h
  split at h
  · rename_i hFirst
    cases h
    simpa using (Option.filter_eq_some_iff.mp hFirst).2
  · split at h
    · rename_i hAgain
      cases h
      simpa using (Option.filter_eq_some_iff.mp hAgain).2
    · split at h <;> cases h

/-- A search for a node up to its suspension is one in the books. -/
theorem seek (cfg : GlobalControllerConfig) (h : Booked s books)
    (hReq : s.requests[r]? = some req) (hFree : s.Unlaunched r)
    (hPending : 0 < s.pending_requests) (now : Time) (order : SetOrder NodeId)
    (adapter_name : AdapterName) :
    ∃ outcome books', books.seek r req.booked outcome = some books' ∧
      Booked (s.seek cfg now order r adapter_name req.tried_nodes) books' := by
  unfold State.seek
  cases hFound : get_node_for_request s.policy s.registry s.inflight_per_node adapter_name order
      cfg.max_active_nodes req.tried_nodes with
  | mk found policy =>
      have hPolicy : Booked { s with policy := policy } books :=
        ⟨h.pending, h.inflight, h.requests, h.awaited⟩
      cases found with
      | node n =>
          have hNew : n.node_id ∉ req.tried_nodes := untried_of_found (congrArg Prod.fst hFound)
          obtain ⟨books', hSeek, hBooked⟩ :=
            hPolicy.forward hReq hFree now adapter_name hNew
          exact ⟨_, books', hSeek, hBooked⟩
      | wait => exact hPolicy.await_node hReq hFree hPending cfg.wait_iters
      | scale_up base_model =>
          dsimp only
          rcases scale_up_cases cfg now { s with policy := policy } base_model (.request r) with
            ⟨n, -, hLaunch⟩ | hNone
          · obtain ⟨books', hSeek, hBooked⟩ := hPolicy.launch cfg hReq hFree now base_model n
            rw [hLaunch]
            exact ⟨_, books', hSeek, hBooked⟩
          · split
            · rename_i s' hSome
              exact (hNone s' hSome).elim
            · exact hPolicy.await_node hReq hFree hPending cfg.wait_iters
            · exact ⟨.raises, _, rfl, hPolicy.finish hReq hFree hPending⟩

/-- A search does not depend on what the books had of its request before. -/
theorem seek_congr {requests : List Accounting.Request} {booked : Accounting.Request}
    {pc : Accounting.Pc} {outcome : Accounting.Outcome}
    (hSame : ∀ req, requests.set r req = books.requests.set r req) :
    ({ books with requests := requests } : Accounting.State).seek r { booked with pc := pc }
      outcome = books.seek r booked outcome := by
  cases outcome <;>
    simp [Accounting.State.seek, Accounting.State.fail, Accounting.State.finish, hSame]

/-- A request that goes on counts as pending. -/
theorem pending_pos (h : Booked s books) (hBooks : Accounting.Books books)
    (hReq : s.requests[r]? = some req) (hPc : req.pc ≠ .ended) : 0 < s.pending_requests := by
  have hHandled : req.booked.handled = true := by
    cases hAt : req.pc <;> simp_all [Request.booked, RequestPc.booked, Accounting.Request.handled]
  have hCount : 0 < books.requests.countP Accounting.Request.handled :=
    List.countP_pos_iff.mpr ⟨_, List.mem_of_getElem? (h.request hReq), hHandled⟩
  have hPending := h.pending
  rw [hBooks.pending] at hPending
  omega

/-- What a launch that is begun for no request has to do with the books. -/
theorem launch_aside (h : Booked s books) (now : Time) (base_model : Option BaseModel)
    {caller : Caller} (hCaller : ∀ r, caller ≠ .request r) (node_id : NodeId) :
    Booked (s.launch cfg now base_model caller node_id) books := by
  refine h.aside rfl rfl rfl fun i l r hLaunch hAwaited hRequest => ?_
  rcases List.mem_append.mp (List.mem_of_getElem? hLaunch) with hOld | hNew
  · have hBound : i < s.launches.length := by
      by_contra hOut
      have hHere := (List.getElem?_append_right (Nat.not_lt.mp hOut)).symm.trans hLaunch
      obtain rfl := List.mem_singleton.mp (List.mem_of_getElem? hHere)
      exact hCaller r hRequest
    exact ⟨l, (List.getElem?_append_left hBound).symm.trans hLaunch, hAwaited, hRequest⟩
  · obtain rfl := List.mem_singleton.mp hNew
    exact (hCaller r hRequest).elim

/-- A launch that goes on is awaited or not as before. -/
theorem set_launch (h : Booked s books) {i : Nat} {l : Launch} (hLaunch : s.launches[i]? = some l)
    (phase : LaunchPhase) : Booked (s.set_launch i { l with phase := phase }) books := by
  refine h.aside rfl rfl rfl fun j l' r hHere hAwaited hCaller => ?_
  by_cases hSame : i = j
  · subst hSame
    have hSet : (s.launches.set i { l with phase := phase })[i]? = some { l with phase := phase } :=
      List.getElem?_set_self (List.getElem?_eq_some_iff.mp hLaunch).1
    obtain rfl := Option.some.inj (hSet.symm.trans hHere)
    exact ⟨l, hLaunch, hAwaited, hCaller⟩
  · exact ⟨l', (List.getElem?_set_ne hSame).symm.trans hHere, hAwaited, hCaller⟩

/-- Agents are not on the books. -/
theorem set_agent (h : Booked s books) (node_id : NodeId) (a : Agent) :
    Booked (s.set_agent node_id a) books :=
  ⟨h.pending, h.inflight, h.requests, h.awaited⟩

/-- Nor are stop calls. -/
theorem scale_down (h : Booked s books) (now : Time) (by_scaler : Bool) (node_id : NodeId) :
    Booked (s.scale_down now by_scaler node_id) books := by
  unfold State.scale_down
  split
  · exact ⟨h.pending, h.inflight, h.requests, h.awaited⟩
  · exact h

/-- Nor are several of them. -/
theorem scale_downs (h : Booked s books) (now : Time) (nodes : List NodeId) :
    Booked (s.scale_downs now nodes) books := by
  induction nodes with
  | nil => exact ⟨h.pending, h.inflight, h.requests, h.awaited⟩
  | cons node_id rest ih =>
      unfold State.scale_downs
      split
      · have hDown := h.scale_down now true node_id
        exact ⟨hDown.pending, hDown.inflight, hDown.requests, hDown.awaited⟩
      · exact ih

/-- The books after a step, by at most one step of theirs. -/
def Followed (cfg : GlobalControllerConfig) (books : Accounting.State) (s' : State) : Prop :=
  ∃ books', (Accounting.machine cfg.books).Steps (fun _ _ => True) books books' ∧ Booked s' books'

/-- The books may rest. -/
theorem followed (h : Booked s' books) : Followed cfg books s' := ⟨books, .refl, h⟩

/-- The books may make one step. -/
theorem Followed.of_step {books' : Accounting.State} {l : Accounting.Label}
    (hStep : Accounting.step cfg.books books l = some books') (h : Booked s' books') :
    Followed cfg books s' :=
  ⟨books', .single ⟨l, trivial, hStep⟩, h⟩

/-- A request arrives: it is refused, or it is pending and looks for a node. -/
theorem arrive (h : Booked s books) (order : SetOrder NodeId) (now : Time)
    (adapter_name : AdapterName) :
    Followed cfg books (s.arrive cfg now order adapter_name) := by
  have hFull : cfg.books.max_queue_size ≤ books.pending_requests ↔
      cfg.max_queue_size ≤ s.pending_requests := by
    rw [h.pending]
    exact Nat.cast_le
  unfold State.arrive
  split
  · exact h.followed
  · rename_i hRoom
    have hOpen : ¬cfg.books.max_queue_size ≤ books.pending_requests := fun hMax =>
      hRoom (hFull.mp hMax)
    let entered : Accounting.State :=
      { books.enter with requests := books.requests ++ [{ pc := .ended }] }
    let added : State :=
      { s with
        pending_requests := s.pending_requests + 1
        requests := s.requests ++ [({ adapter_name := adapter_name } : Request)] }
    have hEntered : Booked added entered := by
      refine ⟨?_, h.inflight, ?_, ?_⟩
      · show books.pending_requests + 1 = ((s.pending_requests + 1 : Nat) : Int)
        rw [h.pending, Nat.cast_succ]
      · show books.requests ++ [_] = (s.requests ++ [_]).map Request.booked
        rw [h.requests, List.map_append]
        rfl
      · intro i l r hLaunch hAwaited hCaller
        obtain ⟨req, hReq, hPc⟩ := h.awaited i l r hLaunch hAwaited hCaller
        exact ⟨req, (List.getElem?_append_left (List.getElem?_eq_some_iff.mp hReq).1).trans hReq,
          hPc⟩
    have hReq : added.requests[s.requests.length]? =
        some ({ adapter_name := adapter_name } : Request) := List.getElem?_concat_length
    have hFree : added.Unlaunched s.requests.length := hEntered.unlaunched hReq (by simp)
    have hLength : books.requests.length = s.requests.length := by
      rw [h.requests, List.length_map]
    have hSame : ∀ req, entered.requests.set s.requests.length req =
        books.enter.requests.set s.requests.length req := by
      intro req
      simp [entered, Accounting.State.enter, ← hLength]
    have hCongr (outcome : Accounting.Outcome) : entered.seek s.requests.length { pc := .ended }
        outcome = books.enter.seek s.requests.length {} outcome :=
      @seek_congr books.enter _ _ {} .ended outcome hSame
    dsimp only
    split
    · rename_i hNone
      refine .of_step (l := .arrive .nothing) ?_ (hEntered.fail hReq hFree (Nat.succ_pos _))
      have hMax : cfg.books.forward_max_attempts = 0 := hNone
      rw [Accounting.step, if_neg hOpen, if_pos hMax, hLength]
      exact (hCongr .nothing).symm
    · rename_i hSome
      obtain ⟨outcome, books', hSeek, hBooked⟩ :=
        hEntered.seek cfg hReq hFree (Nat.succ_pos _) now order adapter_name
      refine .of_step (l := .arrive outcome) ?_ hBooked
      have hMax : ¬cfg.books.forward_max_attempts = 0 := hSome
      rw [Accounting.step, if_neg hOpen, if_neg hMax, hLength, ← hCongr]
      exact hSeek

/-- A request that waits for a node goes on in the books as well. -/
theorem resume {outcome : Accounting.Outcome} {books' : Accounting.State} (h : Booked s books)
    (hReq : s.requests[r]? = some req) (hPc : req.pc.booked = .seeking)
    (hSeek : books.seek r req.booked outcome = some books') (hBooked : Booked s' books') :
    Followed cfg books s' := by
  refine .of_step (l := .resume r outcome) ?_ hBooked
  simp only [Accounting.step, h.request hReq]
  exact (if_pos hPc).trans hSeek

/-- A request looks again. -/
theorem poll (h : Booked s books) (hBooks : Accounting.Books books)
    (hReq : s.requests[r]? = some req) {left : Nat} (hPc : req.pc = .polling left)
    (order : SetOrder NodeId) (now : Time) :
    Followed cfg books (s.poll now order r req left) := by
  have hFree : s.Unlaunched r := h.unlaunched hReq (by simp [hPc])
  have hPending := h.pending_pos hBooks hReq (by simp [hPc])
  have hSeeking : req.pc.booked = .seeking := by rw [hPc]; rfl
  unfold State.poll
  cases hSelect : s.policy.select_node_for_request s.registry s.inflight_per_node
      req.adapter_name order with
  | mk node policy =>
      have hPolicy : Booked { s with policy := policy } books :=
        ⟨h.pending, h.inflight, h.requests, h.awaited⟩
      dsimp only
      split
      · rename_i n hNode
        have hNew : n.node_id ∉ req.tried_nodes := by
          simpa using (Option.filter_eq_some_iff.mp hNode).2
        obtain ⟨books', hSeek, hBooked⟩ :=
          hPolicy.forward hReq hFree now req.adapter_name hNew
        exact h.resume hReq hSeeking hSeek hBooked
      · obtain ⟨outcome, books', hSeek, hBooked⟩ :=
          hPolicy.await_node hReq hFree hPending (left - 1)
        exact h.resume hReq hSeeking hSeek hBooked

/-- A forward has succeeded, and the request ends. -/
theorem succeeded (h : Booked s books) (hBooks : Accounting.Books books)
    (hReq : s.requests[r]? = some req) {node_id : NodeId} (hPc : req.pc = .forwarding node_id) :
    Followed cfg books (s.finish r) := by
  have hFree : s.Unlaunched r := h.unlaunched hReq (by simp [hPc])
  have hPending := h.pending_pos hBooks hReq (by simp [hPc])
  have hCounted : Booked s { books with completed_requests := books.completed_requests + 1 } :=
    ⟨h.pending, h.inflight, h.requests, h.awaited⟩
  refine .of_step (l := .succeed r) ?_ (hCounted.finish hReq hFree hPending)
  have hBookedPc : req.booked.pc = .forwarding node_id := congrArg RequestPc.booked hPc
  simp only [Accounting.step, h.request hReq, hBookedPc]

/-- A forward has failed: the request looks for another node once, and ends the second time. -/
theorem forward_failed (h : Booked s books) (hBooks : Accounting.Books books)
    (hReq : s.requests[r]? = some req) {node_id : NodeId} (hPc : req.pc = .forwarding node_id)
    (order : SetOrder NodeId) (now : Time) :
    Followed cfg books (s.forward_failed cfg now order r req) := by
  have hFree : s.Unlaunched r := h.unlaunched hReq (by simp [hPc])
  have hPending := h.pending_pos hBooks hReq (by simp [hPc])
  have hBookedPc : req.booked.pc = .forwarding node_id := congrArg RequestPc.booked hPc
  have hRetries : cfg.books.retries req.booked = true ↔
      req.attempt = 0 ∧ 1 < cfg.forward_max_attempts := by
    rw [Accounting.Config.retries, Bool.and_eq_true, decide_eq_true_eq, decide_eq_true_eq]
    rfl
  unfold State.forward_failed
  split
  · rename_i hFirst
    let again (req : Request) : Request := { req with attempt := 1 }
    have hAgain : Booked { s with requests := s.requests.modify r again }
        { books with requests := books.requests.set r (again req).booked } :=
      ⟨h.pending, h.inflight, (h.map_modify hReq again).symm, h.awaited_modify hFree again⟩
    have hHere : (s.requests.modify r again)[r]? = some (again req) := by simp [hReq]
    obtain ⟨outcome, books', hSeek, hBooked⟩ :=
      hAgain.seek cfg hHere hFree hPending now order req.adapter_name
    refine .of_step (l := .fail r outcome) ?_ hBooked
    simp only [Accounting.step, h.request hReq, hBookedPc]
    rw [if_pos (hRetries.mpr hFirst), ← hSeek]
    exact (seek_congr fun _ => List.set_set _).symm
  · rename_i hLast
    refine .of_step (l := .fail r .nothing) ?_ (h.fail hReq hFree hPending)
    simp only [Accounting.step, h.request hReq, hBookedPc]
    rw [if_neg fun hFirst => hLast (hRetries.mp hFirst)]

/-- The launch that a request waits for has returned or is given up. -/
theorem unlaunched_of_ended (h : Booked s books) (hReq : s.requests[r]? = some req) {i : Nat}
    (hPc : req.pc = .launching i)
    (hEnded : ∀ l, s.launches[i]? = some l → l.awaited = false) : s.Unlaunched r := by
  intro j l hLaunch hAwaited hCaller
  obtain ⟨req', hSame, hAt⟩ := h.awaited j l r hLaunch hAwaited hCaller
  rw [hReq, Option.some.injEq] at hSame
  subst hSame
  rw [hPc, RequestPc.launching.injEq] at hAt
  subst hAt
  rw [hEnded l hLaunch] at hAwaited
  cases hAwaited

/-- A request that no awaited launch is made for can be given up. -/
theorem cancelled_of_unlaunched (h : Booked s books) (hReq : s.requests[r]? = some req)
    (hHandled : req.booked.handled = true) (hFree : s.Unlaunched r)
    (hPending : 0 < s.pending_requests) : Followed cfg books (s.finish r) := by
  refine .of_step (l := .cancel r) ?_ (h.finish hReq hFree hPending)
  simp only [Accounting.step, h.request hReq]
  exact if_pos hHandled

/-- The launch that a request waits for is no longer awaited. -/
theorem abandon (h : Booked s books) (i : Nat) :
    Booked { s with launches := s.launches.modify i fun l => { l with awaited := false } } books := by
  refine h.aside rfl rfl rfl fun j l r hLaunch hAwaited hCaller => ?_
  simp only [List.getElem?_modify, Option.map_eq_map, Option.map_eq_some_iff] at hLaunch
  obtain ⟨old, hOld, rfl⟩ := hLaunch
  split at hAwaited
  · cases hAwaited
  · rename_i hOther
    rw [if_neg hOther] at hCaller
    exact ⟨old, hOld, hAwaited, hCaller⟩

/-- A request is cancelled, wherever it is suspended. -/
theorem cancelled (h : Booked s books) (hBooks : Accounting.Books books)
    (hReq : s.requests[r]? = some req) (hPc : req.pc ≠ .ended) :
    Followed cfg books (s.cancel r req) := by
  have hPending := h.pending_pos hBooks hReq hPc
  have hHandled : req.booked.handled = true := by
    cases hAt : req.pc <;> simp_all [Request.booked, RequestPc.booked, Accounting.Request.handled]
  unfold State.cancel
  cases hAt : req.pc with
  | launching i =>
      have hGivenUp := h.abandon i
      refine hGivenUp.cancelled_of_unlaunched hReq hHandled ?_ hPending
      refine hGivenUp.unlaunched_of_ended hReq hAt fun l hLaunch => ?_
      simp only [List.getElem?_modify_eq, Option.map_eq_map, Option.map_eq_some_iff] at hLaunch
      obtain ⟨old, -, rfl⟩ := hLaunch
      rfl
  | polling _ | forwarding _ | ended =>
      exact h.cancelled_of_unlaunched hReq hHandled (h.unlaunched hReq (by simp [hAt])) hPending

/-- A launch call returns, and the request that waits for it forwards to the node or waits on. -/
theorem launch_returned (h : Booked s books) (hBooks : Accounting.Books books) {i : Nat}
    {l : Launch} (hLaunch : s.launches[i]? = some l) (hAwaited : l.awaited = true)
    (now : Time) (success : Bool) :
    Followed cfg books (s.launch_returned cfg now i l success) := by
  have hSelf : (s.end_launch now i l success).launches[i]? = some { l with awaited := false } :=
    List.getElem?_set_self (List.getElem?_eq_some_iff.mp hLaunch).1
  have hEnded : Booked (s.end_launch now i l success) books := by
    refine h.aside rfl rfl rfl fun j l' k hHere hStill hCaller => ?_
    by_cases hSame : i = j
    · subst hSame
      obtain rfl := Option.some.inj (hSelf.symm.trans hHere)
      cases hStill
    · exact ⟨l', (List.getElem?_set_ne hSame).symm.trans hHere, hStill, hCaller⟩
  rw [launch_returned_eq]
  cases hCaller : l.caller with
  | scaler => exact hEnded.followed
  | manual => exact hEnded.followed
  | request r =>
      obtain ⟨req, hReq, hPc⟩ := h.awaited i l r hLaunch hAwaited hCaller
      have hFree : (s.end_launch now i l success).Unlaunched r :=
        hEnded.unlaunched_of_ended hReq hPc fun l' hHere => by
          rw [hSelf, Option.some.injEq] at hHere
          rw [← hHere]
      have hPending := h.pending_pos hBooks hReq (by simp [hPc])
      have hSeeking : req.pc.booked = .seeking := by rw [hPc]; rfl
      simp only [hReq]
      split
      · rename_i hUsed
        obtain ⟨books', hSeek, hBooked⟩ :=
          hEnded.forward hReq hFree now req.adapter_name hUsed.2.2
        exact h.resume hReq hSeeking hSeek hBooked
      · obtain ⟨outcome, books', hSeek, hBooked⟩ :=
          hEnded.await_node hReq hFree hPending cfg.wait_iters
        exact h.resume hReq hSeeking hSeek hBooked

/-- The search of the auto-scaler or of an operator for a node to start. -/
theorem scale_up (h : Booked s books) (now : Time) (base_model : Option BaseModel)
    {caller : Caller} (hCaller : ∀ r, caller ≠ .request r)
    (hUp : s.scale_up cfg now base_model caller = .ok (some s')) : Booked s' books := by
  rcases scale_up_cases cfg now s base_model caller with ⟨n, -, hLaunch⟩ | hNone
  · rw [hLaunch, Except.ok.injEq, Option.some.injEq] at hUp
    exact hUp ▸ h.launch_aside now base_model hCaller n
  · exact (hNone s' hUp).elim

/-- What agents make of launch requests has no part in the books. -/
theorem launch_delivered (h : Booked s books) {i : Nat} {l : Launch}
    (hLaunch : s.launches[i]? = some l) : Booked (s.launch_delivered i l) books := by
  unfold State.launch_delivered
  dsimp only
  split
  · exact h.set_launch hLaunch _
  · exact (h.set_launch hLaunch _).set_agent _ _

/-- A round of the scaler is none of the books' business. -/
theorem scaler_round (h : Booked s books) (now : Time) : Booked (s.scaler_round cfg now) books := by
  unfold State.scaler_round
  dsimp only
  split
  · exact h.scale_downs now _
  · exact ⟨h.pending, h.inflight, h.requests, h.awaited⟩

/-- Nor is a node that it starts. -/
theorem scaler_start (h : Booked s books) (now : Time)
    (hStep : Global.step cfg s (.scaler_start now) = some s') : Booked s' books := by
  simp only [Global.step] at hStep
  split at hStep
  · rename_i base_model ups downs _
    have hScaler : Booked { s with scaler := .starting ups downs } books :=
      ⟨h.pending, h.inflight, h.requests, h.awaited⟩
    split at hStep
    · rename_i hUp
      exact Option.some.inj hStep ▸ hScaler.scale_up now base_model (by simp) hUp
    · exact Option.some.inj hStep ▸ hScaler
  · cases hStep

/-- Nor is the end of a stop call. -/
theorem stop_returned (h : Booked s books) (now : Time) (i : Nat) (success : Bool)
    (hStep : Global.step cfg s (.stop_returned now i success) = some s') : Booked s' books := by
  simp only [Global.step] at hStep
  split at hStep
  · split at hStep
    · rename_i t _ _
      have hStopped : Booked { s with
          stops := s.stops.set i { t with awaited := false }
          registry := s.registry.update_node_status now t.node_id
            (if success then .idle else .failed) } books :=
        ⟨h.pending, h.inflight, h.requests, h.awaited⟩
      split at hStep
      · split at hStep
        · exact Option.some.inj hStep ▸ hStopped.scale_downs now _
        · exact Option.some.inj hStep ▸ hStopped
      · exact Option.some.inj hStep ▸ hStopped
    · cases hStep
  · cases hStep

/-- Nor is an operator's call. -/
theorem manual_up (h : Booked s books) (now : Time)
    (hStep : Global.step cfg s (.manual_up now) = some s') : Booked s' books := by
  simp only [Global.step] at hStep
  split at hStep
  · rename_i hUp
    exact Option.some.inj hStep ▸ h.scale_up now none (by simp) hUp
  · exact Option.some.inj hStep ▸ h

/-- Every step of the controller and of the agents is one step of the books or none. -/
theorem step {l : Label} (h : Booked s books) (hBooks : Accounting.Books books)
    (hStep : Global.step cfg s l = some s') : Followed cfg books s' := by
  cases l with
  | arrive order now adapter_name =>
      obtain rfl := Option.some.inj hStep
      exact h.arrive order now adapter_name
  | poll order now r =>
      simp only [Global.step] at hStep
      split at hStep
      · rename_i req hReq
        split at hStep
        · rename_i hPc
          exact Option.some.inj hStep ▸ h.poll hBooks hReq hPc order now
        · cases hStep
      · cases hStep
  | forwarded order now r success =>
      simp only [Global.step] at hStep
      split at hStep
      · rename_i req hReq
        split at hStep
        · rename_i hPc
          split at hStep
          · exact Option.some.inj hStep ▸ h.succeeded hBooks hReq hPc
          · exact Option.some.inj hStep ▸ h.forward_failed hBooks hReq hPc order now
        · cases hStep
      · cases hStep
  | cancel r =>
      simp only [Global.step] at hStep
      split at hStep
      · rename_i req hReq
        split at hStep
        · cases hStep
        · rename_i hPc
          exact Option.some.inj hStep ▸ h.cancelled hBooks hReq hPc
      · cases hStep
  | launch_returned now i answered =>
      simp only [Global.step] at hStep
      split at hStep
      · rename_i l hLaunch
        split at hStep
        · rename_i hAwaited
          split at hStep
          · split at hStep
            · exact Option.some.inj hStep ▸ h.launch_returned hBooks hLaunch hAwaited now _
            · cases hStep
          · exact Option.some.inj hStep ▸ h.launch_returned hBooks hLaunch hAwaited now _
        · cases hStep
      · cases hStep
  | launch_delivered i =>
      simp only [Global.step] at hStep
      split at hStep
      · rename_i hLaunch
        simp only [Option.ite_none_right_eq_some, Option.some.injEq] at hStep
        exact hStep.2 ▸ (h.launch_delivered hLaunch).followed
      · cases hStep
  | launch_ready i | launch_timeout i | launch_error i =>
      simp only [Global.step] at hStep
      split at hStep
      · rename_i hLaunch
        simp only [Option.ite_none_right_eq_some, Option.some.injEq] at hStep
        exact hStep.2 ▸ ((h.set_launch hLaunch _).set_agent _ _).followed
      · cases hStep
  | scaler_round now =>
      simp only [Global.step] at hStep
      split at hStep
      · exact Option.some.inj hStep ▸ (h.scaler_round now).followed
      · cases hStep
  | scaler_start now => exact (h.scaler_start now hStep).followed
  | scaler_gathered now =>
      simp only [Global.step] at hStep
      split at hStep
      · simp only [Option.ite_none_left_eq_some, Option.some.injEq] at hStep
        exact hStep.2 ▸ (h.scale_downs now _).followed
      · cases hStep
  | stop_returned now i success => exact (h.stop_returned now i success hStep).followed
  | manual_up now => exact (h.manual_up now hStep).followed
  | manual_down now node_id =>
      exact Option.some.inj hStep ▸ (h.scale_down now false node_id).followed
  | health now | register now node_id reg base_model | unregister order node_id
  | heartbeat_sent node_id report =>
      obtain rfl := Option.some.inj hStep
      exact followed ⟨h.pending, h.inflight, h.requests, h.awaited⟩
  | heartbeat_delivered order now i =>
      simp only [Global.step] at hStep
      split at hStep
      · obtain rfl := Option.some.inj hStep
        exact followed ⟨h.pending, h.inflight, h.requests, h.awaited⟩
      · cases hStep
  | crash node_id | restart node_id =>
      simp only [Global.step, Option.ite_none_right_eq_some, Option.some.injEq] at hStep
      exact hStep.2 ▸ (h.set_agent _ _).followed
  | stopped node_id => exact Option.some.inj hStep ▸ (h.set_agent _ _).followed
  | controller node_id running => exact Option.some.inj hStep ▸ (h.set_agent _ _).followed

end Booked

variable {cfg : GlobalControllerConfig} {s : State}

/-- The requests of a run of the whole cluster, and what is counted of them, go through a run of the
books, in which how the search for a node ends is left open. -/
theorem booked_of_reachable (run : (machine cfg).Reachable s) :
    ∃ books, (Accounting.machine cfg.books).Reachable books ∧ Booked s books := by
  refine run.simulated Booked ?_ ?_
  · rintro _ ⟨policy, rfl⟩
    exact ⟨{}, rfl, rfl, rfl, rfl, fun i l r hLaunch => by cases hLaunch⟩
  · intro s l s' books hBooked run _ hStep
    exact hBooked.step (Accounting.books_of_reachable run) hStep

/-- In every run of the whole cluster the pending requests are those that are handled, a node is
charged with each request that has tried it, and a controller that handles no request has nothing on
its books. -/
theorem counted_of_reachable (run : (machine cfg).Reachable s) :
    s.pending_requests = s.requests.countP (·.booked.handled) ∧
      (∀ n, s.inflight_per_node n = s.requests.countP (·.booked.charges n)) ∧
      ((∀ req ∈ s.requests, req.pc = .ended) →
        s.pending_requests = 0 ∧ ∀ n, s.inflight_per_node n = 0) := by
  obtain ⟨books, hRun, h⟩ := booked_of_reachable run
  have hBooks := Accounting.books_of_reachable hRun
  have hCount (p : Accounting.Request → Bool) :
      books.requests.countP p = s.requests.countP (p ·.booked) := by
    rw [h.requests, List.countP_map]
    rfl
  refine ⟨?_, fun n => ?_, fun hEnded => ?_⟩
  · have hPending := hBooks.pending
    rw [h.pending, hCount] at hPending
    exact_mod_cast hPending
  · rw [← h.inflight, hBooks.inflight n, hCount]
  · have hRest : books.requests.countP Accounting.Request.handled = 0 := by
      rw [hCount, List.countP_eq_zero]
      intro req hMem
      simp [Request.booked, RequestPc.booked, Accounting.Request.handled, hEnded req hMem]
    obtain ⟨hPending, hInflight⟩ := Accounting.rest_of_reachable hRun hRest
    rw [h.pending] at hPending
    exact ⟨by exact_mod_cast hPending, fun n => h.inflight ▸ hInflight n⟩

end Cluster.Global
