import SwarmLoRA.Slora.Answers

namespace Slora

namespace RouterManager

section

variable {σ V : Type} (setup : Setup σ V)

/-- The tokens that have been sent on for a request. -/
def said (sent : List TokenOut) (request_id : String) : List Token :=
  (sent.filter (·.request_id == request_id)).map (·.new_token_id)

/-- The requests that have been reported as finished. -/
def finished_ids (sent : List TokenOut) : List String :=
  (sent.filter (·.has_generate_finished)).map (·.request_id)

/-- A request as it may come in: with a prompt, for at least one token and for an adapter that is
served. -/
structure Taken (req : Req) : Prop where
  prompt : req.prompt_ids ≠ []
  asks : 1 ≤ req.max_output_len
  served : ∃ adapter ∈ setup.adapters, req.adapter_dir = some adapter.lora_dir

/-- The request is the one that came in. -/
structure From (origin req : Req) : Prop where
  request_id : req.request_id = origin.request_id
  adapter_dir : req.adapter_dir = origin.adapter_dir
  prompt_ids : req.prompt_ids = origin.prompt_ids
  max_output_len : req.max_output_len = origin.max_output_len

/-- What has been sent on for the request is what the model alone generates for it. -/
def Plain (sent : List TokenOut) (origin : Req) : Prop :=
  said sent origin.request_id = setup.model.generate origin.request_id
      (weights_of setup.weights origin.adapter_dir) origin.prompt_ids
        (said sent origin.request_id).length ∧
    (said sent origin.request_id).length ≤ origin.max_output_len

/-- Of the requests that came in some are present, some have been reported as finished, and the
others were dropped because they had been aborted. -/
structure Books (received : List Req) (abort_ids : List String) (sent : List TokenOut)
    (present : List Req) : Prop where
  ids : (received.map (·.request_id)).Nodup
  taken : ∀ origin ∈ received, Taken setup origin
  origin : ∀ req ∈ present, ∃ origin ∈ received, From origin req
  is_open : Open present
  flagged : ∀ req ∈ present, req.aborted = true → req.request_id ∈ abort_ids
  said : ∀ req ∈ present, said sent req.request_id = req.output_ids
  plain : ∀ origin ∈ received, Plain setup sent origin
  known : ∀ out ∈ sent, out.request_id ∈ received.map (·.request_id)
  final : sent.Pairwise fun out later =>
    out.has_generate_finished = true → later.request_id ≠ out.request_id
  accounted : ∃ dropped ⊆ abort_ids, (received.map (·.request_id)).Perm
    (present.map (·.request_id) ++ finished_ids sent ++ dropped)

end

variable {σ V : Type} {setup : Setup σ V} {received present present' reqs others : List Req}
  {abort_ids : List String} {sent outs : List TokenOut} {req : Req} {request_id : String}

theorem said_append :
    said (sent ++ outs) request_id = said sent request_id ++ said outs request_id := by
  simp [said]

theorem said_of_notMem (hNot : ∀ out ∈ sent, out.request_id ≠ request_id) :
    said sent request_id = [] := by
  rw [said, List.filter_eq_nil_iff.mpr fun out hOut => by simpa using hNot out hOut, List.map_nil]

theorem said_token_out (hIds : (reqs.map (·.request_id)).Nodup) (hReq : req ∈ reqs) :
    said (reqs.map setup.token_out) req.request_id = [setup.next_token req] := by
  induction reqs with
  | nil => exact absurd hReq List.not_mem_nil
  | cons first reqs ih =>
      obtain ⟨hNot, hRest⟩ := List.nodup_cons.mp hIds
      rw [List.map_cons, ← List.singleton_append, said_append]
      rcases List.mem_cons.mp hReq with rfl | hReq
      · have hNone : said (reqs.map setup.token_out) req.request_id = [] := by
          refine said_of_notMem fun out hOut hSame => ?_
          obtain ⟨other, hOther, rfl⟩ := List.mem_map.mp hOut
          exact hNot (List.mem_map.mpr ⟨other, hOther, hSame⟩)
        rw [hNone]
        simp [said, Setup.token_out]
      · have hFirst : said [setup.token_out first] req.request_id = [] := by
          refine said_of_notMem fun out hOut hSame => ?_
          obtain rfl := List.mem_singleton.mp hOut
          exact hNot (List.mem_map.mpr ⟨req, hReq, hSame.symm⟩)
        rw [hFirst, List.nil_append]
        exact ih hRest hReq

theorem finished_ids_append :
    finished_ids (sent ++ outs) = finished_ids sent ++ finished_ids outs := by
  simp [finished_ids]

namespace Books

theorem new : Books setup [] [] [] [] where
  ids := List.nodup_nil
  taken := by simp
  origin := by simp
  is_open := by simp [Open]
  flagged := by simp
  said := by simp
  plain := by simp
  known := by simp
  final := List.Pairwise.nil
  accounted := ⟨[], by simp, by simp [finished_ids]⟩

theorem perm (h : Books setup received abort_ids sent present) (hPerm : present'.Perm present) :
    Books setup received abort_ids sent present' where
  ids := h.ids
  taken := h.taken
  origin req hReq := h.origin req (hPerm.mem_iff.mp hReq)
  is_open req hReq := h.is_open req (hPerm.mem_iff.mp hReq)
  flagged req hReq := h.flagged req (hPerm.mem_iff.mp hReq)
  said req hReq := h.said req (hPerm.mem_iff.mp hReq)
  plain := h.plain
  known := h.known
  final := h.final
  accounted := by
    obtain ⟨dropped, hDropped, hAll⟩ := h.accounted
    refine ⟨dropped, hDropped, hAll.trans ?_⟩
    exact ((hPerm.symm.map _).append_right _).append_right _

theorem nodup (h : Books setup received abort_ids sent present) :
    (present.map (·.request_id)).Nodup := by
  obtain ⟨dropped, -, hAll⟩ := h.accounted
  exact (List.nodup_append'.mp (List.nodup_append'.mp (hAll.nodup_iff.mp h.ids)).1).1

/-- Nothing more is sent on for a request that has been reported as finished. -/
theorem not_finished (h : Books setup received abort_ids sent present) (hReq : req ∈ present) :
    ∀ out ∈ sent, out.has_generate_finished = true → req.request_id ≠ out.request_id := by
  intro out hOut hFinished hSame
  obtain ⟨dropped, -, hAll⟩ := h.accounted
  have hDisjoint := (List.nodup_append'.mp (List.nodup_append'.mp (hAll.nodup_iff.mp h.ids)).1).2.2
  refine hDisjoint (List.mem_map_of_mem hReq) (List.mem_map.mpr ⟨out, ?_, hSame.symm⟩)
  exact List.mem_filter.mpr ⟨hOut, hFinished⟩

/-- The queue drops requests that are aborted. -/
theorem drop {dropped : List Req} (h : Books setup received abort_ids sent (dropped ++ present))
    (hAborted : ∀ req ∈ dropped, req.aborted = true) :
    Books setup received abort_ids sent present where
  ids := h.ids
  taken := h.taken
  origin req hReq := h.origin req (List.mem_append_right _ hReq)
  is_open req hReq := h.is_open req (List.mem_append_right _ hReq)
  flagged req hReq := h.flagged req (List.mem_append_right _ hReq)
  said req hReq := h.said req (List.mem_append_right _ hReq)
  plain := h.plain
  known := h.known
  final := h.final
  accounted := by
    obtain ⟨gone, hGone, hAll⟩ := h.accounted
    refine ⟨dropped.map (·.request_id) ++ gone, List.append_subset.mpr ⟨?_, hGone⟩,
      hAll.trans ?_⟩
    · intro id hId
      obtain ⟨req, hReq, rfl⟩ := List.mem_map.mp hId
      exact h.flagged req (List.mem_append_left _ hReq) (hAborted req hReq)
    · refine List.perm_iff_count.mpr fun id => ?_
      simp only [List.map_append, List.count_append]
      omega

/-- A request that is not known comes in. -/
theorem add {adapter_dir : Option String} {prompt_ids : List Token}
    {sampling_params : SamplingParams} (h : Books setup received abort_ids sent present)
    (hFresh : request_id ∉ received.map (·.request_id))
    (hTaken : Taken setup (Req.new adapter_dir prompt_ids sampling_params request_id)) :
    Books setup (received ++ [Req.new adapter_dir prompt_ids sampling_params request_id]) abort_ids
      sent (present ++ [Req.new adapter_dir prompt_ids sampling_params request_id]) := by
  have hNone : RouterManager.said sent request_id = [] :=
    said_of_notMem fun out hOut hSame => hFresh (hSame ▸ h.known out hOut)
  refine ⟨?_, ?_, ?_, ?_, ?_, ?_, ?_, ?_, h.final, ?_⟩
  · rw [List.map_append]
    exact h.ids.append (List.nodup_singleton _) (List.disjoint_singleton.mpr hFresh)
  · intro origin hOrigin
    rcases List.mem_append.mp hOrigin with hOrigin | hOrigin
    · exact h.taken origin hOrigin
    · exact List.mem_singleton.mp hOrigin ▸ hTaken
  · intro req hReq
    rcases List.mem_append.mp hReq with hReq | hReq
    · obtain ⟨origin, hOrigin, hFrom⟩ := h.origin req hReq
      exact ⟨origin, List.mem_append_left _ hOrigin, hFrom⟩
    · obtain rfl := List.mem_singleton.mp hReq
      exact ⟨_, List.mem_append_right _ (List.mem_singleton_self _), rfl, rfl, rfl, rfl⟩
  · intro req hReq
    rcases List.mem_append.mp hReq with hReq | hReq
    · exact h.is_open req hReq
    · obtain rfl := List.mem_singleton.mp hReq
      exact fun hFinished => Bool.noConfusion hFinished
  · intro req hReq
    rcases List.mem_append.mp hReq with hReq | hReq
    · exact h.flagged req hReq
    · obtain rfl := List.mem_singleton.mp hReq
      exact fun hAborted => Bool.noConfusion hAborted
  · intro req hReq
    rcases List.mem_append.mp hReq with hReq | hReq
    · exact h.said req hReq
    · obtain rfl := List.mem_singleton.mp hReq
      exact hNone
  · intro origin hOrigin
    rcases List.mem_append.mp hOrigin with hOrigin | hOrigin
    · exact h.plain origin hOrigin
    · obtain rfl := List.mem_singleton.mp hOrigin
      unfold Plain
      rw [show (Req.new adapter_dir prompt_ids sampling_params request_id).request_id = request_id
        from rfl, hNone]
      exact ⟨rfl, Nat.zero_le _⟩
  · intro out hOut
    rw [List.map_append]
    exact List.mem_append_left _ (h.known out hOut)
  · obtain ⟨dropped, hDropped, hAll⟩ := h.accounted
    refine ⟨dropped, hDropped, List.perm_iff_count.mpr fun id => ?_⟩
    have := List.perm_iff_count.mp hAll id
    simp only [List.map_append, List.count_append] at this ⊢
    omega

/-- Some requests of this id are marked as aborted. -/
theorem mark (h : Books setup received abort_ids sent (reqs ++ others))
    (hId : request_id ∈ abort_ids) :
    Books setup received abort_ids sent (abort_in request_id reqs ++ others) := by
  have hMem : ∀ req ∈ abort_in request_id reqs, ∃ old ∈ reqs,
      req = old ∨ old.request_id = request_id ∧ req = old.abort := by
    intro req hReq
    obtain ⟨old, hOld, rfl⟩ := List.mem_map.mp hReq
    by_cases hSame : old.request_id = request_id
    · exact ⟨old, hOld, .inr ⟨hSame, by simp [hSame]⟩⟩
    · exact ⟨old, hOld, .inl (by simp [hSame])⟩
  have hEach : ∀ {P : Req → Prop}, (∀ req ∈ reqs ++ others, P req) →
      (∀ req, req.request_id = request_id → P req → P req.abort) →
        ∀ req ∈ abort_in request_id reqs ++ others, P req := by
    intro P hAll hAbort req hReq
    rcases List.mem_append.mp hReq with hReq | hReq
    · obtain ⟨old, hOld, rfl | ⟨hSame, rfl⟩⟩ := hMem req hReq
      · exact hAll _ (List.mem_append_left _ hOld)
      · exact hAbort old hSame (hAll old (List.mem_append_left _ hOld))
    · exact hAll req (List.mem_append_right _ hReq)
  refine ⟨h.ids, h.taken, hEach h.origin ?_, hEach h.is_open ?_, hEach h.flagged ?_,
    hEach h.said fun _ _ hSaid => hSaid, h.plain, h.known, h.final, ?_⟩
  · rintro req - ⟨origin, hOrigin, h1, h2, h3, h4⟩
    exact ⟨origin, hOrigin, h1, h2, h3, h4⟩
  · exact fun _ _ _ _ => rfl
  · exact fun req hSame _ _ => hSame ▸ hId
  · have hIds : (abort_in request_id reqs).map (·.request_id) = reqs.map (·.request_id) := by
      rw [abort_in, List.map_map]
      refine List.map_congr_left fun req _ => ?_
      by_cases hSame : req.request_id = request_id
      · simp [hSame, Req.abort]
      · simp [hSame]
    simpa [hIds] using h.accounted

theorem more_aborts {abort_ids' : List String} (h : Books setup received abort_ids sent present)
    (hMore : abort_ids ⊆ abort_ids') : Books setup received abort_ids' sent present where
  ids := h.ids
  taken := h.taken
  origin := h.origin
  is_open := h.is_open
  flagged req hReq hAborted := hMore (h.flagged req hReq hAborted)
  said := h.said
  plain := h.plain
  known := h.known
  final := h.final
  accounted := by
    obtain ⟨dropped, hDropped, hAll⟩ := h.accounted
    exact ⟨dropped, fun _ hId => hMore (hDropped hId), hAll⟩

/-! ### A pass -/

/-- What goes on after a pass over the requests. -/
theorem mem_going_on {req : Req}
    (hReq : req ∈ (reqs.map setup.go_on).filter (!·.has_generate_finished)) :
    ∃ old ∈ reqs, req = setup.go_on old ∧ (setup.go_on old).has_generate_finished = false := by
  obtain ⟨hReq, hGoes⟩ := List.mem_filter.mp hReq
  obtain ⟨old, hOld, rfl⟩ := List.mem_map.mp hReq
  exact ⟨old, hOld, rfl, by simpa using hGoes⟩

theorem ids_of_pass (h : Books setup received abort_ids sent (reqs ++ others)) :
    (reqs.map (·.request_id)).Nodup ∧
      (reqs.map (·.request_id)).Disjoint (others.map (·.request_id)) := by
  have hNodup := h.nodup
  rw [List.map_append] at hNodup
  obtain ⟨hIds, -, hApart⟩ := List.nodup_append'.mp hNodup
  exact ⟨hIds, hApart⟩

/-- A request of the pass has its token. -/
theorem said_of_pass (h : Books setup received abort_ids sent (reqs ++ others)) {req : Req}
    (hReq : req ∈ reqs) :
    RouterManager.said (sent ++ reqs.map setup.token_out) req.request_id =
      (setup.go_on req).output_ids := by
  rw [said_append, said_token_out h.ids_of_pass.1 hReq, h.said req (List.mem_append_left _ hReq)]
  rfl

/-- Nothing is said for a request that has no part in the pass. -/
theorem said_of_other {id : String} (hNot : id ∉ reqs.map (·.request_id)) :
    RouterManager.said (sent ++ reqs.map setup.token_out) id = RouterManager.said sent id := by
  have hNone : RouterManager.said (reqs.map setup.token_out) id = [] := by
    refine said_of_notMem fun out hOut hSame => ?_
    obtain ⟨req, hReq, rfl⟩ := List.mem_map.mp hOut
    exact hNot (List.mem_map.mpr ⟨req, hReq, hSame⟩)
  rw [said_append, hNone, List.append_nil]

/-- The token of a pass is the next one of its request's own sequence. -/
theorem plain_of_pass (h : Books setup received abort_ids sent (reqs ++ others))
    (hUnfinished : Unfinished reqs) {origin : Req} (hOrigin : origin ∈ received) :
    Plain setup (sent ++ reqs.map setup.token_out) origin := by
  by_cases hThere : origin.request_id ∈ reqs.map (·.request_id)
  · obtain ⟨req, hReq, hSame⟩ := List.mem_map.mp hThere
    obtain ⟨other, hOther, hFrom⟩ := h.origin req (List.mem_append_left _ hReq)
    obtain rfl : other = origin := List.inj_on_of_nodup_map h.ids hOther hOrigin
      (hFrom.request_id.symm.trans hSame)
    have hPlain := (h.plain other hOrigin).1
    rw [← hSame, h.said req (List.mem_append_left _ hReq)] at hPlain
    have hLength := hUnfinished req hReq
    unfold Plain
    rw [← hSame, h.said_of_pass hReq]
    constructor
    · have hGrown : (setup.go_on req).output_ids = req.output_ids ++ [setup.next_token req] := rfl
      rw [hGrown, List.length_append, List.length_singleton, Model.generate, ← hPlain,
        ← hFrom.adapter_dir, ← hFrom.prompt_ids]
      rfl
    · rw [← hFrom.max_output_len]
      show (req.output_ids ++ [setup.next_token req]).length ≤ req.max_output_len
      rw [List.length_append, List.length_singleton]
      exact hLength
  · have hBefore := h.plain origin hOrigin
    unfold Plain at hBefore ⊢
    rwa [said_of_other hThere]

/-- Nothing is said after the last token of a request. -/
theorem final_of_pass (h : Books setup received abort_ids sent (reqs ++ others)) :
    (sent ++ reqs.map setup.token_out).Pairwise fun out later =>
      out.has_generate_finished = true → later.request_id ≠ out.request_id := by
  refine List.pairwise_append.mpr ⟨h.final, ?_, ?_⟩
  · exact List.pairwise_map.mpr
      ((List.pairwise_map.mp h.ids_of_pass.1).imp fun hApart _ => hApart.symm)
  · intro out hOut later hLater hFinished
    obtain ⟨req, hReq, rfl⟩ := List.mem_map.mp hLater
    exact h.not_finished (List.mem_append_left _ hReq) out hOut hFinished

/-- The requests that end with a pass are those told to have ended. -/
theorem ended_or_going_on (setup : Setup σ V) (reqs : List Req) (id : String) :
    (finished_ids (reqs.map setup.token_out)).count id +
      (((reqs.map setup.go_on).filter (!·.has_generate_finished)).map (·.request_id)).count id =
        (reqs.map (·.request_id)).count id := by
  have hGone : finished_ids (reqs.map setup.token_out) =
      (reqs.filter fun req => (setup.go_on req).has_generate_finished).map (·.request_id) := by
    rw [finished_ids, List.filter_map, List.map_map]
    rfl
  have hStay : ((reqs.map setup.go_on).filter (!·.has_generate_finished)).map (·.request_id) =
      (reqs.filter fun req => !(setup.go_on req).has_generate_finished).map (·.request_id) := by
    rw [List.filter_map, List.map_map]
    rfl
  have hSplit := (List.filter_append_perm (fun req => (setup.go_on req).has_generate_finished)
    reqs).map (·.request_id)
  rw [hGone, hStay, ← List.count_append, ← List.map_append]
  exact List.perm_iff_count.mp hSplit id

/-- A pass over some of the requests. -/
theorem pass (h : Books setup received abort_ids sent (reqs ++ others))
    (hUnfinished : Unfinished reqs) :
    Books setup received abort_ids (sent ++ reqs.map setup.token_out)
      ((reqs.map setup.go_on).filter (!·.has_generate_finished) ++ others) where
  ids := h.ids
  taken := h.taken
  origin req hReq := by
    rcases List.mem_append.mp hReq with hReq | hReq
    · obtain ⟨old, hOld, rfl, -⟩ := mem_going_on hReq
      obtain ⟨origin, hOrigin, h1, h2, h3, h4⟩ := h.origin old (List.mem_append_left _ hOld)
      exact ⟨origin, hOrigin, h1, h2, h3, h4⟩
    · exact h.origin req (List.mem_append_right _ hReq)
  is_open req hReq := by
    rcases List.mem_append.mp hReq with hReq | hReq
    · obtain ⟨old, hOld, rfl, hGoes⟩ := mem_going_on hReq
      exact fun hFinished => absurd hFinished (by simp [hGoes])
    · exact h.is_open req (List.mem_append_right _ hReq)
  flagged req hReq := by
    rcases List.mem_append.mp hReq with hReq | hReq
    · obtain ⟨old, hOld, rfl, -⟩ := mem_going_on hReq
      exact h.flagged old (List.mem_append_left _ hOld)
    · exact h.flagged req (List.mem_append_right _ hReq)
  said req hReq := by
    rcases List.mem_append.mp hReq with hReq | hReq
    · obtain ⟨old, hOld, rfl, -⟩ := mem_going_on hReq
      exact h.said_of_pass hOld
    · have hNot : req.request_id ∉ reqs.map (·.request_id) := fun hThere =>
        h.ids_of_pass.2 hThere (List.mem_map_of_mem hReq)
      rw [said_of_other hNot]
      exact h.said req (List.mem_append_right _ hReq)
  plain origin hOrigin := h.plain_of_pass hUnfinished hOrigin
  known out hOut := by
    rcases List.mem_append.mp hOut with hOut | hOut
    · exact h.known out hOut
    · obtain ⟨req, hReq, rfl⟩ := List.mem_map.mp hOut
      obtain ⟨origin, hOrigin, hFrom⟩ := h.origin req (List.mem_append_left _ hReq)
      exact List.mem_map.mpr ⟨origin, hOrigin, hFrom.request_id.symm⟩
  final := h.final_of_pass
  accounted := by
    obtain ⟨dropped, hDropped, hAll⟩ := h.accounted
    refine ⟨dropped, hDropped, List.perm_iff_count.mpr fun id => ?_⟩
    have hCount := List.perm_iff_count.mp hAll id
    have hParts := ended_or_going_on setup reqs id
    rw [finished_ids_append]
    simp only [List.map_append, List.count_append] at hCount hParts ⊢
    omega

end Books

end RouterManager

end Slora
