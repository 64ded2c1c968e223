import SwarmLoRA.Slora.Router

namespace Slora

/-- The request as the worker knows it. -/
def Req.text (req : Req) : Text :=
  ⟨req.request_id, req.adapter_dir, req.prompt_ids ++ req.output_ids⟩

namespace Setup

variable {σ V : Type} (setup : Setup σ V) (req : Req)

/-- The token that the request gets next. -/
def next_token : Token := setup.model.next_of setup.weights req.text

/-- The request after a pass. -/
def go_on : Req := (req.add_token_id (setup.next_token req)).mark_finished setup.eos_id

/-- What is sent on for the request. -/
def token_out : TokenOut :=
  ⟨req.request_id, setup.next_token req, (setup.go_on req).has_generate_finished, req.aborted⟩

end Setup

namespace RouterManager

variable {σ V : Type} {setup : Setup σ V} {batch batch' : Batch} {req : Req} {reqs : List Req}
  {outs : List TokenOut} {finished : Bool}

/-- Requests are marked as finished only where they are aborted. -/
def Open (reqs : List Req) : Prop :=
  ∀ req ∈ reqs, req.has_generate_finished = true → req.aborted = true

theorem text_go_on (req : Req) :
    (setup.go_on req).text = req.text.grow setup.model setup.weights := by
  simp [Setup.go_on, Setup.next_token, Req.text, Req.mark_finished, Req.add_token_id, Text.grow]

/-- The request is marked if it ends now. -/
theorem finished_iff_ends (hOpen : req.has_generate_finished = true → req.aborted = true) :
    (setup.go_on req).has_generate_finished =
      (req.add_token_id (setup.next_token req)).ends setup.eos_id := by
  cases hFinished : req.has_generate_finished with
  | false => simp [Setup.go_on, Req.mark_finished, Req.add_token_id, hFinished]
  | true =>
      simp [Setup.go_on, Req.mark_finished, Req.add_token_id, Req.ends, hFinished, hOpen hFinished]

/-- A request that goes on may have more tokens. -/
theorem unfinished_of_go_on (h : (setup.go_on req).has_generate_finished = false) :
    (setup.go_on req).output_ids.length < (setup.go_on req).max_output_len := by
  simp only [Setup.go_on, Req.mark_finished, Req.ends, Bool.or_eq_false_iff,
    decide_eq_false_iff_not, not_le] at h ⊢
  exact h.2.2.1

theorem lookup_answer (hIds : (reqs.map (·.request_id)).Nodup) (hReq : req ∈ reqs)
    (token : Req → Token) :
    (reqs.map fun req => (req.request_id, token req)).lookup req.request_id = some (token req) := by
  induction reqs with
  | nil => exact absurd hReq List.not_mem_nil
  | cons first reqs ih =>
      obtain ⟨hNot, hRest⟩ := List.nodup_cons.mp hIds
      rcases List.mem_cons.mp hReq with rfl | hReq
      · simp
      · have : (req.request_id == first.request_id) = false := by
          refine beq_false_of_ne fun hSame => hNot ?_
          exact List.mem_map.mpr ⟨req, hReq, hSame⟩
        rw [List.map_cons, List.lookup_cons, this]
        exact ih hRest hReq

theorem find_marked (hIds : (reqs.map (·.request_id)).Nodup) (hReq : req ∈ reqs) (f : Req → Req)
    (hSame : ∀ req, (f req).request_id = req.request_id) :
    (reqs.map f).find? (·.request_id == req.request_id) = some (f req) := by
  induction reqs with
  | nil => exact absurd hReq List.not_mem_nil
  | cons first reqs ih =>
      obtain ⟨hNot, hRest⟩ := List.nodup_cons.mp hIds
      rcases List.mem_cons.mp hReq with rfl | hReq
      · simp [hSame]
      · have : ((f first).request_id == req.request_id) = false := by
          refine beq_false_of_ne fun hFirst => hNot ?_
          exact List.mem_map.mpr ⟨req, hReq, (hSame first ▸ hFirst).symm⟩
        rw [List.map_cons, List.find?_cons, this]
        exact ih hRest hReq

/-- Every request gets its token, and those that end leave the batch. -/
theorem take_answer_eq (hIds : (batch.reqs.map (·.request_id)).Nodup) (hOpen : Open batch.reqs) :
    ∃ finished, take_answer setup batch
      ((batch.reqs.map (·.text)).map (·.reply setup.model setup.weights)) =
        some (⟨batch.batch_id, (batch.reqs.map setup.go_on).filter (!·.has_generate_finished)⟩,
          finished, batch.reqs.map setup.token_out) ∧
      (finished = false → (batch.reqs.map setup.go_on).filter (!·.has_generate_finished) =
        batch.reqs.map setup.go_on) := by
  have hAnswer : (batch.reqs.map (·.text)).map (·.reply setup.model setup.weights) =
      batch.reqs.map fun req => (req.request_id, setup.next_token req) := by
    rw [List.map_map]
    rfl
  have hAdd : batch.add_token_id_to_req
      (batch.reqs.map fun req => (req.request_id, setup.next_token req)) =
        some { batch with
          reqs := batch.reqs.map fun req => req.add_token_id (setup.next_token req) } := by
    rw [Batch.add_token_id_to_req, if_pos]
    · congr 2
      refine List.map_congr_left fun req hReq => ?_
      rw [lookup_answer hIds hReq]
    · refine List.all_eq_true.mpr fun p hp => ?_
      obtain ⟨req, hReq, rfl⟩ := List.mem_map.mp hp
      exact decide_eq_true (List.mem_map_of_mem hReq)
  have hMarked : (batch.reqs.map fun req => req.add_token_id (setup.next_token req)).map
      (·.mark_finished setup.eos_id) = batch.reqs.map setup.go_on := by
    rw [List.map_map]
    rfl
  have hAll : ((batch.reqs.map fun req => req.add_token_id (setup.next_token req)).any
      (·.ends setup.eos_id)) = false →
        (batch.reqs.map setup.go_on).filter (!·.has_generate_finished) =
          batch.reqs.map setup.go_on := by
    intro hNone
    refine List.filter_eq_self.mpr fun marked hMem => ?_
    obtain ⟨req, hReq, rfl⟩ := List.mem_map.mp hMem
    rw [finished_iff_ends (hOpen req hReq)]
    simpa using List.any_eq_false.mp hNone _ (List.mem_map_of_mem hReq)
  rw [hAnswer, take_answer, hAdd, Option.map_some]
  simp only [Batch.mark_finished_req, hMarked]
  refine ⟨_, congrArg some (Prod.ext ?_ (Prod.ext rfl ?_)), hAll⟩
  · cases hFlag : (batch.reqs.map fun req => req.add_token_id (setup.next_token req)).any
        (·.ends setup.eos_id) with
    | false => simp [hAll hFlag]
    | true => rfl
  · rw [List.filterMap_map]
    refine (List.filterMap_congr fun req hReq => ?_).trans
      (congrFun (List.filterMap_eq_map' (f := setup.token_out)) batch.reqs)
    simp only [Function.comp_apply]
    rw [find_marked hIds hReq setup.go_on fun _ => rfl]
    rfl

end RouterManager

end Slora
