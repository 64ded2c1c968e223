import SwarmLoRA.Barrier.Outputs
import SwarmLoRA.Barrier.Stranded

namespace Barrier

open Ipc Aggregator Machine

/-- The last token so far is the end-of-sequence token. -/
def endsInEos (c : Config) (w : Worker) : Bool :=
  match c.eos_token_id, w.generated_tokens.getLast? with
  | some eos, some token => token.token_id == eos
  | _, _ => false

/-- The token in progress is the last one that was asked for, or the request is already
complete. -/
def lastToken (c : Config) (w : Worker) : Bool :=
  match w.pc with
  | .op _ _ _ => decide (w.max_tokens ≤
      w.generated_tokens.length + if 0 < w.prefill_chunks then 0 else 1)
  | .tokenEnd _ => completes c w
  | _ => false

namespace WorkerPc

/-- The request has been found complete. -/
def succeeding : WorkerPc → Bool
  | .leave _ f | .release _ f | .releasing _ f | .released f => f
  | .awaitLeave _ => true
  | _ => false

/-- No token has been sampled for the request yet. -/
def starting : WorkerPc → Bool
  | .claiming | .claimed _ | .prepared _ | .polling _ => true
  | _ => false

/-- The worker is within a token or about to begin one. -/
def sampling : WorkerPc → Bool
  | .tokenStart _ | .op _ _ _ => true
  | _ => false

end WorkerPc

namespace State

/-- The slots that the step evicts. -/
def evicts (s : State) : Label → SlotMask
  | .aggregate _ _ =>
      if s.agg.pc = .loadStuck 1 then
        s.agg.active_mask &&& ~~~s.agg.load 1 s.ctrl.per_slot_ready_mask
      else .zero
  | _ => .zero

/-- The step reads an end-of-sequence token that the worker will keep. -/
def readsEos (s : State) (c : Config) : Label → Bool
  | .work p _ _ =>
      match (s.workers p).pc with
      | .op i k (.fetch _ _) => decide (k + 1 = c.ops_per_token) &&
          decide ((s.workers p).prefill_chunks = 0) &&
          decide (c.eos_token_id = some (s.output i).token_id)
      | _ => false
  | _ => false

end State

/-- The condition on a step, beyond intact batches: no slot is evicted while its worker is
in the last token of its request, no worker begins a token between the removal of its
slot and the setting of its eviction bit, and an evicted worker reads no end-of-sequence
token. -/
structure Heeded (c : Config) (s : State) (l : Label) : Prop where
  undisturbed : Undisturbed s l
  unleft : Unleft s l
  drained : s.spinsOut l = false
  evicting : ∀ p i, (s.workers p).crashed = false → (s.workers p).pc.slot = some i →
    (s.evicts l).test_bit i = true → lastToken c (s.workers p) = false
  begun : ∀ p v b, l = .work p v b → (s.workers p).evicted = true → s.begins l = false
  sampled : ∀ p v b, l = .work p v b → (s.workers p).evicted = true → s.readsEos c l = false

/-- A worker whose request has not been evicted has only fresh tokens, and one whose
request has been evicted is not about to complete it. -/
structure Marked (c : Config) (w : Worker) : Prop where
  fresh : w.pc ≠ .idle → w.evicted = false → ∀ token ∈ w.generated_tokens, token.fresh = true
  succeeding : w.pc.succeeding = true → w.evicted = false
  last : w.crashed = false → w.evicted = true → lastToken c w = false
  eos : w.pc.sampling = true → endsInEos c w = false
  start : w.pc.starting = true → w.generated_tokens = []

/-- A completion that reports success is of a request that was never evicted, and every
token of its text was sampled in a round that executed the worker's command. -/
def Completion.Sound (completion : Completion) : Prop :=
  completion.success = true → completion.evicted = false ∧
    ∀ token ∈ completion.tokens, token.fresh = true

variable {c : Config} {s s' : State} {p : Nat} {i : Slot} {timer : Bool} {sample : Slot → Nat}

theorem completes_eq (w : Worker) : completes c w =
    (decide (w.max_tokens ≤ w.generated_tokens.length) || endsInEos c w) := rfl

theorem Marked.setPc {w : Worker} (h : Marked c w) (hBusy : w.pc ≠ .idle) (pc : WorkerPc)
    (hSucceeding : pc.succeeding = true → w.evicted = false)
    (hLast : w.crashed = false → w.evicted = true → lastToken c { w with pc } = false)
    (hEos : pc.sampling = true → endsInEos c w = false)
    (hStart : pc.starting = true → w.generated_tokens = []) : Marked c { w with pc } :=
  ⟨fun _ => h.fresh hBusy, hSucceeding, hLast, hEos, hStart⟩

/-- Every worker keeps its mark if those that the step changes do. -/
theorem marked_update {w : Worker} (h : ∀ q, Marked c (s.workers q)) (hNew : Marked c w) (q : Nat) :
    Marked c (Function.update s.workers p w q) := by
  by_cases hq : q = p
  · subst hq
    simpa using hNew
  · simpa [hq] using h q

theorem Advance.busy {l : Label} {pc pc' : WorkerPc} (hMove : Advance c s p l pc pc') :
    pc ≠ .idle := by
  cases hMove with
  | failPending hPending => rcases hPending with rfl | rfl <;> simp
  | failActive hRunning => rcases hRunning with rfl | rfl | ⟨_, _, rfl, -⟩ <;> simp
  | _ => simp

theorem WorkerMove.busy {l : Label} (hMove : WorkerMove c s p l s') : (s.workers p).pc ≠ .idle := by
  cases hMove with
  | advance hMove => exact hMove.busy
  | claimThrew hPc _ | claimReturned hPc _ | join hPc | evicted hPc _ | prepare hPc | submit hPc
  | signal hPc | sample hPc _ | leave hPc | release hPc | releaseThrew hPc _ | finish hPc _ =>
      simp [hPc]

theorem Marked.advance {l : Label} {pc : WorkerPc} (h : Marked c (s.workers p))
    (hLive : (s.workers p).crashed = false) (hGuard : Heeded c s l)
    (hMove : Advance c s p l (s.workers p).pc pc) : Marked c { s.workers p with pc } := by
  have hBusy := hMove.busy
  have hLast := h.last hLive
  have hEos := h.eos
  have hStart := h.start
  have hSucceeding := h.succeeding
  simp only [lastToken] at hLast
  generalize hPc : (s.workers p).pc = old at hMove hLast hEos hStart hSucceeding
  cases hMove with
  | activated hActive =>
      refine h.setPc hBusy _ (by simp [WorkerPc.succeeding]) (by simp [lastToken]) (fun _ => ?_)
        (by simp [WorkerPc.starting])
      rw [endsInEos, hStart rfl]
      cases c.eos_token_id <;> rfl
  | @begin i v b hNot =>
      refine h.setPc hBusy _ (by simp [WorkerPc.succeeding]) (fun _ hEvicted => ?_) (fun _ => hEos rfl)
        (by simp [WorkerPc.starting])
      have hBegun := hGuard.begun p v b rfl hEvicted
      simp [State.begins, hPc, hNot] at hBegun
  | capture | published hEpoch | fetched hMore =>
      exact h.setPc hBusy _ (by simp [WorkerPc.succeeding]) (fun _ => hLast) (fun _ => hEos rfl)
        (by simp [WorkerPc.starting])
  | complete hDone =>
      refine h.setPc hBusy _ (fun _ => ?_) (by simp [lastToken]) (by simp [WorkerPc.sampling])
        (by simp [WorkerPc.starting])
      by_contra hEvicted
      simp [hLast (by simpa using hEvicted)] at hDone
  | again hDone =>
      refine h.setPc hBusy _ (by simp [WorkerPc.succeeding]) (by simp [lastToken]) (fun _ => ?_)
        (by simp [WorkerPc.starting])
      rw [completes_eq, Bool.or_eq_false_iff] at hDone
      exact hDone.2
  | acknowledged hActive | notAcknowledged hActive =>
      exact h.setPc hBusy _ (fun _ => hSucceeding rfl) (by simp [lastToken]) (by simp [WorkerPc.sampling])
        (by simp [WorkerPc.starting])
  | _ =>
      exact h.setPc hBusy _ (by simp [WorkerPc.succeeding]) (by simp [lastToken])
        (by simp [WorkerPc.sampling]) (by simp [WorkerPc.starting])

/-- The token that a worker samples while it has not been evicted is fresh. -/
theorem Produced.fresh {k e x : Nat} (h : Produced c s) (hRunning : Running c s)
    (hMembership : Membership s) (hLive : (s.workers p).crashed = false)
    (hPc : (s.workers p).pc = .op i k (.fetch e x)) (hLast : k + 1 = c.ops_per_token)
    (hEvicted : (s.workers p).evicted = false) :
    (s.output i).round = e ∧ (s.output i).op_type = OP_LM_HEAD := by
  have hSlot : (s.workers p).pc.slot = some i := by rw [hPc]; rfl
  have hActive : s.agg.active_mask.test_bit i = true := by
    rcases hMembership.running i p hLive hSlot (by rw [hPc]; rfl) with hIn | hMarked
    · exact hIn
    · simp [hEvicted] at hMarked
  have hIn := hRunning.round.in_step i p hActive hSlot
  rw [hPc] at hIn
  obtain ⟨token, hOutput⟩ := h.output p i k e x hActive hSlot (by rw [hPc]; rfl) (.inl hIn.1)
  have hHead : (c.opAt k).1 = OP_LM_HEAD := by
    simp only [Config.ops_per_token] at hLast
    rw [Config.opAt, if_neg (by omega), if_pos (by omega)]
  rw [hOutput]
  exact ⟨rfl, hHead⟩

theorem Marked.take {k e x v : Nat} {b : Bool} (h : Marked c (s.workers p))
    (hLive : (s.workers p).crashed = false) (hGuard : Heeded c s (.work p v b))
    (hPc : (s.workers p).pc = .op i k (.fetch e x)) (hLast : k + 1 = c.ops_per_token)
    (hFresh : (s.workers p).evicted = false →
      (s.output i).round = e ∧ (s.output i).op_type = OP_LM_HEAD) :
    Marked c { takeToken (s.workers p) ⟨(s.output i).token_id,
      decide ((s.output i).round = e ∧ (s.output i).op_type = OP_LM_HEAD)⟩ with
      pc := .tokenEnd i } := by
  have hEos := h.eos (by rw [hPc]; rfl)
  have hCount := h.last hLive
  simp only [lastToken, hPc, decide_eq_false_iff_not] at hCount
  unfold takeToken
  split
  next hPrefill =>
    refine ⟨fun _ => h.fresh (by simp [hPc]), by simp [WorkerPc.succeeding], fun _ hEvicted => ?_,
      by simp [WorkerPc.sampling], by simp [WorkerPc.starting]⟩
    have hCount := hCount hEvicted
    rw [if_pos hPrefill] at hCount
    change completes c _ = false
    rw [completes_eq, Bool.or_eq_false_iff]
    exact ⟨by simpa using hCount, hEos⟩
  next hPrefill =>
    refine ⟨fun _ hEvicted token hToken => ?_, by simp [WorkerPc.succeeding], fun _ hEvicted => ?_,
      by simp [WorkerPc.sampling], by simp [WorkerPc.starting]⟩
    · rcases List.mem_append.mp hToken with hOld | hNew
      · exact h.fresh (by simp [hPc]) hEvicted token hOld
      · rw [List.mem_singleton] at hNew
        subst hNew
        exact decide_eq_true (hFresh hEvicted)
    · have hCount := hCount hEvicted
      rw [if_neg hPrefill] at hCount
      have hToken := hGuard.sampled p v b rfl hEvicted
      have hZero : (s.workers p).prefill_chunks = 0 := by omega
      simp only [State.readsEos, hPc, hLast, hZero, decide_true, Bool.true_and,
        decide_eq_false_iff_not] at hToken
      change completes c _ = false
      rw [completes_eq, Bool.or_eq_false_iff]
      refine ⟨by simpa using hCount, ?_⟩
      simp only [endsInEos, List.getLast?_append, List.getLast?_singleton, Option.some_or]
      cases hEosId : c.eos_token_id with
      | none => rfl
      | some eos =>
          rw [hEosId] at hToken
          exact beq_eq_false_iff_ne.mpr fun hEq => hToken (by rw [← hEq])

theorem Marked.worker {l : Label} (h : ∀ q, Marked c (s.workers q)) (hRunning : Running c s)
    (hProduced : Produced c s) (hMembership : Membership s)
    (hLive : (s.workers p).crashed = false) (hGuard : Heeded c s l)
    (hMove : WorkerMove c s p l s') (q : Nat) : Marked c (s'.workers q) := by
  have hOwn := h p
  have hBusy := hMove.busy
  -- a position at which the request is neither being generated nor complete
  have hStill : ∀ pc : WorkerPc, pc.succeeding = false → pc.starting = false →
      pc.sampling = false → (∀ w : Worker, lastToken c { w with pc } = false) →
      Marked c { s.workers p with pc } := fun pc hDone hStart hSampling hLast =>
    hOwn.setPc hBusy pc (by simp [hDone]) (fun _ _ => hLast _) (by simp [hSampling]) (by simp [hStart])
  -- a position within the same operation
  have hWithin : ∀ {i k stage} stage', (s.workers p).pc = .op i k stage →
      Marked c { s.workers p with pc := .op i k stage' } := fun stage' hPc =>
    hOwn.setPc hBusy _ (by simp [WorkerPc.succeeding])
      (fun hLive hEvicted => by simpa [lastToken, hPc] using hOwn.last hLive hEvicted)
      (fun _ => hOwn.eos (by rw [hPc]; rfl)) (by simp [WorkerPc.starting])
  cases hMove with
  | advance hMove => exact marked_update h (hOwn.advance hLive hGuard hMove) q
  | claimThrew hPc _ | finish hPc _ =>
      exact marked_update h (hStill .idle rfl rfl rfl fun _ => rfl) q
  | @claimReturned i _ _ hPc _ =>
      exact marked_update h (hOwn.setPc hBusy _ (by simp [WorkerPc.succeeding]) (by simp [lastToken])
        (by simp [WorkerPc.sampling]) fun _ => hOwn.start (by rw [hPc]; rfl)) q
  | @join i _ _ hPc =>
      exact marked_update h (hOwn.setPc hBusy _ (by simp [WorkerPc.succeeding]) (by simp [lastToken])
        (by simp [WorkerPc.sampling]) fun _ => hOwn.start (by rw [hPc]; rfl)) q
  | @evicted i _ _ hPc _ =>
      exact marked_update h (hStill (.leave i false) rfl rfl rfl fun _ => rfl) q
  | prepare hPc => exact marked_update h (hWithin _ hPc) q
  | @submit i k e x spc _ b hPc =>
      refine marked_update h ?_ q
      cases (s.ring.submit Submission.layout (c.submission k i p e) b spc).2 with
      | full => exact hStill (.leave i false) rfl rfl rfl fun _ => rfl
      | _ => exact hWithin _ hPc
  | signal hPc => exact marked_update h (hWithin _ hPc) q
  | @sample i k e x v b hPc hLast =>
      exact marked_update h (hOwn.take hLive hGuard hPc hLast fun hEvicted =>
        hProduced.fresh hRunning hMembership hLive hPc hLast hEvicted) q
  | @leave i f _ _ hPc =>
      have hDone : f = true → (s.workers p).evicted = false := fun hf =>
        hOwn.succeeding (by rw [hPc]; exact hf)
      refine marked_update h ?_ q
      cases f with
      | true =>
          exact hOwn.setPc hBusy _ (fun _ => hDone rfl) (by simp [lastToken])
            (by simp [WorkerPc.sampling]) (by simp [WorkerPc.starting])
      | false => exact hStill (.release i false) rfl rfl rfl fun _ => rfl
  | @release i f _ _ hPc =>
      exact marked_update h (hOwn.setPc hBusy _ (fun hf => hOwn.succeeding (by rw [hPc]; exact hf))
        (by simp [lastToken]) (by simp [WorkerPc.sampling]) (by simp [WorkerPc.starting])) q
  | @releaseThrew i f _ _ hPc _ =>
      exact marked_update h (hOwn.setPc hBusy _ (fun hf => hOwn.succeeding (by rw [hPc]; exact hf))
        (by simp [lastToken]) (by simp [WorkerPc.sampling]) (by simp [WorkerPc.starting])) q

/-- A connection thread leaves the request of its worker where it was, apart from the
position that follows a change of ownership. -/
theorem Marked.call (h : ∀ q, Marked c (s.workers q)) (hTenancy : Tenancy s)
    (hMove : CallMove s p s') (q : Nat) : Marked c (s'.workers q) := by
  have hc := hTenancy.coherent p
  have hOwn := h p
  cases hMove with
  | @own w i hCall =>
      rw [hCall] at hc
      have hBusy : (s.workers p).pc ≠ .idle := by simp [hc.2]
      refine marked_update h (hOwn.setPc hBusy _ (by simp [WorkerPc.succeeding]) (by simp [lastToken])
        (by simp [WorkerPc.sampling]) fun _ => hOwn.start ?_) q
      rw [hc.2]
      rfl
  | @giveUp w i hCall hOwner =>
      rw [hCall] at hc
      have hBusy : (s.workers p).pc ≠ .idle := by
        intro hIdle
        simp [Coherent, hIdle, WorkerPc.slot] at hc
      refine marked_update h (hOwn.setPc hBusy _ (fun hf => hOwn.succeeding ?_) (by simp [lastToken])
        (by simp [WorkerPc.sampling]) (by simp [WorkerPc.starting])) q
      revert hf
      cases (s.workers p).pc <;> simp [WorkerPc.succeeding, WorkerPc.succeeded]
  | _ => exact h q

/-- The main loop marks the requests that it evicts, and none of them is in its last token. -/
theorem Marked.aggregate (h : ∀ q, Marked c (s.workers q)) (hMove : AggregateMove c s timer sample s')
    (hGuard : Heeded c s (.aggregate timer sample)) (q : Nat) : Marked c (s'.workers q) := by
  have hOwn := h q
  cases hMove with
  | @evict stuck hPc hStuck =>
      dsimp only
      split
      next hHit =>
        rw [Bool.and_eq_true, Option.any_eq_true] at hHit
        obtain ⟨hGenerating, i, hi, hBit⟩ := hHit
        refine ⟨by simp, fun hSucceeding => ?_, fun hLive _ => ?_, hOwn.eos, hOwn.start⟩
        · revert hGenerating hSucceeding
          cases (s.workers q).pc <;> simp [WorkerPc.generating, WorkerPc.succeeding]
        · refine hGuard.evicting q i hLive hi ?_
          rw [State.evicts, if_pos hPc, ← hStuck]
          exact hBit
      next => exact hOwn
  | _ => exact hOwn

theorem Marked.move {l : Label} (h : ∀ q, Marked c (s.workers q)) (hTenancy : Tenancy s)
    (hRunning : Running c s) (hProduced : Produced c s) (hMembership : Membership s)
    (hMove : Move c s l s') (hGuard : Heeded c s l) (q : Nat) : Marked c (s'.workers q) := by
  cases hMove with
  | worker hLive hMove => exact Marked.worker h hRunning hProduced hMembership hLive hGuard hMove q
  | call hMove => exact Marked.call h hTenancy hMove q
  | aggregate hMove => exact Marked.aggregate h hMove hGuard q
  | @request p _ _ w hPc hLive hWorker =>
      refine marked_update h ?_ q
      rw [hWorker]
      exact ⟨by simp, by simp, by simp, by simp [WorkerPc.sampling], fun _ => rfl⟩
  | @crash p hLive =>
      exact marked_update (w := { s.workers p with crashed := true }) h
        ⟨(h p).fresh, (h p).succeeding, by simp, (h p).eos, (h p).start⟩ q
  | @disconnect p i _ _ _ _ =>
      exact marked_update (w := { s.workers p with handler := .sleeping i }) h
        ⟨(h p).fresh, (h p).succeeding, (h p).last, (h p).eos, (h p).start⟩ q
  | @deferredRelease p i _ =>
      exact marked_update (w := { s.workers p with handler := .done }) h
        ⟨(h p).fresh, (h p).succeeding, (h p).last, (h p).eos, (h p).start⟩ q

/-- A future is completed with what the worker knows of the request, and only in the step
that ends it. -/
theorem Move.completions {l : Label} (hMove : Move c s l s') :
    s'.completions = s.completions ∨ ∃ p f, (s.workers p).pc = .released f ∧
      s'.completions = s.completions ++
        [⟨p, f, (s.workers p).evicted, (s.workers p).generated_tokens⟩] := by
  cases hMove with
  | @worker _ p _ hLive hMove =>
      cases hMove with
      | @finish f _ _ hPc _ => exact .inr ⟨p, f, hPc, rfl⟩
      | _ => exact .inl rfl
  | call hMove => cases hMove <;> exact .inl rfl
  | aggregate hMove => cases hMove <;> exact .inl rfl
  | _ => exact .inl rfl

/-- In every run whose steps meet the condition, every request that is reported as a success has
never been evicted and was answered with fresh tokens only. Evictions are heeded from one token to
the next: the condition rules them out in the last token of a request, and between the removal of a
slot and the setting of its bit. -/
theorem sound_of_heeded (run : (machine c).Reach (Heeded c) s) :
    ∀ completion ∈ s.completions, completion.Sound := by
  have hStart : ∀ s : State, Initial s → (∀ q, Marked c (s.workers q)) ∧
      ∀ completion ∈ s.completions, completion.Sound := by
    intro s h
    refine ⟨fun q => ?_, by simp [h.completions]⟩
    have hIdle := (h.workers q).1
    exact ⟨by simp [hIdle], by simp [hIdle, WorkerPc.succeeding], by simp [lastToken, hIdle],
      by simp [hIdle, WorkerPc.sampling], by simp [hIdle, WorkerPc.starting]⟩
  refine (run.invariant_of_reach (fun s => (∀ q, Marked c (s.workers q)) ∧
    ∀ completion ∈ s.completions, completion.Sound) hStart ?_).2
  intro s l s' prior h hMeets hStep
  have hTenancy := tenancy_of_reach (fun _ _ hs => hs.undisturbed.claimed) prior
  have hBoth := produced_of_reach (fun _ _ hs => ⟨hs.undisturbed, hs.drained⟩) prior
  have hMembership := membership_of_reach (fun _ _ hs => ⟨hs.undisturbed.claimed, hs.unleft⟩) prior
  have hMove := move_of_step hStep
  refine ⟨Marked.move h.1 hTenancy hBoth.1 hBoth.2 hMembership hMove hMeets, ?_⟩
  rcases hMove.completions with hSame | ⟨p, f, hPc, hNew⟩
  · rw [hSame]
    exact h.2
  · intro completion hIn
    rw [hNew, List.mem_append, List.mem_singleton] at hIn
    rcases hIn with hOld | rfl
    · exact h.2 completion hOld
    · intro hSuccess
      have hKept := (h.1 p).succeeding (by rw [hPc]; exact hSuccess)
      exact ⟨hKept, (h.1 p).fresh (by simp [hPc]) hKept⟩

/-- The worker whose inference loop the step belongs to. -/
def actor : Label → Option Nat
  | .work p _ _ => some p
  | _ => none

/-- The condition on a step of a run without evictions in which no slot is activated while
a command is outstanding. -/
theorem heeded_of_no_eviction {l : Label} (hUnmarked : Unmarked s l) (hUnleft : Unleft s l)
    (hReleases : (s.releases l).all (fun i => !s.agg.active_mask.test_bit i) = true)
    (hActivates : s.activates l = .zero ∨ s.ring.log.drop s.agg.finished = [])
    (hRoom : s.reserves l = true → s.ring.log.length < s.agg.finished + s.ring.capacity)
    (hReached : s.beyondDrain l = []) (hDrained : s.spinsOut l = false)
    (hEvicts : s.evicts l = .zero) (hActor : ∀ p ∈ actor l, (s.workers p).evicted = false) :
    Heeded c s l := by
  have hActivated : ∀ i, (s.activates l).test_bit i = true → ¬s.outstanding i := by
    intro i hi
    rcases hActivates with hNone | hDrain
    · simp [hNone] at hi
    · simp [State.outstanding, hDrain]
  have hUndisturbed : Undisturbed s l :=
    ⟨hUnmarked, fun i hi h => by
      have hInactive := (Option.all_eq_true ..).mp hReleases i hi
      simp [h.1] at hInactive, hActivated, hRoom,
      by simp [hReached]⟩
  have hNever : ∀ p v b, l = .work p v b → (s.workers p).evicted ≠ true := by
    rintro p v b rfl
    simp [hActor p rfl]
  exact ⟨hUndisturbed, hUnleft, hDrained, fun p i _ _ hHit => by simp [hEvicts] at hHit,
    fun p v b hl h => absurd h (hNever p v b hl), fun p v b hl h => absurd h (hNever p v b hl)⟩

/-- Worker 0 joins and generates the only token of its request, alone in the pool. -/
def tokenSchedule : List Label :=
  joinSchedule 0 1 ++ rounds 9 ++ (List.replicate 6 opRound).flatten

/-- The requests of two workers are run side by side, complete, are released one after the
other, and are reported as successes. -/
theorem sound_of_two_workers : ∃ s, (machine oneLayer).Reach (Heeded oneLayer) s ∧
    s.completions = [⟨0, true, false, [⟨1, true⟩]⟩, ⟨1, true, false, [⟨1, true⟩]⟩] ∧
    ∀ completion ∈ s.completions, completion.Sound := by
  have hRun : ((machine oneLayer).replayUnder
      (fun s l => Unmarked s l ∧ Unleft s l ∧
        (s.releases l).all (fun i => !s.agg.active_mask.test_bit i) = true ∧
        (s.activates l = .zero ∨ s.ring.log.drop s.agg.finished = []) ∧
        (s.reserves l = true → s.ring.log.length < s.agg.finished + s.ring.capacity) ∧
        s.beyondDrain l = [] ∧ s.spinsOut l = false ∧ s.evicts l = .zero ∧
        ∀ p ∈ actor l, (s.workers p).evicted = false) twoSlotStart
      (joinSchedule 0 1 ++ joinSchedule 1 1 ++ rounds 9 ++
        (List.replicate 6 (works 0 10 ++ works 1 10 ++ rounds 14)).flatten ++
        works 0 4 ++ works 1 4 ++ rounds 9 ++ works 0 2 ++ works 1 2 ++
        rpcs 0 4 ++ rpcs 1 4 ++ works 0 1 ++ works 1 1)).map (·.completions) =
      some [⟨0, true, false, [⟨1, true⟩]⟩, ⟨1, true, false, [⟨1, true⟩]⟩] := by decide +kernel
  obtain ⟨s, hReplay, hDone⟩ := Option.map_eq_some_iff.mp hRun
  have run := System.reach_of_replayUnder (.start (twoSlotStart_initial oneLayer)) hReplay
  have run' : (machine oneLayer).Reach (Heeded oneLayer) s :=
    run.transfer fun _ _ _ _ ⟨h1, h2, h3, h4, h5, h6, h7, h8, h9⟩ _ =>
      heeded_of_no_eviction h1 h2 h3 h4 h5 h6 h7 h8 h9
  exact ⟨s, run', hDone, sound_of_heeded run'⟩

/-- The LM head of worker 0's only token has been executed, and the worker is slow to read
the token. The main loop waits for it in the next round and evicts its slot. The worker
then finds its request complete, and never looks at the eviction bit. -/
theorem evicted_request_succeeds : ¬ ∀ s, (machine oneLayer).Reachable s →
    ∀ completion ∈ s.completions, completion.Sound := by
  intro hAll
  have hRun : ((machine oneLayer).replay twoSlotStart
      (tokenSchedule ++ rounds 10 ++ .aggregate true (fun _ => 1) :: rounds 6 ++ works 0 6 ++
        rpcs 0 4 ++ works 0 1)).map (·.completions) =
      some [⟨0, true, true, [⟨1, true⟩]⟩] := by decide +kernel
  obtain ⟨s, hReplay, hDone⟩ := Option.map_eq_some_iff.mp hRun
  have run := System.reachable_of_replay (.start (twoSlotStart_initial oneLayer)) hReplay
  have hSound := hAll s run ⟨0, true, true, [⟨1, true⟩]⟩ (by simp [hDone])
  simp [Completion.Sound] at hSound

end Barrier
