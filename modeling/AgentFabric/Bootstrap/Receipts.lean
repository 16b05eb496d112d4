import AgentFabric.Bootstrap.RunInvariant

/-!
# The receipts of the results

Each result that is recorded has a receipt under its idempotency key, and each receipt has its result.
-/

namespace AgentFabric.Bootstrap

open AgentFabric.Lib

variable {P : Platform}

def StepResult.receipt (r : StepResult P) : ReceiptRow := ⟨r.runId, r.stepId, r.digest, r.observedAt.text⟩

/-- Results and receipts belong together. -/
structure Receipted (db : Db P) : Prop where
  result : ∀ runId run, db.runs.get? runId = some run → ∀ s ∈ run.steps, ∀ r, s.result = some r →
    r.runId = runId ∧ r.stepId = s.stepId ∧ db.receipts.get? r.idempotencyKey = some r.receipt
  receipt : ∀ key receipt, db.receipts.get? key = some receipt → ∃ run r, db.runs.get? receipt.runId = some run ∧
    r.idempotencyKey = key ∧ receipt = r.receipt ∧ ∃ s ∈ run.steps, s.result = some r

theorem Receipted.initial : Receipted (Db.initial P) where
  result _ _ h := nomatch h
  receipt _ _ h := nomatch h

section Moves

variable {steps steps' : List (StepRow P)} {r : StepResult P}

theorem Moves.result (h : Moves steps steps') (hsound : Sound steps) {s : StepRow P} (hs : s ∈ steps)
    (hr : s.result = some r) : s ∈ steps' := by
  refine h.keeps hsound hs ?_
  have hcons := hsound.consistent s hs
  unfold StepRow.Consistent at hcons
  cases hstate : s.state with
  | satisfied => exact Or.inl rfl
  | failed => exact Or.inr rfl
  | pending =>
    rw [hstate, hr] at hcons
    cases hcons
  | blocked =>
    rw [hstate, hr] at hcons
    cases hcons
  | ready =>
    rw [hstate, hr] at hcons
    exact nomatch hcons.1
  | awaitingReview =>
    rw [hstate, hr] at hcons
    exact nomatch hcons.1
  | awaitingApproval =>
    rw [hstate, hr] at hcons
    exact nomatch hcons.1

theorem Recording.result_cases (h : Recording r steps steps') {s : StepRow P} (hs : s ∈ steps') {r' : StepResult P}
    (hr : s.result = some r') :
    (r' = r ∧ s.stepId = r.stepId) ∨ ∃ t ∈ steps, t.stepId = s.stepId ∧ t.result = some r' := by
  obtain ⟨u, hu, -, -, -⟩ := h
  obtain ⟨t, ht, rfl⟩ := mem_updateStep.mp hs
  by_cases hid : t.stepId = r.stepId
  · rw [if_pos hid] at hr ⊢
    exact Or.inl ⟨(Option.some.inj hr).symm, hid⟩
  · rw [if_neg hid] at hr ⊢
    exact Or.inr ⟨t, ht, rfl, hr⟩

theorem Recording.recorded (h : Recording r steps steps') :
    ∃ s ∈ steps', s.result = some r ∧ s.state = r.outcome.stepState ∧ s.stepId = r.stepId := by
  obtain ⟨s, hs, -, -, -⟩ := h
  obtain ⟨hmem, hid⟩ := findStep_some hs
  exact ⟨_, mem_updateStep.mpr ⟨s, hmem, (if_pos hid).symm⟩, rfl, rfl, hid⟩

end Moves

variable {db db' : Db P}

theorem Initialized.receipted {runId : Text} {profile plan : P.Json} {actor : Text} {now : Stamp}
    {planDigest profileDigest : Text} {rows steps : List (StepRow P)}
    (h : Initialized db db' runId profile plan actor now planDigest profileDigest rows steps)
    (hreceipted : Receipted db) :
    Receipted db' where
  result id run hrun s hs r hr := by
    by_cases hid : id = runId
    · subst hid
      obtain rfl := Option.some.inj (h.run.symm.trans hrun)
      obtain ⟨t, ht, -, hresult⟩ := promotions_result h.promoted hs
      rw [hresult, h.fresh.1.result t ht] at hr
      cases hr
    · rw [h.others id hid] at hrun
      rw [h.receipts]
      exact hreceipted.result id run hrun s hs r hr
  receipt key receipt hkey := by
    rw [h.receipts] at hkey
    obtain ⟨run, r, hrun, hrest⟩ := hreceipted.receipt key receipt hkey
    refine ⟨run, r, ?_, hrest⟩
    rw [h.others, hrun]
    rintro rfl
    rw [h.absent] at hrun
    cases hrun

theorem Recorded.receipted {r : StepResult P} {run : RunRow P} {mid steps : List (StepRow P)}
    (h : Recorded db db' r run mid steps) (hsound : Sound run.steps) (hreceipted : Receipted db) : Receipted db' := by
  have hmid := Move.sound (Or.inr ⟨r, h.recording⟩) hsound
  have hold : ∀ {key receipt}, db.receipts.get? key = some receipt → db'.receipts.get? key = some receipt := by
    intro key receipt hkey
    rw [h.receipts, Table.get?_upsert, if_neg, hkey]
    rintro rfl
    rw [h.absent] at hkey
    cases hkey
  refine ⟨fun id run' hrun s hs r' hr => ?_, fun key receipt hkey => ?_⟩
  · by_cases hid : id = r.runId
    · subst hid
      obtain rfl := Option.some.inj (h.run.symm.trans hrun)
      obtain ⟨t, ht, hplan, hresult⟩ := promotions_result h.promoted hs
      rw [hresult] at hr
      rcases h.recording.result_cases ht hr with ⟨rfl, hstep⟩ | ⟨u, hu, hstep, hr⟩
      · refine ⟨rfl, (hplan.stepId.trans hstep).symm, ?_⟩
        rw [h.receipts, Table.get?_upsert, if_pos rfl]
        rfl
      · obtain ⟨hrunId, hstepId, hreceipt⟩ := hreceipted.result _ run h.found u hu r' hr
        exact ⟨hrunId, hstepId.trans (hstep.trans hplan.stepId.symm), hold hreceipt⟩
    · rw [h.others id hid] at hrun
      obtain ⟨hrunId, hstepId, hreceipt⟩ := hreceipted.result id run' hrun s hs r' hr
      exact ⟨hrunId, hstepId, hold hreceipt⟩
  · rw [h.receipts, Table.get?_upsert] at hkey
    split at hkey
    · next heq =>
      obtain rfl := Option.some.inj hkey
      obtain ⟨s, hs, hr, -, -⟩ := h.recording.recorded
      exact ⟨_, r, h.run, heq.symm, rfl, s, (promotions_moves h.promoted).result hmid hs hr, hr⟩
    · obtain ⟨run', r', hrun, hkey', hreceipt, s, hs, hr⟩ := hreceipted.receipt key receipt hkey
      by_cases hid : receipt.runId = r.runId
      · rw [hid] at hrun ⊢
        obtain rfl := Option.some.inj (h.found.symm.trans hrun)
        exact ⟨_, r', h.run, hkey', hreceipt, s, h.moves.result hsound hs hr, hr⟩
      · exact ⟨run', r', by rw [h.others _ hid, hrun], hkey', hreceipt, s, hs, hr⟩

/-- Every call keeps that results have receipts. -/
theorem Call.apply_receipted (hkept : AllKept db) (h : Receipted db) (c : Call P) :
    Receipted (c.apply db) := by
  rcases c.apply_cases hkept with hsame | ⟨-, ⟨_, _, _, _, _, _, _, _, _, -, hinit⟩ | ⟨r, run, _, _, -, hrec⟩⟩
  · exact hsame.symm ▸ h
  · exact hinit.receipted h
  · exact hrec.receipted (hkept _ run hrec.found).sound h

theorem runCalls_receipted (calls : List (Call P)) : ∀ {db : Db P}, AllKept db → Receipted db →
    Receipted (runCalls db calls) := by
  induction calls with
  | nil => exact fun _ h => h
  | cons c calls ih => exact fun hkept h => ih (c.apply_kept hkept) (c.apply_receipted hkept h)

/-- A key stands for one step of one run. -/
theorem Receipted.result_unique (h : Receipted db) {runId : Text} {run : RunRow P}
    (hrun : db.runs.get? runId = some run) {s t : StepRow P} (hs : s ∈ run.steps) (ht : t ∈ run.steps)
    {r q : StepResult P} (hr : s.result = some r) (hq : t.result = some q)
    (hkey : r.idempotencyKey = q.idempotencyKey) :
    s.stepId = t.stepId := by
  obtain ⟨-, hrs, hr⟩ := h.result runId run hrun s hs r hr
  obtain ⟨-, hqt, hq⟩ := h.result runId run hrun t ht q hq
  rw [hkey, hq] at hr
  have hstep := congrArg ReceiptRow.stepId (Option.some.inj hr)
  exact hrs.symm.trans (hstep.symm.trans hqt)

/-- A receipt stays. -/
theorem Call.apply_receipts (hkept : AllKept db) (c : Call P) {key : Text} {receipt : ReceiptRow}
    (h : db.receipts.get? key = some receipt) : (c.apply db).receipts.get? key = some receipt := by
  rcases c.apply_cases hkept with hsame | ⟨-, ⟨_, _, _, _, _, _, _, _, _, -, hinit⟩ | ⟨r, run, _, _, -, hrec⟩⟩
  · rw [hsame, h]
  · rw [hinit.receipts, h]
  · rw [hrec.receipts, Table.get?_upsert, if_neg, h]
    rintro rfl
    rw [hrec.absent] at h
    cases h

theorem runCalls_receipts (calls : List (Call P)) : ∀ {db : Db P}, AllKept db → ∀ {key : Text} {receipt : ReceiptRow},
    db.receipts.get? key = some receipt → (runCalls db calls).receipts.get? key = some receipt := by
  induction calls with
  | nil => exact fun _ _ _ h => h
  | cons c calls ih => exact fun hkept _ _ h => ih (c.apply_kept hkept) (c.apply_receipts hkept h)

end AgentFabric.Bootstrap
