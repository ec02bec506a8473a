import LiteRpc.Bench.BulkSend

/-!
# What one round of `'pooling_loop` does, and what it does not

Inside the round of `send_and_confirm_bulk_transactions`, a status below
`confirmed` runs `continue 'pooling_loop`.  That restarts the outer loop: the
rest of the batch is skipped, `iteration` is not incremented and nothing sleeps.
A signature that a node reports as `processed` therefore keeps the loop busy
polling, and the cap of 100 rounds never comes
(`bulk_polling_never_stops`); and which confirmed signatures a round records
depends on where the hash set happens to list the `processed` one
(`bulk_round_depends_on_order`).  The skipped statuses are only a problem of the
`continue`'s label: the `None` arm next to it just goes on with the batch.

A failed `get_signature_statuses` is not retried either: `?` passes it up, so it
is the last query of the run and the call returns its error
(`bulk_status_error_ends_run`).

What a round does ask is always the pending set at that moment, which only
shrinks: a signature that has left it, recorded, is never asked about again
(`bulk_queries_only_pending`).
-/

namespace LiteRpc.Bench

variable {Sig : Type} [DecidableEq Sig]

/-- A poll whose first two slots are one apart ends at the second. -/
theorem pollNextSlotStart_of_first_two {getSlot : Nat → Except ClientError Slot} {a : Slot}
    (h0 : getSlot 0 = .ok a) (h1 : getSlot 1 = .ok (a + 1)) :
    pollNextSlotStart getSlot = (.ok (a + 1), 2) := by
  rw [pollNextSlotStart, pollNextSlotStartLoop_of_ok _ a (by omega) h0,
    pollNextSlotStartLoop_of_ok _ (a + 1) (by omega) h1]
  simp

/-- The run from `s₀` never ends if none of its states is a halting one. -/
theorem runPolling_eq_none {env : Env Sig} {sendSlot : Slot} {n : Nat} {s₀ : PollState Sig}
    (h : ∀ s, Reachable env sendSlot n s₀ s → s.halted = false) (fuel : Nat) :
    runPolling env sendSlot n fuel s₀ = none := by
  induction fuel generalizing s₀ with
  | zero => simp [runPolling, h s₀ (.refl _)]
  | succ fuel ih =>
    rw [runPolling, if_neg (by simp [h s₀ (.refl _)])]
    exact ih fun s ⟨m, hm⟩ => h s ⟨m + 1, by rw [Function.iterate_succ_apply, hm]⟩

/-! ## A `processed` status keeps the loop going for ever -/

/-- A status as a node reports it before the cluster confirms: `processed`. -/
def processedStatus : TransactionStatus :=
  { slot := 5, confirmations := some 0, confirmationStatus? := some .processed }

/-- A status at `confirmed`. -/
def confirmedStatus : TransactionStatus :=
  { slot := 5, confirmations := some 1, confirmationStatus? := some .confirmed }

/-- An endpoint whose slot advances by one per query, that accepts every
transaction, and that reports every signature as `processed` for ever. -/
def processedForeverEnv : Env Nat where
  getSlot n := .ok n.toUInt64
  sendTransaction _ tx _ := .ok tx.signature
  getSignatureStatuses _ batch := .ok (batch.map fun _ => some processedStatus)
  statusOrder _ := IterOrder.stored Nat
  flushOrder := IterOrder.stored Nat
  elapsed _ := 0
  totalElapsed := 0

/-- The states of the run on `processedForeverEnv` with the single signature `7`:
the head of the loop, or the round that is about to read `processed`. -/
def StuckAtSeven (s : PollState Nat) : Prop :=
  s.pendingStatusSet.elems = [7] ∧ s.resultStatusMap.entries = [] ∧ s.iteration = 1 ∧
    (s.pc = .top ∨ s.pc = .zip [(7, some processedStatus)] 0)

theorem stuckAtSeven_step {s : PollState Nat} (h : StuckAtSeven s) :
    StuckAtSeven (step processedForeverEnv 1 1 s) ∧
      (s.pc = .top → (step processedForeverEnv 1 1 s).queries.length = s.queries.length + 1) := by
  rcases s with ⟨pc, pending, results, iteration, queries⟩
  obtain ⟨hp, hr, hi, hpc | hpc⟩ := h <;> cases hpc <;> dsimp only at hp hr hi
  · have hlen : pending.len + results.keys.length = 1 := by simp [HashSet.len, HashMap.keys, hp, hr]
    simp [step, hlen, processedForeverEnv, hp, hr, hi, StuckAtSeven, IterOrder.stored]
  · simp [step, processedStatus, TransactionStatus.satisfiesCommitment, StuckAtSeven, hp, hr, hi]

/-- **The loop never stops on a `processed` signature** (the failing input of the
round cap).  On a batch of one transaction whose signature the endpoint reports as
`processed` for ever, `send_and_confirm_bulk_transactions` never returns, whatever
the fuel, and its run issues any number of status queries, `iteration` staying
at `1`. -/
theorem bulk_polling_never_stops :
    (∀ fuel, sendAndConfirmBulkTransactions fuel processedForeverEnv [⟨7⟩] = none) ∧
    ∀ n, ∃ s, Reachable processedForeverEnv 1 1 (initialPollState [.ok 7]) s ∧
      s.queries.length = n ∧ s.iteration = 1 := by
  have h₀ : StuckAtSeven (initialPollState [.ok 7]) := by
    simp [StuckAtSeven, initialPollState, acceptedSigs, Except.toOption]
  have hinv : ∀ s, Reachable processedForeverEnv 1 1 (initialPollState [.ok 7]) s →
      StuckAtSeven s := fun s hs => hs.induction h₀ fun _ _ ht => (stuckAtSeven_step ht).1
  refine ⟨fun fuel => ?_, fun n => ?_⟩
  · have hpoll : pollNextSlotStart processedForeverEnv.getSlot = (.ok 1, 2) :=
      pollNextSlotStart_of_first_two (a := 0) rfl rfl
    simp only [sendAndConfirmBulkTransactions, hpoll]
    refine Option.map_eq_none'.2 (runPolling_eq_none (fun s hs => ?_) fuel)
    obtain ⟨-, -, -, hpc | hpc⟩ := hinv s hs <;> simp [PollState.halted, hpc]
  · induction n with
    | zero => exact ⟨_, .refl _, rfl, rfl⟩
    | succ n ih =>
      obtain ⟨s, hs, hlen, -⟩ := ih
      obtain ⟨-, -, hi, hpc | hpc⟩ := hinv s hs
      · exact ⟨_, hs.tail, by rw [(stuckAtSeven_step (hinv s hs)).2 hpc, hlen],
          (hinv _ hs.tail).2.2.1⟩
      · have hs' := hs.tail
        have htop : (step processedForeverEnv 1 1 s).pc = .top := by
          rcases s with ⟨pc, _, _, _, _⟩
          cases hpc
          simp [step, processedStatus, TransactionStatus.satisfiesCommitment]
        refine ⟨_, hs'.tail, ?_, (hinv _ hs'.tail).2.2.1⟩
        rw [(stuckAtSeven_step (hinv _ hs')).2 htop, ← hlen]
        rcases s with ⟨pc, _, _, _, _⟩
        cases hpc
        rfl

/-! ## Which signatures a round records depends on the order -/

/-- The pending set listed back to front. -/
def IterOrder.reversed (α : Type) : IterOrder α := ⟨List.reverse, List.reverse_perm⟩

/-- An endpoint that reports signature `1` as `confirmed` and every other one as
`processed`, with the pending set listed in the order `order`. -/
def oneConfirmedEnv (order : IterOrder Nat) : Env Nat where
  getSlot n := .ok n.toUInt64
  sendTransaction _ tx _ := .ok tx.signature
  getSignatureStatuses _ batch :=
    .ok (batch.map fun sig => if sig = 1 then some confirmedStatus else some processedStatus)
  statusOrder _ := order
  flushOrder := IterOrder.stored Nat
  elapsed _ := 0
  totalElapsed := 0

/-- **A round's records depend on the order of the batch** (the failing input of
the round law).  Signatures `1` and `2` are pending; the endpoint answers
`confirmed` for `1` and `processed` for `2`.  Listed as `[2, 1]`, the round hits
`processed` first, runs `continue 'pooling_loop`, and is back at the head of the
loop with `1` still pending and nothing recorded, although the answer it received
confirmed `1`.  Listed as `[1, 2]`, the same answer records `1`. -/
theorem bulk_round_depends_on_order :
    ((step (oneConfirmedEnv (IterOrder.stored Nat)) 1 2)^[2]
        (initialPollState [.ok 1, .ok 2])).pc = .top ∧
    ((step (oneConfirmedEnv (IterOrder.stored Nat)) 1 2)^[2]
        (initialPollState [.ok 1, .ok 2])).queries.map (·.batch) = [[2, 1]] ∧
    ((step (oneConfirmedEnv (IterOrder.stored Nat)) 1 2)^[2]
        (initialPollState [.ok 1, .ok 2])).queries.map (·.response) =
      [.ok [some processedStatus, some confirmedStatus]] ∧
    ((step (oneConfirmedEnv (IterOrder.stored Nat)) 1 2)^[2]
        (initialPollState [.ok 1, .ok 2])).pendingStatusSet.elems = [2, 1] ∧
    ((step (oneConfirmedEnv (IterOrder.stored Nat)) 1 2)^[2]
        (initialPollState [.ok 1, .ok 2])).resultStatusMap.entries = [] ∧
    ((step (oneConfirmedEnv (IterOrder.reversed Nat)) 1 2)^[3]
        (initialPollState [.ok 1, .ok 2])).pc = .top ∧
    ((step (oneConfirmedEnv (IterOrder.reversed Nat)) 1 2)^[3]
        (initialPollState [.ok 1, .ok 2])).pendingStatusSet.elems = [2] ∧
    ((step (oneConfirmedEnv (IterOrder.reversed Nat)) 1 2)^[3]
        (initialPollState [.ok 1, .ok 2])).resultStatusMap.entries =
      [(1, .success 1 5 .confirmed 0)] :=
  ⟨rfl, rfl, rfl, rfl, rfl, rfl, rfl, rfl⟩

/-! ## A failed status query ends the run -/

/-- A failed status query is the last one, and the run has failed with its error. -/
def FailedQueryLast (s : PollState Sig) : Prop :=
  ∀ q ∈ s.queries, ∀ e, q.response = .error e →
    s.queries.getLast? = some q ∧ s.pc = .failed (.err (.client e))

theorem failedQueryLast_step {env : Env Sig} {sendSlot : Slot} {n : Nat} {s : PollState Sig}
    (h : FailedQueryLast s) : FailedQueryLast (step env sendSlot n s) := by
  by_cases htop : s.pc = .top
  · have hnone : ∀ q ∈ s.queries, ∀ e, q.response ≠ .error e := fun q hq e he => by
      have hpc := (h q hq e he).2
      rw [htop] at hpc; cases hpc
    rcases s with ⟨pc, pending, results, iteration, queries⟩
    cases htop
    simp only [step]
    split
    · exact fun q hq e he => absurd he (hnone q hq e)
    · intro q hq e he
      cases hresp : env.getSignatureStatuses queries.length
          ((env.statusOrder queries.length).arrange pending.elems) with
      | error e' =>
        simp only [hresp] at hq ⊢
        rcases List.mem_append.1 hq with hq | hq
        · exact absurd he (hnone q hq e)
        · obtain rfl := List.mem_singleton.1 hq
          simp only [hresp, Except.error.injEq] at he
          simp [he]
      | ok value =>
        simp only [hresp] at hq
        rcases List.mem_append.1 hq with hq | hq
        · exact absurd he (hnone q hq e)
        · obtain rfl := List.mem_singleton.1 hq
          simp [hresp] at he
  · by_cases hf : ∃ f, s.pc = .failed f
    · obtain ⟨f, hf⟩ := hf
      rcases s with ⟨pc, pending, results, iteration, queries⟩
      cases hf
      exact h
    · intro q hq e he
      rw [queries_step _ _ _ htop] at hq
      exact absurd ⟨_, (h q hq e he).2⟩ hf

/-- **A failed status query is not retried.**  In every run of
`send_and_confirm_bulk_transactions`, a status query that failed is the last one
issued, and the call returns its error. -/
theorem bulk_status_error_ends_run {fuel : Nat} {env : Env Sig} {txs : List (Transaction Sig)}
    {r : BulkRun Sig} (h : sendAndConfirmBulkTransactions fuel env txs = some r)
    {q : StatusQuery Sig} (hq : q ∈ r.queries) {e : ClientError} (he : q.response = .error e) :
    r.queries.getLast? = some q ∧ r.result = .error (.err (.client e)) := by
  rcases sendAndConfirm_cases h with ⟨hnil, -⟩ | ⟨sendSlot, k, s, -, -, -, -, hs, rfl⟩
  · rw [hnil] at hq; cases hq
  obtain ⟨hreach, -⟩ := runPolling_reachable hs
  have hlast : FailedQueryLast s :=
    hreach.induction (fun q hq => by cases hq) fun _ _ ht => failedQueryLast_step ht
  unfold finishRun at hq ⊢
  have hq' : q ∈ s.queries := by split at hq <;> exact hq
  obtain ⟨hl, hpc⟩ := hlast q hq' e he
  simp [hpc, hl]

/-- An endpoint whose first status query fails. -/
def statusErrorEnv : Env Nat :=
  { processedForeverEnv with
    getSignatureStatuses := fun _ _ => .error ⟨⟨"status query failed"⟩, "status query failed"⟩ }

/-- A failed status query makes the call return `Err` at once: one query, no next
round. -/
theorem bulk_status_error_returns_err :
    sendAndConfirmBulkTransactions 1 statusErrorEnv [⟨7⟩] =
      some ⟨.error (.err (.client ⟨⟨"status query failed"⟩, "status query failed"⟩)),
        [⟨[7], .error ⟨⟨"status query failed"⟩, "status query failed"⟩⟩]⟩ := by
  have hpoll : pollNextSlotStart statusErrorEnv.getSlot = (.ok 1, 2) :=
    pollNextSlotStart_of_first_two (a := 0) rfl rfl
  simp only [sendAndConfirmBulkTransactions, hpoll]
  rfl

/-! ## A signature that has left the pending set is not asked about again -/

section Queries

/-- The pending set never grows, whatever the step. -/
theorem mem_pending_of_step {env : Env Sig} {sendSlot : Slot} {n : Nat} {s : PollState Sig}
    {x : Sig} (hx : x ∈ (step env sendSlot n s).pendingStatusSet.elems) :
    x ∈ s.pendingStatusSet.elems := by
  rcases s with ⟨pc, pending, results, iteration, queries⟩
  cases pc with
  | top =>
    simp only [step] at hx
    split at hx
    · exact hx
    · split at hx <;> exact hx
  | zip rest elapsed =>
    rcases rest with _ | ⟨⟨y, _ | st⟩, rest⟩
    · exact hx
    · exact hx
    · simp only [step] at hx
      split at hx
      · exact hx
      · exact (HashSet.mem_remove.1 hx).2
  | bottom =>
    simp only [step] at hx
    split at hx <;> exact hx
  | flush rest total =>
    rcases rest with _ | ⟨y, rest⟩
    · exact hx
    · exact (HashSet.mem_remove.1 hx).2
  | done | failed _ => exact hx

/-- **How a step changes the status queries**: it issues none, or, at the head
of a round, one on the pending set listed in this round's order, and leaves the
pending set as it is. -/
theorem step_queries (env : Env Sig) (sendSlot : Slot) (n : Nat) (s : PollState Sig) :
    (step env sendSlot n s).queries = s.queries ∨
      (step env sendSlot n s).pendingStatusSet = s.pendingStatusSet ∧
        ∃ response, (step env sendSlot n s).queries = s.queries ++
          [⟨(env.statusOrder s.queries.length).arrange s.pendingStatusSet.elems, response⟩] := by
  by_cases htop : s.pc = .top
  · rcases s with ⟨pc, pending, results, iteration, queries⟩
    cases htop
    simp only [step]
    split
    · exact .inl rfl
    · split <;> exact .inr ⟨rfl, _, rfl⟩
  · exact .inl (queries_step env sendSlot n htop)

/-- What a run has asked since its state `s`, at a later state `t`: the queries
of `s` come first, and each one issued since asks, without repeats, only about
signatures pending at `s`; and the pending set has only shrunk. -/
structure AskedSince (s t : PollState Sig) : Prop where
  grows : s.queries <+: t.queries
  shrinks : ∀ x ∈ t.pendingStatusSet.elems, x ∈ s.pendingStatusSet.elems
  asked : ∀ q ∈ t.queries.drop s.queries.length,
    q.batch.Nodup ∧ ∀ x ∈ q.batch, x ∈ s.pendingStatusSet.elems

omit [DecidableEq Sig] in
theorem AskedSince.refl (s : PollState Sig) : AskedSince s s :=
  ⟨List.prefix_refl _, fun _ hx => hx, fun q hq => by simp at hq⟩

theorem AskedSince.tail {env : Env Sig} {sendSlot : Slot} {n : Nat} {s t : PollState Sig}
    (h : AskedSince s t) : AskedSince s (step env sendSlot n t) := by
  have hshrinks : ∀ x ∈ (step env sendSlot n t).pendingStatusSet.elems,
      x ∈ s.pendingStatusSet.elems := fun x hx => h.shrinks x (mem_pending_of_step hx)
  rcases step_queries env sendSlot n t with hq | ⟨-, response, hq⟩
  · exact ⟨hq ▸ h.grows, hshrinks, hq ▸ h.asked⟩
  · refine ⟨hq ▸ h.grows.trans (List.prefix_append _ _), hshrinks, ?_⟩
    rw [hq, List.drop_append_of_le_length h.grows.length_le]
    intro q hq'
    rcases List.mem_append.1 hq' with hq' | hq'
    · exact h.asked q hq'
    · obtain rfl := List.mem_singleton.1 hq'
      have hperm := (env.statusOrder t.queries.length).perm t.pendingStatusSet.elems
      exact ⟨hperm.nodup_iff.2 t.pendingStatusSet.nodup,
        fun x hx => h.shrinks x (hperm.mem_iff.1 hx)⟩

theorem Reachable.askedSince {env : Env Sig} {sendSlot : Slot} {n : Nat} {s t : PollState Sig}
    (h : Reachable env sendSlot n s t) : AskedSince s t :=
  h.induction (AskedSince.refl s) fun _ _ ht => ht.tail

end Queries

/-- **No signature is asked about again once it has left the pending set.**  For
every endpoint, every hash-set order and every two states `s` and `t` of a run of
the polling loop, `t` coming after `s`: the status queries of `s` are the first
ones of `t`, and every query issued in between asks, without repeating a
signature, only about signatures still pending at `s`, so about none that had a
record at `s`. -/
theorem bulk_queries_only_pending (env : Env Sig) (sendSlot : Slot) (sigs : List Sig)
    {s t : PollState Sig}
    (hs : Reachable env sendSlot (numSentOk (sigs.map Except.ok))
      (initialPollState (sigs.map Except.ok)) s)
    (ht : Reachable env sendSlot (numSentOk (sigs.map Except.ok)) s t) :
    s.queries <+: t.queries ∧
      ∀ q ∈ t.queries.drop s.queries.length, q.batch.Nodup ∧
        ∀ x ∈ q.batch, x ∈ s.pendingStatusSet.elems ∧ x ∉ s.resultStatusMap.keys := by
  have ha := ht.askedSince
  refine ⟨ha.grows, fun q hq => ⟨(ha.asked q hq).1, fun x hx => ⟨(ha.asked q hq).2 x hx, ?_⟩⟩⟩
  have hp := (ha.asked q hq).2 x hx
  by_cases hnd : sigs.Nodup
  · rw [numSentOk_map_ok] at hs
    exact (conserved_reachable hnd hs).splits.disjoint hnd hp
  rcases reachable_of_not_nodup hnd hs with rfl | hf
  · simp [initialPollState, HashMap.keys, HashMap.new]
  · have hts : t = s := ht.induction (P := fun u => u = s) rfl fun u _ hu => by
      subst hu
      rcases u with ⟨pc, pending, results, iteration, queries⟩
      cases hf
      rfl
    subst hts
    simp at hq

/-- The law on the run of `oneConfirmedEnv` over `[1, 2]`, from its start to its
fourth step. -/
theorem bulk_queries_only_pending_four_steps :
    Reachable (oneConfirmedEnv (IterOrder.stored Nat)) 1 (numSentOk ([1, 2].map Except.ok))
      (initialPollState ([1, 2].map Except.ok)) (initialPollState ([1, 2].map Except.ok)) ∧
    Reachable (oneConfirmedEnv (IterOrder.stored Nat)) 1 (numSentOk ([1, 2].map Except.ok))
      (initialPollState ([1, 2].map Except.ok))
      ((step (oneConfirmedEnv (IterOrder.stored Nat)) 1 (numSentOk ([1, 2].map Except.ok)))^[4]
        (initialPollState ([1, 2].map Except.ok))) ∧
    ((initialPollState ([1, 2].map Except.ok)).queries <+:
        ((step (oneConfirmedEnv (IterOrder.stored Nat)) 1 (numSentOk ([1, 2].map Except.ok)))^[4]
          (initialPollState ([1, 2].map Except.ok))).queries ∧
      ∀ q ∈ ((step (oneConfirmedEnv (IterOrder.stored Nat)) 1 (numSentOk ([1, 2].map Except.ok)))^[4]
          (initialPollState ([1, 2].map Except.ok))).queries.drop
            (initialPollState ([1, 2].map Except.ok)).queries.length,
        q.batch.Nodup ∧ ∀ x ∈ q.batch,
          x ∈ (initialPollState ([1, 2].map Except.ok)).pendingStatusSet.elems ∧
          x ∉ (initialPollState ([1, 2].map Except.ok)).resultStatusMap.keys) :=
  ⟨Reachable.refl _, ⟨4, rfl⟩, bulk_queries_only_pending _ _ [1, 2] (Reachable.refl _) ⟨4, rfl⟩⟩

end LiteRpc.Bench
