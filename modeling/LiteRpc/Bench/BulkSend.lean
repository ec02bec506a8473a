import Mathlib.Data.List.Forall2
import LiteRpc.Bench.SlotPoll
import LiteRpc.Bench.BulkInvariant

/-!
# `send_and_confirm_bulk_transactions`, end to end

The whole function of `bench/src/benches/rpc_interface.rs`: catch a slot start
with `poll_next_slot_start`, send every transaction at once, read the slot again,
fail fast if any send failed, run the polling loop of `LiteRpc.Bench.BulkPoll`,
and fold the result map back into one entry per transaction, in submission order
(`resultAsVec`, whose `expect("consistent map with all tx")` is a panic).

The polling loop may not end (see `LiteRpc.Bench.BulkRounds`), so the function
takes the number of steps it may run and returns `none` when they run out.  A
run shows its result and the status queries it issued (`BulkRun`).

What every record of a finished run means is the invariant `Explained`: a
`Success` carries the slot and status of a response that confirmed that very
signature, and a `Timeout` is given only to a signature still pending when the
loop broke.  `bulk_send_results` is the contract built on it.
-/

namespace LiteRpc.Bench

variable {Sig : Type} [DecidableEq Sig]

/-- The message of `bail!` when a send failed. -/
def failedToSendAll : String := "Failed to send all transactions"

/-- The message of the `expect` on the result map. -/
def consistentMap : String := "consistent map with all tx"

/-- `batch_sigs_or_fails`: `join_all` of the sends, with each error mapped to its
kind. -/
def sendAll (env : Env Sig) (txs : List (Transaction Sig)) : List (Except ErrorKind Sig) :=
  txs.mapIdx fun i tx => (env.sendTransaction i tx sendConfig).mapError ClientError.kind

/-- `result_as_vec`: for `txs[i]`, the record of its accepted signature, or its
send error. -/
def resultAsVec (txs : List (Transaction Sig)) (batchSigsOrFails : List (Except ErrorKind Sig))
    (resultStatusMap : HashMap Sig ConfirmationResponseFromRpc) :
    Except Failure (List (Sig × ConfirmationResponseFromRpc)) :=
  (txs.zip batchSigsOrFails).mapM fun (tx, sigOrFail) =>
    match sigOrFail with
    | .ok txSig =>
      match resultStatusMap.get txSig with
      | some confirmation => .ok (txSig, confirmation)
      | none => .error (.panic consistentMap)
    | .error sendError => .ok (tx.signature, .sendError sendError)

/-- What a run of `send_and_confirm_bulk_transactions` shows: its result, and the
status queries it issued. -/
structure BulkRun (Sig : Type) where
  result : Except Failure (List (Sig × ConfirmationResponseFromRpc))
  queries : List (StatusQuery Sig)

/-- The end of the function once the loop has ended: a failure passes through,
otherwise `result_as_vec` runs on the result map. -/
def finishRun (txs : List (Transaction Sig)) (batchSigsOrFails : List (Except ErrorKind Sig))
    (s : PollState Sig) : BulkRun Sig :=
  match s.pc with
  | .failed f => ⟨.error f, s.queries⟩
  | _ => ⟨resultAsVec txs batchSigsOrFails s.resultStatusMap, s.queries⟩

/-- `send_and_confirm_bulk_transactions`, with `fuel` steps for the polling loop. -/
def sendAndConfirmBulkTransactions (fuel : Nat) (env : Env Sig) (txs : List (Transaction Sig)) :
    Option (BulkRun Sig) :=
  match pollNextSlotStart env.getSlot with
  | (.error e, _) => some ⟨.error (.err e), []⟩
  | (.ok sendSlot, slotQueries) =>
    let batchSigsOrFails := sendAll env txs
    match env.getSlot slotQueries with
    | .error e => some ⟨.error (.err (.client e)), []⟩
    | .ok _afterSendSlot =>
      if numSentFailed batchSigsOrFails > 0 then
        some ⟨.error (.err (.bail failedToSendAll)), []⟩
      else
        (runPolling env sendSlot (numSentOk batchSigsOrFails) fuel
          (initialPollState batchSigsOrFails)).map (finishRun txs batchSigsOrFails)

theorem mapM_eq_ok {α β ε : Type} {f : α → Except ε β} :
    ∀ {l : List α} {v : List β}, l.mapM f = .ok v → List.Forall₂ (fun a b => f a = .ok b) l v
  | [], v, h => by
    simp only [List.mapM_nil] at h
    cases h; exact .nil
  | a :: l, v, h => by
    rw [List.mapM_cons] at h
    cases ha : f a with
    | error e => rw [ha] at h; cases h
    | ok b =>
      rw [ha] at h
      cases hl : l.mapM f with
      | error e => rw [hl] at h; cases h
      | ok bs => rw [hl] at h; cases h; exact .cons ha (mapM_eq_ok hl)

omit [DecidableEq Sig] in
theorem length_sendAll (env : Env Sig) (txs : List (Transaction Sig)) :
    (sendAll env txs).length = txs.length := by
  simp [sendAll]

/-! ## What the records mean -/

/-- `r` is the `Success` record of a status response among `qs` that confirmed `sig`. -/
def ConfirmedBy (qs : List (StatusQuery Sig)) (sendSlot : Slot) (sig : Sig)
    (r : ConfirmationResponseFromRpc) : Prop :=
  ∃ q ∈ qs, ∃ value st elapsed, q.response = .ok value ∧ (sig, some st) ∈ q.batch.zip value ∧
    st.satisfiesCommitment .confirmed = true ∧
    r = .success sendSlot st.slot st.confirmationStatus elapsed

omit [DecidableEq Sig] in
theorem ConfirmedBy.mono {qs qs' : List (StatusQuery Sig)} {sendSlot : Slot} {sig : Sig}
    {r : ConfirmationResponseFromRpc} (h : ConfirmedBy qs sendSlot sig r) (hq : qs ⊆ qs') :
    ConfirmedBy qs' sendSlot sig r := by
  obtain ⟨q, hq', rest⟩ := h
  exact ⟨q, hq hq', rest⟩

section Records

variable (env : Env Sig) (sendSlot : Slot) (numSentOk : Nat) (s₀ : PollState Sig)

/-- `sig` was still pending in a state of the run where the loop broke into the
timeout loop. -/
def PendingWhenStopped (sig : Sig) : Prop :=
  ∃ s, Reachable env sendSlot numSentOk s₀ s ∧ s.pc = .bottom ∧
    (∃ rest total, (step env sendSlot numSentOk s).pc = .flush rest total) ∧
    sig ∈ s.pendingStatusSet.elems

/-- Every record, and every pair a round or the timeout loop has yet to visit, is
accounted for by the run from `s₀`. -/
structure Explained (s : PollState Sig) : Prop where
  records : ∀ sig r, (sig, r) ∈ s.resultStatusMap.entries →
    ConfirmedBy s.queries sendSlot sig r ∨
      ∃ d, r = .timeout d ∧ PendingWhenStopped env sendSlot numSentOk s₀ sig
  zip : ∀ rest elapsed, s.pc = .zip rest elapsed → ∀ p ∈ rest,
    ∃ q ∈ s.queries, ∃ value, q.response = .ok value ∧ p ∈ q.batch.zip value
  flush : ∀ rest total, s.pc = .flush rest total → ∀ x ∈ rest,
    PendingWhenStopped env sendSlot numSentOk s₀ x

variable {env sendSlot numSentOk s₀}

/-- **Every step keeps every record explained.** -/
theorem explained_step {s : PollState Sig} (hr : Reachable env sendSlot numSentOk s₀ s)
    (h : Explained env sendSlot numSentOk s₀ s) :
    Explained env sendSlot numSentOk s₀ (step env sendSlot numSentOk s) := by
  rcases s with ⟨pc, pending, results, iteration, queries⟩
  obtain ⟨hrec, hzip, hflush⟩ := h
  cases pc with
  | top =>
    simp only [step]
    split
    · exact ⟨hrec, nofun, nofun⟩
    · have hmono : ∀ qs, queries ⊆ qs → ∀ sig r, (sig, r) ∈ results.entries →
          ConfirmedBy qs sendSlot sig r ∨
            ∃ d, r = .timeout d ∧ PendingWhenStopped env sendSlot numSentOk s₀ sig :=
        fun _ hq sig r hm => (hrec sig r hm).imp_left (·.mono hq)
      split
      · exact ⟨hmono _ (List.subset_append_left _ _), nofun, nofun⟩
      · refine ⟨hmono _ (List.subset_append_left _ _), ?_, nofun⟩
        rintro rest elapsed ⟨⟩ p hp
        exact ⟨_, List.mem_append_right _ (List.mem_singleton_self _), _, by assumption, hp⟩
  | zip rest elapsed =>
    rcases rest with _ | ⟨⟨x, _ | st⟩, rest⟩
    · exact ⟨hrec, nofun, nofun⟩
    · exact ⟨hrec, fun _ _ he p hp => by cases he; exact hzip _ _ rfl p (.tail _ hp),
        nofun⟩
    · simp only [step]
      split
      · exact ⟨hrec, nofun, nofun⟩
      · rename_i hsat
        obtain ⟨q, hq, value, hv, hp⟩ := hzip _ _ rfl _ (List.mem_cons_self _ _)
        refine ⟨fun sig r hm => ?_, fun rest' el he p hp' => ?_, by simp; split <;> simp⟩
        · rcases HashMap.mem_insert.1 hm with he | ⟨hm, -⟩
          · cases he
            exact .inl ⟨q, hq, value, st, elapsed, hv, hp, by simpa using hsat, rfl⟩
          · exact hrec sig r hm
        · split at he
          · cases he; exact hzip _ _ rfl p (.tail _ hp')
          · cases he
  | bottom =>
    simp only [step]
    split
    · refine ⟨hrec, nofun, fun rest total he x hx => ?_⟩
      cases he
      exact ⟨_, hr, rfl, ⟨_, _, by simp only [step]; rw [if_pos (by assumption)]⟩,
        (env.flushOrder.perm _).mem_iff.1 hx⟩
    · exact ⟨hrec, nofun, nofun⟩
  | flush rest total =>
    rcases rest with _ | ⟨x, rest⟩
    · exact ⟨hrec, nofun, nofun⟩
    · refine ⟨fun sig r hm => ?_, nofun,
        fun _ _ he y hy => by cases he; exact hflush _ _ rfl y (.tail _ hy)⟩
      rcases HashMap.mem_insert.1 hm with he | ⟨hm, -⟩
      · cases he; exact .inr ⟨total, rfl, hflush _ _ rfl x (List.mem_cons_self _ _)⟩
      · exact hrec sig r hm
  | done => exact ⟨hrec, hzip, hflush⟩
  | failed f => exact ⟨hrec, hzip, hflush⟩

theorem explained_initial (batchSigsOrFails : List (Except ErrorKind Sig)) :
    Explained env sendSlot numSentOk s₀ (initialPollState batchSigsOrFails) :=
  ⟨by simp [initialPollState], by simp [initialPollState], by simp [initialPollState]⟩

theorem explained_reachable {batchSigsOrFails : List (Except ErrorKind Sig)} {s : PollState Sig}
    (h : Reachable env sendSlot numSentOk (initialPollState batchSigsOrFails) s) :
    Explained env sendSlot numSentOk (initialPollState batchSigsOrFails) s :=
  h.induction (explained_initial _) fun _ ht hi => explained_step ht hi

end Records

/-! ## The contract -/

theorem mapM_eq_error {α β ε : Type} {f : α → Except ε β} :
    ∀ {l : List α} {e : ε}, l.mapM f = .error e → ∃ a ∈ l, f a = .error e
  | [], e, h => by simp only [List.mapM_nil] at h; cases h
  | a :: l, e, h => by
    rw [List.mapM_cons] at h
    cases ha : f a with
    | error e' => rw [ha] at h; cases h; exact ⟨a, List.mem_cons_self _ _, ha⟩
    | ok b =>
      rw [ha] at h
      cases hl : l.mapM f with
      | error e' =>
        rw [hl] at h; cases h
        obtain ⟨a', ha', hfa⟩ := mapM_eq_error hl
        exact ⟨a', List.mem_cons_of_mem _ ha', hfa⟩
      | ok bs => rw [hl] at h; cases h

/-- Where a call can end: before the loop with an error and no status query, or
with the loop's last state. -/
theorem sendAndConfirm_cases {fuel : Nat} {env : Env Sig} {txs : List (Transaction Sig)}
    {r : BulkRun Sig} (h : sendAndConfirmBulkTransactions fuel env txs = some r) :
    (r.queries = [] ∧ ∃ e, r.result = .error (.err e)) ∨
    ∃ sendSlot k s, (pollNextSlotStart env.getSlot).1 = .ok sendSlot ∧
      (pollNextSlotStart env.getSlot).2 = k ∧ (env.getSlot k).isOk ∧
      numSentFailed (sendAll env txs) = 0 ∧
      runPolling env sendSlot (numSentOk (sendAll env txs)) fuel
        (initialPollState (sendAll env txs)) = some s ∧
      r = finishRun txs (sendAll env txs) s := by
  unfold sendAndConfirmBulkTransactions at h
  split at h
  · cases h; exact .inl ⟨rfl, _, rfl⟩
  · rename_i sendSlot k hpoll
    split at h
    · cases h; exact .inl ⟨rfl, _, rfl⟩
    · rename_i hslot
      dsimp only at h
      split at h
      · cases h; exact .inl ⟨rfl, _, rfl⟩
      · obtain ⟨s, hs, rfl⟩ := Option.map_eq_some'.1 h
        exact .inr ⟨sendSlot, k, s, by rw [hpoll], by rw [hpoll], by rw [hslot]; rfl,
          by omega, hs, rfl⟩

omit [DecidableEq Sig] in
theorem numSentFailed_pos {batch : List (Except ErrorKind Sig)}
    (h : ∃ r ∈ batch, r.isOk = false) : 0 < numSentFailed batch := by
  obtain ⟨r, hr, hok⟩ := h
  exact List.length_pos.2 (List.ne_nil_of_mem (List.mem_filter.2 ⟨hr, by simp [hok]⟩))

omit [DecidableEq Sig] in
theorem eq_map_ok_of_isOk {batch : List (Except ErrorKind Sig)}
    (h : ∀ r ∈ batch, r.isOk = true) : batch = (acceptedSigs batch).map Except.ok := by
  induction batch with
  | nil => rfl
  | cons r rs ih =>
    cases r with
    | error e => simp [Except.isOk, Except.toBool] at h
    | ok x =>
      simp only [List.mem_cons, forall_eq_or_imp] at h
      simpa [acceptedSigs, Except.toOption] using ih h.2

/-- A run with a repeated accepted signature stops at its first assertion. -/
theorem reachable_of_not_nodup {env : Env Sig} {sendSlot : Slot} {sigs : List Sig}
    (hnd : ¬sigs.Nodup) {s : PollState Sig}
    (h : Reachable env sendSlot (numSentOk (sigs.map Except.ok))
      (initialPollState (sigs.map Except.ok)) s) :
    s = initialPollState (sigs.map Except.ok) ∨ s.pc = .failed (.panic itemsMustMove) := by
  refine h.induction (P := fun s => s = initialPollState (sigs.map Except.ok) ∨
    s.pc = .failed (.panic itemsMustMove)) (.inl rfl) fun t _ ht => .inr ?_
  rcases ht with rfl | ht
  · exact initial_assert_fails env sendSlot hnd
  · rcases t with ⟨pc, _, _, _, _⟩
    cases ht; rfl

/-- The only panics of the loop are its two assertions. -/
theorem failed_reachable {env : Env Sig} {sendSlot : Slot} {n : Nat}
    {batch : List (Except ErrorKind Sig)} {s : PollState Sig} {f : Failure}
    (h : Reachable env sendSlot n (initialPollState batch) s) (hf : s.pc = .failed f) :
    f = .panic itemsMustMove ∨ f = .panic mustNotOverride ∨ ∃ e, f = .err (.client e) := by
  refine h.induction (P := fun s => ∀ f, s.pc = .failed f →
    f = .panic itemsMustMove ∨ f = .panic mustNotOverride ∨ ∃ e, f = .err (.client e))
    (fun f hf => by cases hf) (fun t _ ih f hf => ?_) f hf
  rcases t with ⟨pc, pending, results, iteration, queries⟩
  cases pc with
  | top =>
    simp only [step] at hf
    split at hf
    · cases hf; exact .inl rfl
    · split at hf <;> cases hf; exact .inr (.inr ⟨_, rfl⟩)
  | zip rest elapsed =>
    rcases rest with _ | ⟨⟨x, _ | st⟩, rest⟩ <;> simp only [step] at hf
    · cases hf
    · cases hf
    · split at hf
      · cases hf
      · split at hf <;> cases hf; exact .inr (.inl rfl)
  | bottom => simp only [step] at hf; split at hf <;> cases hf
  | flush rest total => rcases rest with _ | ⟨x, rest⟩ <;> cases hf
  | done => cases hf
  | failed f' => exact ih f hf

omit [DecidableEq Sig] in
theorem isOk_of_numSentFailed_eq_zero {batch : List (Except ErrorKind Sig)}
    (h : numSentFailed batch = 0) : ∀ r ∈ batch, r.isOk = true := by
  intro r hr
  by_contra hne
  exact absurd h (numSentFailed_pos ⟨r, hr, by simpa using hne⟩).ne'

/-- A `result_as_vec` of accepted signatures only: entry `i` is the record of the
`i`-th accepted signature. -/
theorem resultAsVec_ok {txs : List (Transaction Sig)} {batch : List (Except ErrorKind Sig)}
    {m : HashMap Sig ConfirmationResponseFromRpc} {v : List (Sig × ConfirmationResponseFromRpc)}
    (hok : ∀ r ∈ batch, r.isOk = true) (h : resultAsVec txs batch m = .ok v) :
    v.length = (txs.zip batch).length ∧
      ∀ i (hi : i < v.length), batch[i]? = some (.ok v[i].1) ∧ v[i] ∈ m.entries := by
  obtain ⟨hlen, hget⟩ := List.forall₂_iff_get.1 (mapM_eq_ok h)
  refine ⟨hlen.symm, fun i hi => ?_⟩
  have hi' : i < (txs.zip batch).length := hlen ▸ hi
  have hib : i < batch.length := by simp only [List.length_zip] at hi'; omega
  have hR := hget i hi' hi
  simp only [List.get_eq_getElem, List.getElem_zip] at hR
  have hmem : batch[i] ∈ batch := List.getElem_mem _
  cases hb : batch[i] with
  | error e => exact absurd (hok _ (hb ▸ hmem)) (by simp [Except.isOk, Except.toBool])
  | ok sig =>
    rw [hb] at hR
    cases hg : m.get sig with
    | none => simp [hg] at hR
    | some c =>
      simp only [hg, Except.ok.injEq] at hR
      rw [← hR]
      exact ⟨by simp [hib, hb], HashMap.get_eq_some.1 hg⟩

/-- `result_as_vec` cannot panic when every accepted signature has a record. -/
theorem resultAsVec_ne_panic {txs : List (Transaction Sig)} {batch : List (Except ErrorKind Sig)}
    {m : HashMap Sig ConfirmationResponseFromRpc} (hkeys : ∀ sig, .ok sig ∈ batch → sig ∈ m.keys) :
    resultAsVec txs batch m ≠ .error (.panic consistentMap) := by
  intro h
  obtain ⟨⟨tx, r⟩, hmem, hr⟩ := mapM_eq_error h
  cases r with
  | error e => cases hr
  | ok sig =>
    obtain ⟨c, hc⟩ := HashMap.mem_keys.1 (hkeys sig (List.of_mem_zip hmem).2)
    simp [HashMap.get_eq_some.2 hc] at hr

/-- **What `send_and_confirm_bulk_transactions` returns.**  For every batch and
every endpoint behaviour: if a send fails, the call returns an error and issues
no status query.  Otherwise, when the accepted signatures are distinct and the
call returns `Ok(v)`, `v` has one entry per transaction, in order; entry `i`
carries the signature accepted for `txs[i]`, and its record is either the
`Success` of a status response among the issued queries that confirmed that
signature, stamped with the slot `poll_next_slot_start` returned, or a `Timeout`
for a signature still pending when the loop broke, never a `SendError`.  And the
lookup `consistent map with all tx` never panics. -/
theorem bulk_send_results (fuel : Nat) (env : Env Sig) (txs : List (Transaction Sig)) :
    ((∃ r ∈ sendAll env txs, r.isOk = false) →
      ∃ e, sendAndConfirmBulkTransactions fuel env txs = some ⟨.error (.err e), []⟩) ∧
    (∀ v qs, (∀ r ∈ sendAll env txs, r.isOk = true) → (acceptedSigs (sendAll env txs)).Nodup →
      sendAndConfirmBulkTransactions fuel env txs = some ⟨.ok v, qs⟩ →
      ∃ sendSlot, (pollNextSlotStart env.getSlot).1 = .ok sendSlot ∧ v.length = txs.length ∧
        ∀ i (hi : i < v.length), (sendAll env txs)[i]? = some (.ok v[i].1) ∧
          (ConfirmedBy qs sendSlot v[i].1 v[i].2 ∨
            ∃ d, v[i].2 = .timeout d ∧ PendingWhenStopped env sendSlot
              (numSentOk (sendAll env txs)) (initialPollState (sendAll env txs)) v[i].1)) ∧
    (∀ r, sendAndConfirmBulkTransactions fuel env txs = some r →
      r.result ≠ .error (.panic consistentMap)) := by
  refine ⟨fun hfail => ?_, fun v qs hok hnd hrun => ?_, fun r hr => ?_⟩
  · unfold sendAndConfirmBulkTransactions
    split
    · exact ⟨_, rfl⟩
    · dsimp only
      split
      · exact ⟨_, rfl⟩
      · rw [if_pos (numSentFailed_pos hfail)]; exact ⟨_, rfl⟩
  · rcases sendAndConfirm_cases hrun with ⟨-, e, he⟩ | ⟨sendSlot, k, s, hpoll, -, -, -, hs, hr⟩
    · cases he
    have hexp := explained_reachable (runPolling_reachable hs).1
    unfold finishRun at hr
    split at hr
    · cases hr
    obtain ⟨hv, rfl⟩ := BulkRun.mk.inj hr
    obtain ⟨hlen, hentry⟩ := resultAsVec_ok hok hv.symm
    refine ⟨sendSlot, hpoll, by simpa [length_sendAll] using hlen, fun i hi => ⟨(hentry i hi).1, ?_⟩⟩
    exact hexp.records _ _ (hentry i hi).2
  · rcases sendAndConfirm_cases hr with ⟨-, e, he⟩ | ⟨sendSlot, k, s, -, -, -, hsent, hs, rfl⟩
    · rw [he]; simp
    obtain ⟨hreach, hhalt⟩ := runPolling_reachable hs
    unfold finishRun
    split
    · rename_i f hf
      rcases failed_reachable hreach hf with rfl | rfl | ⟨e, rfl⟩ <;>
        simp [itemsMustMove, mustNotOverride, consistentMap]
    · rename_i hnf
      have hok := isOk_of_numSentFailed_eq_zero hsent
      rw [eq_map_ok_of_isOk hok] at hreach ⊢
      by_cases hnd : (acceptedSigs (sendAll env txs)).Nodup
      · rw [numSentOk_map_ok] at hreach
        obtain ⟨hsplit, hagree⟩ := conserved_reachable hnd hreach
        have hdone : s.pendingStatusSet.elems = [] := by
          revert hagree hhalt hnf
          rcases s with ⟨pc, _, _, _, _⟩
          cases pc <;> simp [PollState.halted, PcAgrees]
        refine fun h => resultAsVec_ne_panic (fun sig hsig => ?_) (by simpa using h)
        have hmem := (hsplit.mem_iff sig).2 (by simpa using hsig)
        simpa [hdone] using hmem
      · rcases reachable_of_not_nodup hnd hreach with rfl | hf
        · simp [initialPollState, PollState.halted] at hhalt
        · exact absurd hf (hnf _)

end LiteRpc.Bench
