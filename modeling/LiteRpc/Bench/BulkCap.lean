import LiteRpc.Bench.BulkRounds

/-!
# The cap of 100 rounds, when no status stays below `confirmed`

`bulk_polling_never_stops` shows that a status below `confirmed` can keep the
polling loop of `send_and_confirm_bulk_transactions` busy for ever.  This file
shows that it is the only way: on an endpoint that never reports a status below
`confirmed` (`NeverBelowConfirmed`), every round runs to its end, `iteration`
counts the rounds, and the loop stops by round 100 at the latest.

The proof bounds the steps left to the run (`stepsLeft`): a round over at most
`n` pending signatures takes at most `n + 3` steps, and the timeout flush at most
`n + 1`.  The bound falls at every step of a run that keeps `Capped`, the
invariant that ties `iteration` to the queries issued and bounds what each
program point still has to visit (`capped_step`).  Hence
`bulk_polling_capped`: the call returns once it has `101 * (|txs| + 3)` steps of
fuel, and it issues at most 100 status queries.
-/

namespace LiteRpc.Bench

variable {Sig : Type} [DecidableEq Sig]

/-- The endpoint never reports a status below `confirmed`. -/
def NeverBelowConfirmed (env : Env Sig) : Prop :=
  ∀ k batch value, env.getSignatureStatuses k batch = .ok value →
    ∀ st, some st ∈ value → st.satisfiesCommitment .confirmed = true

/-- An upper bound on the steps the run from `s` still takes, for `n` accepted
signatures. -/
def stepsLeft (n : Nat) (s : PollState Sig) : Nat :=
  match s.pc with
  | .top => (101 - s.iteration) * (n + 3) + n + 2
  | .zip rest _ => (100 - s.iteration) * (n + 3) + n + 4 + rest.length
  | .bottom => (100 - s.iteration) * (n + 3) + n + 3
  | .flush rest _ => rest.length + 1
  | .done => 0
  | .failed _ => 0

/-- What each program point keeps when no status stays below `confirmed`: the
status queries issued so far against `iteration`, and the bounds of what is left
to visit. -/
def CapAgrees (n : Nat) (s : PollState Sig) : Prop :=
  match s.pc with
  | .top => s.queries.length < s.iteration
  | .zip rest _ =>
    s.queries.length ≤ s.iteration ∧ s.pendingStatusSet.len ≤ n ∧ rest.length ≤ n ∧
      ∀ p ∈ rest, ∀ st, p.2 = some st → st.satisfiesCommitment .confirmed = true
  | .bottom => s.queries.length ≤ s.iteration ∧ s.pendingStatusSet.len ≤ n
  | .flush rest _ => s.queries.length ≤ s.iteration ∧ rest.length ≤ n
  | _ => s.queries.length ≤ s.iteration

/-- The invariant of a run on an endpoint that never reports a status below
`confirmed`. -/
structure Capped (n : Nat) (s : PollState Sig) : Prop where
  iteration_le : s.iteration ≤ 100
  agrees : CapAgrees n s

theorem len_remove_le (p : HashSet Sig) (x : Sig) : (p.remove x).len ≤ p.len := by
  simp only [HashSet.len, HashSet.elems_remove]
  exact List.length_erase_le _ _

section Step

variable {env : Env Sig} {sendSlot : Slot} {n : Nat}

/-- **Every step keeps `Capped`, and a step that does not halt lowers the bound.** -/
theorem capped_step (hconf : NeverBelowConfirmed env) {s : PollState Sig} (h : Capped n s) :
    Capped n (step env sendSlot n s) ∧
      (s.halted = false → stepsLeft n (step env sendSlot n s) < stepsLeft n s) := by
  rcases s with ⟨pc, pending, results, iteration, queries⟩
  obtain ⟨hit, ha⟩ := h
  dsimp only at hit
  have hround : (101 - iteration) * (n + 3) = (100 - iteration) * (n + 3) + (n + 3) := by
    rw [show 101 - iteration = (100 - iteration) + 1 by omega, Nat.succ_mul]
  cases pc with
  | top =>
    simp only [CapAgrees] at ha
    simp only [step]
    split
    · exact ⟨⟨hit, Nat.le_of_lt ha⟩, fun _ => by simp [stepsLeft]⟩
    · rename_i hlen
      have hpend : pending.len ≤ n := by simp only [not_not] at hlen; omega
      split
      · exact ⟨⟨hit, by simpa [CapAgrees] using ha⟩, fun _ => by simp [stepsLeft]⟩
      · rename_i value hresp
        have hrest : ((env.statusOrder queries.length).arrange pending.elems).length = pending.len :=
          ((env.statusOrder _).perm _).length_eq
        have hzip := List.length_zip ((env.statusOrder queries.length).arrange pending.elems) value
        refine ⟨⟨hit, by simpa using ha, hpend, by omega, fun p hp st hst => ?_⟩, fun _ => ?_⟩
        · exact hconf _ _ _ hresp st (hst ▸ (List.of_mem_zip hp).2)
        · simp only [stepsLeft]
          omega
  | zip rest elapsed =>
    dsimp only [CapAgrees] at ha
    obtain ⟨hq, hpend, hrest, hsat⟩ := ha
    rcases rest with _ | ⟨⟨x, _ | st⟩, rest⟩
    · exact ⟨⟨hit, hq, hpend⟩, fun _ => by simp only [step, stepsLeft]; omega⟩
    · refine ⟨⟨hit, hq, hpend, by simp at hrest; omega, fun p hp => hsat p (.tail _ hp)⟩,
        fun _ => by simp only [step, stepsLeft, List.length_cons]; omega⟩
    · have hst := hsat _ (.head _) st rfl
      simp only [step, hst, Bool.not_true, Bool.false_eq_true, if_false]
      by_cases hins : ((results.insert x
          (.success sendSlot st.slot st.confirmationStatus elapsed)).1.isNone = true)
      · simp only [hins, if_true]
        exact ⟨⟨hit, hq, (len_remove_le pending x).trans hpend, by simp at hrest; omega,
          fun p hp => hsat p (.tail _ hp)⟩, fun _ => by simp only [stepsLeft, List.length_cons]; omega⟩
      · simp only [hins, Bool.false_eq_true, if_false]
        exact ⟨⟨hit, hq⟩, fun _ => by simp only [stepsLeft]; omega⟩
  | bottom =>
    dsimp only [CapAgrees] at ha
    obtain ⟨hq, hpend⟩ := ha
    simp only [step]
    split
    · have hlen : (env.flushOrder.arrange pending.elems).length = pending.len :=
        (env.flushOrder.perm _).length_eq
      exact ⟨⟨hit, hq, by omega⟩, fun _ => by simp only [stepsLeft]; omega⟩
    · rename_i hcont
      have hne : iteration ≠ 100 := fun h100 => hcont (by simp [h100])
      refine ⟨⟨show iteration + 1 ≤ 100 by omega, show queries.length < iteration + 1 by omega⟩,
        fun _ => ?_⟩
      simp only [stepsLeft, show 101 - (iteration + 1) = 100 - iteration by omega]
      omega
  | flush rest total =>
    dsimp only [CapAgrees] at ha
    obtain ⟨hq, hrest⟩ := ha
    rcases rest with _ | ⟨x, rest⟩
    · exact ⟨⟨hit, hq⟩, fun _ => by simp [step, stepsLeft]⟩
    · exact ⟨⟨hit, hq, by simp at hrest; omega⟩,
        fun _ => by simp only [step, stepsLeft, List.length_cons]; omega⟩
  | done => exact ⟨⟨hit, ha⟩, fun h => by simp [PollState.halted] at h⟩
  | failed f => exact ⟨⟨hit, ha⟩, fun h => by simp [PollState.halted] at h⟩

end Step

/-! ## Whole runs -/

section Run

variable {env : Env Sig} {sendSlot : Slot} {n : Nat}

omit [DecidableEq Sig] in
theorem Capped.queries_le {s : PollState Sig} (h : Capped n s) : s.queries.length ≤ 100 := by
  obtain ⟨hit, ha⟩ := h
  have hq : s.queries.length ≤ s.iteration := by
    unfold CapAgrees at ha
    split at ha
    all_goals first | exact Nat.le_of_lt ha | exact ha.1 | exact ha
  omega

theorem capped_initial (batch : List (Except ErrorKind Sig)) : Capped n (initialPollState batch) :=
  ⟨show 1 ≤ 100 by decide, show 0 < 1 by decide⟩

theorem capped_reachable (hconf : NeverBelowConfirmed env) {batch : List (Except ErrorKind Sig)}
    {s : PollState Sig} (h : Reachable env sendSlot n (initialPollState batch) s) : Capped n s :=
  h.induction (capped_initial batch) fun t _ ht =>
    (show Capped n (step env sendSlot n t) ∧ _ from capped_step hconf ht).1

/-- A run inside `Capped` ends within `stepsLeft` steps. -/
theorem runPolling_isSome_of_capped (hconf : NeverBelowConfirmed env) :
    ∀ (fuel : Nat) (s : PollState Sig), Capped n s → stepsLeft n s < fuel →
      (runPolling env sendSlot n fuel s).isSome
  | 0, _, _, h => absurd h (Nat.not_lt_zero _)
  | fuel + 1, s, hc, h => by
    rw [runPolling]
    split
    · rfl
    · rename_i hhalt
      obtain ⟨hc', hlt⟩ : Capped n (step env sendSlot n s) ∧ _ := capped_step hconf hc
      exact runPolling_isSome_of_capped hconf fuel _ hc' (by have := hlt (by simpa using hhalt); omega)

end Run

/-- **The cap of 100 rounds holds when no status stays below `confirmed`.**  On an
endpoint that never reports a status below `confirmed`,
`send_and_confirm_bulk_transactions` returns once it has `101 * (|txs| + 3)` steps
of fuel, and every run of it issues at most 100 status queries. -/
theorem bulk_polling_capped (env : Env Sig) (txs : List (Transaction Sig))
    (hconf : NeverBelowConfirmed env) :
    (∀ fuel, 101 * (txs.length + 3) ≤ fuel → (sendAndConfirmBulkTransactions fuel env txs).isSome) ∧
    ∀ fuel r, sendAndConfirmBulkTransactions fuel env txs = some r → r.queries.length ≤ 100 := by
  refine ⟨fun fuel hfuel => ?_, fun fuel r h => ?_⟩
  · have hn : numSentOk (sendAll env txs) ≤ txs.length :=
      (List.length_filter_le _ _).trans (length_sendAll env txs).le
    unfold sendAndConfirmBulkTransactions
    split
    · rfl
    split
    · rfl
    dsimp only
    split
    · rfl
    rw [Option.isSome_map']
    exact runPolling_isSome_of_capped hconf fuel _ (capped_initial _)
      (by simp only [stepsLeft, initialPollState]; omega)
  · rcases sendAndConfirm_cases h with ⟨hnil, -⟩ | ⟨sendSlot, k, s, -, -, -, -, hs, rfl⟩
    · simp [hnil]
    · have hq : (finishRun txs (sendAll env txs) s).queries = s.queries := by
        unfold finishRun
        split <;> rfl
      rw [hq]
      exact (capped_reachable hconf (runPolling_reachable hs).1).queries_le

/-- An endpoint that reports every signature as `confirmed`. -/
def confirmedEnv : Env Nat :=
  { processedForeverEnv with
    getSignatureStatuses := fun _ batch => .ok (batch.map fun _ => some confirmedStatus) }

theorem confirmedEnv_capped : NeverBelowConfirmed confirmedEnv ∧
    ((∀ fuel, 101 * (([⟨7⟩] : List (Transaction Nat)).length + 3) ≤ fuel →
      (sendAndConfirmBulkTransactions fuel confirmedEnv [⟨7⟩]).isSome) ∧
    ∀ fuel r, sendAndConfirmBulkTransactions fuel confirmedEnv [⟨7⟩] = some r →
      r.queries.length ≤ 100) :=
  have h : NeverBelowConfirmed confirmedEnv := fun _ batch value hv st hst => by
    simp only [confirmedEnv, Except.ok.injEq] at hv
    subst hv
    obtain ⟨_, _, hst⟩ := List.mem_map.1 hst
    cases hst
    rfl
  ⟨h, bulk_polling_capped confirmedEnv [⟨7⟩] h⟩

end LiteRpc.Bench
