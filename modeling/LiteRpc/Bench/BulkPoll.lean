import LiteRpc.Bench.Rpc

/-!
# The confirmation poller of `send_and_confirm_bulk_transactions`

Once every transaction of a batch is sent, `send_and_confirm_bulk_transactions`
(`bench/src/benches/rpc_interface.rs`) moves the accepted signatures from
`pending_status_set` to `result_status_map`: in rounds of `'pooling_loop` it asks
the endpoint for the status of every pending signature and records the confirmed
ones; after the last round it records every signature still pending as timed out.

The loop is modelled as a machine that makes one step per statement block, so
that "every round" and "every step" of a run have a precise meaning.  Its
program counter `Pc` says where the run stands:

* `top` is the head of `'pooling_loop`: the consistency `assert_eq!`, then one
  `get_signature_statuses` call on the pending set listed in some `IterOrder`;
* `zip rest elapsed` is inside `for (tx_sig, status_response) in zip(..)`, where
  a confirmed status moves its signature (and checks `Must not override existing
  value`), an absent one is skipped, and one below `confirmed` runs
  `continue 'pooling_loop`: back to `top`, with `iteration` unchanged;
* `bottom` holds the two `break` checks and the increment of `iteration`;
* `flush rest total` is the timeout loop over `pending_status_set.clone()`, and
  `done` its end;
* `failed f` is a panic or an error passed up by `?`.

The endpoint, the hash-set orders and the clock are an `Env`.  The state also
keeps the status queries issued so far, with their answers: the run's
conversation with the endpoint, over which the laws of a run are stated.  The sleeps
until `iteration_ends_at` change no value and are left out.
-/

namespace LiteRpc.Bench

/-- One `get_signature_statuses` call: the batch asked about and the answer. -/
structure StatusQuery (Sig : Type) where
  batch : List Sig
  response : Except ClientError (List (Option TransactionStatus))

/-- Everything a run of `send_and_confirm_bulk_transactions` reads from outside. -/
structure Env (Sig : Type) where
  /-- The `n`-th `get_slot_with_commitment(confirmed)` call, from `0`. -/
  getSlot : Nat → Except ClientError Slot
  /-- `send_transaction_with_config(txs[i], config)`. -/
  sendTransaction : Nat → Transaction Sig → RpcSendTransactionConfig → Except ClientError Sig
  /-- The `n`-th `get_signature_statuses(batch)` call, from `0`. -/
  getSignatureStatuses : Nat → List Sig → Except ClientError (List (Option TransactionStatus))
  /-- The order of `pending_status_set.iter()` at the `n`-th status call. -/
  statusOrder : Nat → IterOrder Sig
  /-- The order of `pending_status_set.clone()` in the timeout loop. -/
  flushOrder : IterOrder Sig
  /-- `started_at.elapsed()` read after the `n`-th status call. -/
  elapsed : Nat → Duration
  /-- `total_time_elapsed_polling`. -/
  totalElapsed : Duration

/-- Where a run of the polling loop stands. -/
inductive Pc (Sig : Type) where
  | top
  | zip (rest : List (Sig × Option TransactionStatus)) (elapsed : Duration)
  | bottom
  | flush (rest : List Sig) (total : Duration)
  | done
  | failed (f : Failure)

/-- The locals of the polling part of `send_and_confirm_bulk_transactions`, and the
status queries issued so far. -/
structure PollState (Sig : Type) where
  pc : Pc Sig
  pendingStatusSet : HashSet Sig
  resultStatusMap : HashMap Sig ConfirmationResponseFromRpc
  iteration : Nat
  queries : List (StatusQuery Sig)

/-- The message of the consistency `assert_eq!`. -/
def itemsMustMove : String := "Items must move between pending+result"

/-- The message of the `assert!` after each insertion. -/
def mustNotOverride : String := "Must not override existing value"

variable {Sig : Type}

/-! ## The accepted signatures -/

/-- The signatures the endpoint accepted, in submission order. -/
def acceptedSigs (batchSigsOrFails : List (Except ErrorKind Sig)) : List Sig :=
  batchSigsOrFails.filterMap Except.toOption

/-- `num_sent_ok`. -/
def numSentOk (batchSigsOrFails : List (Except ErrorKind Sig)) : Nat :=
  (batchSigsOrFails.filter Except.isOk).length

/-- `num_sent_failed`. -/
def numSentFailed (batchSigsOrFails : List (Except ErrorKind Sig)) : Nat :=
  (batchSigsOrFails.filter (fun r => !r.isOk)).length

theorem numSentOk_eq_length (batchSigsOrFails : List (Except ErrorKind Sig)) :
    numSentOk batchSigsOrFails = (acceptedSigs batchSigsOrFails).length := by
  induction batchSigsOrFails with
  | nil => rfl
  | cons r rs ih => cases r <;> simp_all [numSentOk, acceptedSigs, Except.toOption, Except.toBool]

@[simp] theorem acceptedSigs_map_ok (sigs : List Sig) :
    acceptedSigs (sigs.map (@Except.ok ErrorKind Sig)) = sigs := by
  induction sigs with
  | nil => rfl
  | cons x xs ih => simpa [acceptedSigs, Except.toOption] using ih

theorem numSentOk_map_ok (sigs : List Sig) :
    numSentOk (sigs.map (@Except.ok ErrorKind Sig)) = sigs.length := by
  rw [numSentOk_eq_length, acceptedSigs_map_ok]

variable [DecidableEq Sig]

/-- The state at the head of the first round: `pending_status_set` filled by
inserting each accepted signature, `result_status_map` empty, `iteration = 1`. -/
def initialPollState (batchSigsOrFails : List (Except ErrorKind Sig)) : PollState Sig where
  pc := .top
  pendingStatusSet := (acceptedSigs batchSigsOrFails).foldl HashSet.insert HashSet.new
  resultStatusMap := HashMap.new
  iteration := 1
  queries := []

/-! ## One step -/

section Step

variable (env : Env Sig) (sendSlot : Slot) (numSentOk : Nat)

/-- One step of the polling part of `send_and_confirm_bulk_transactions`. -/
def step (s : PollState Sig) : PollState Sig :=
  match s.pc with
  | .top =>
    if s.pendingStatusSet.len + s.resultStatusMap.len ≠ numSentOk then
      { s with pc := .failed (.panic itemsMustMove) }
    else
      let n := s.queries.length
      let txBatch := (env.statusOrder n).arrange s.pendingStatusSet.elems
      let response := env.getSignatureStatuses n txBatch
      let queries := s.queries ++ [{ batch := txBatch, response }]
      match response with
      | .error e => { s with queries, pc := .failed (.err (.client e)) }
      | .ok value => { s with queries, pc := .zip (txBatch.zip value) (env.elapsed n) }
  | .zip [] _ => { s with pc := .bottom }
  | .zip ((_, none) :: rest) elapsed => { s with pc := .zip rest elapsed }
  | .zip ((txSig, some txStatus) :: rest) elapsed =>
    if !txStatus.satisfiesCommitment .confirmed then { s with pc := .top }
    else
      let inserted := s.resultStatusMap.insert txSig
        (.success sendSlot txStatus.slot txStatus.confirmationStatus elapsed)
      { s with
        pendingStatusSet := s.pendingStatusSet.remove txSig
        resultStatusMap := inserted.2
        pc := if inserted.1.isNone then .zip rest elapsed else .failed (.panic mustNotOverride) }
  | .bottom =>
    if s.pendingStatusSet.isEmpty || s.iteration == 100 then
      { s with pc := .flush ((env.flushOrder).arrange s.pendingStatusSet.elems) env.totalElapsed }
    else { s with iteration := s.iteration + 1, pc := .top }
  | .flush [] _ => { s with pc := .done }
  | .flush (txSig :: rest) total =>
    { s with
      pendingStatusSet := s.pendingStatusSet.remove txSig
      resultStatusMap := (s.resultStatusMap.insert txSig (.timeout total)).2
      pc := .flush rest total }
  | .done => s
  | .failed _ => s

/-- Only the head of the loop queries the endpoint. -/
theorem queries_step {s : PollState Sig} (h : s.pc ≠ .top) :
    (step env sendSlot numSentOk s).queries = s.queries := by
  rcases s with ⟨pc, pending, results, iteration, queries⟩
  cases pc with
  | top => exact absurd rfl h
  | zip rest elapsed =>
    rcases rest with _ | ⟨⟨x, _ | st⟩, rest⟩ <;> simp only [step]
    split <;> rfl
  | bottom => simp only [step]; split <;> rfl
  | flush rest total => rcases rest with _ | ⟨x, rest⟩ <;> rfl
  | done => rfl
  | failed f => rfl

/-- A run has ended: the timeout loop is over, or it panicked or returned an error. -/
def PollState.halted (s : PollState Sig) : Bool :=
  match s.pc with
  | .done | .failed _ => true
  | _ => false

/-- The run from `s`, given `fuel` steps: its last state, or `none` if it has not
ended by then. -/
def runPolling : Nat → PollState Sig → Option (PollState Sig)
  | 0, s => if s.halted then some s else none
  | fuel + 1, s => if s.halted then some s else runPolling fuel (step env sendSlot numSentOk s)

/-- `s` is a state of the run from `s₀`. -/
def Reachable (s₀ s : PollState Sig) : Prop := ∃ n, (step env sendSlot numSentOk)^[n] s₀ = s

variable {env sendSlot numSentOk}

theorem Reachable.refl (s₀ : PollState Sig) : Reachable env sendSlot numSentOk s₀ s₀ := ⟨0, rfl⟩

theorem Reachable.tail {s₀ s : PollState Sig} (h : Reachable env sendSlot numSentOk s₀ s) :
    Reachable env sendSlot numSentOk s₀ (step env sendSlot numSentOk s) := by
  obtain ⟨n, rfl⟩ := h
  exact ⟨n + 1, Function.iterate_succ_apply' _ _ _⟩

/-- An invariant of single steps holds along every run. -/
theorem Reachable.induction {P : PollState Sig → Prop} {s₀ s : PollState Sig}
    (h : Reachable env sendSlot numSentOk s₀ s) (h₀ : P s₀)
    (hstep : ∀ t, Reachable env sendSlot numSentOk s₀ t → P t → P (step env sendSlot numSentOk t)) :
    P s := by
  obtain ⟨n, rfl⟩ := h
  induction n with
  | zero => exact h₀
  | succ n ih =>
    rw [Function.iterate_succ_apply']
    exact hstep _ ⟨n, rfl⟩ ih

theorem runPolling_reachable {fuel : Nat} {s₀ s : PollState Sig}
    (h : runPolling env sendSlot numSentOk fuel s₀ = some s) :
    Reachable env sendSlot numSentOk s₀ s ∧ s.halted = true := by
  induction fuel generalizing s₀ with
  | zero =>
    simp only [runPolling, Option.ite_none_right_eq_some, Option.some.injEq] at h
    exact h.2 ▸ ⟨.refl _, h.1⟩
  | succ fuel ih =>
    simp only [runPolling] at h
    split at h
    · cases h; exact ⟨.refl _, by assumption⟩
    · obtain ⟨⟨n, rfl⟩, hh⟩ := ih h
      exact ⟨⟨n + 1, by rw [Function.iterate_succ_apply]⟩, hh⟩

end Step

end LiteRpc.Bench
