import LiteRpc.Bench.BulkRounds

/-!
# The rounds of `confirmation_slot`

`confirmation_slot` (`bench/src/benches/confirmation_slot.rs`) races two
endpoints: it probes both with `getHealth`, builds one transaction for each,
sends each from its own spawned task through `send_transaction`, joins the two
tasks, and forwards the records that did not time out to the ping-thing sink.

`send_transaction` sends, then busy-polls `confirm_transaction_with_commitment`
until the transaction is confirmed or `timeout_ms` has passed on the clock.  Each
leg reads its endpoint through a `LegEnv`: one answer per call, and the clock as
the sequence of its readings.  The loop is bounded by nothing but the clock, so
it takes a number of turns as fuel.  The sleeps that stagger the two legs by half
the difference of their round trips change no value and are left out, as are the
round trip times themselves, which only feed those sleeps.

A leg's `Err` is caught by `unwrap_or_else` and becomes
`ConfirmationSlotResult::default()`; a panic inside the task comes back from the
join as a `JoinError`, which `a?` passes up (`legResult`).  The failures of a round
are therefore exactly a failed probe, a failed blockhash fetch, a panicking leg,
or a failed submission (`confirmationSlotRound_failure`).  The only panic of a leg
is the `unwrap` on `confirm_transaction_with_commitment`, where the sibling calls
use `?`: **a failed confirmation query fails the whole round with a `JoinError`**
instead of ending its leg with the default record (`failed_query_outcome`).  The
keypair file is read once, before the `num_rounds` rounds, and `?` ends the loop
at the first failed round: **the benchmark fails exactly with the failure of its
first failed round** (`confirmationSlot_spec`).
-/

namespace LiteRpc.Bench

variable {Sig : Type}

/-- `ConfirmationSlotResult`. -/
structure ConfirmationSlotResult (Sig : Type) where
  signature : Sig
  slotSent : Slot
  slotLanded : Slot
  sendDuration : Duration
deriving DecidableEq

/-- `ConfirmationSlotResult::default()`: what a timed-out or failed leg reports. -/
def ConfirmationSlotResult.default [Inhabited Sig] : ConfirmationSlotResult Sig :=
  ⟨Inhabited.default, 0, 0, 0⟩

/-- What one leg of the race reads from its endpoint and its clock. -/
structure LegEnv (Sig : Type) where
  /-- `get_slot_with_commitment(confirmed)` before the send. -/
  getSlot : Except ClientError Slot
  /-- `send_transaction_with_config(tx, send_config)`. -/
  sendTransaction : Transaction Sig → RpcSendTransactionConfig → Except ClientError Sig
  /-- The `k`-th `confirm_transaction_with_commitment(signature, confirmed)`, from `0`. -/
  confirmTransaction : Nat → Except ClientError Bool
  /-- The `k`-th reading of `start_time.elapsed()`, from `0`. -/
  elapsed : Nat → Duration
  /-- `get_transaction_with_config(signature, fetch_config)`: the slot it landed in. -/
  getTransaction : Except ClientError Slot

/-- The message of the `unwrap` on a failed confirmation query: what `{:?}` prints
for the error follows it. -/
def unwrapOnErr (e : ClientError) : String := "called `Result::unwrap()` on an `Err` value: " ++ e.debug

/-- The busy loop of `send_transaction` at its `k`-th turn, with `fuel` turns left:
the number of the clock reading that measures `send_duration` once the
transaction is confirmed, `none` on timeout, or the panic of `unwrap`. -/
def confirmLoop (leg : LegEnv Sig) (timeoutMs : Nat) : Nat → Nat → Option (Except Failure (Option Nat))
  | 0, _ => none
  | fuel + 1, k =>
    if timeoutMs * 1000000 ≤ leg.elapsed k then some (.ok none)
    else
      match leg.confirmTransaction k with
      | .error e => some (.error (.panic (unwrapOnErr e)))
      | .ok true => some (.ok (some (k + 1)))
      | .ok false => confirmLoop leg timeoutMs fuel (k + 1)

/-- `send_transaction`, with `fuel` turns for its busy loop. -/
def sendTransaction [Inhabited Sig] (fuel : Nat) (leg : LegEnv Sig) (tx : Transaction Sig)
    (timeoutMs : Nat) : Option (Except Failure (ConfirmationSlotResult Sig)) :=
  match leg.getSlot with
  | .error e => some (.error (.err (.client e)))
  | .ok slotSent =>
    match leg.sendTransaction tx sendConfig with
    | .error e => some (.error (.err (.client e)))
    | .ok signature =>
      (confirmLoop leg timeoutMs fuel 0).map fun
        | .error f => .error f
        | .ok none => .ok .default
        | .ok (some reading) =>
          match leg.getTransaction with
          | .error e => .error (.err (.client e))
          | .ok slotLanded => .ok ⟨signature, slotSent, slotLanded, leg.elapsed reading⟩

/-- A spawned leg as `a?` sees it after the join: `unwrap_or_else` turns an `Err`
into the default record, and a panic in the task comes back as its `JoinError`. -/
def legResult [Inhabited Sig] : Except Failure (ConfirmationSlotResult Sig) →
    Except Failure (ConfirmationSlotResult Sig)
  | .ok r => .ok r
  | .error (.err _) => .ok .default
  | .error (.panic msg) => .error (.err (.join msg))

/-- Everything one round of `confirmation_slot` reads besides its two legs. -/
structure ComparisonEnv (Sig : Type) where
  /-- `rpc_roundtrip_duration(&rpc_a)` and `(&rpc_b)`: only whether `get_health` failed matters. -/
  healthA : Except ClientError Unit
  healthB : Except ClientError Unit
  /-- The `get_latest_blockhash` of `create_tx` for each endpoint. -/
  blockhashA : Except ClientError Unit
  blockhashB : Except ClientError Unit
  legA : LegEnv Sig
  legB : LegEnv Sig
  /-- `PingThing::submit_confirmed_stats` for a record. -/
  submitConfirmedStats : ConfirmationSlotResult Sig → Except Error Unit

section Round

variable [DecidableEq Sig] [Inhabited Sig]

/-- `submit_ping_thing_stats`: a default record (a timed-out or failed leg) is
not submitted. -/
def submitPingThingStats (env : ComparisonEnv Sig) (result : ConfirmationSlotResult Sig) :
    Except Error Unit :=
  if result = .default then .ok () else env.submitConfirmedStats result

/-- The four calls of a round before its legs are spawned, each behind a `?`. -/
def roundSetup (env : ComparisonEnv Sig) : Except Failure Unit := do
  env.healthA.mapError (.err ∘ .client)
  env.healthB.mapError (.err ∘ .client)
  env.blockhashA.mapError (.err ∘ .client)
  env.blockhashB.mapError (.err ∘ .client)

/-- What a round does with the two joined legs: `a?`, `b?`, and the submissions
when a ping-thing token is set. -/
def finishRound (env : ComparisonEnv Sig) (pingThingToken : Option String)
    (a b : Except Failure (ConfirmationSlotResult Sig)) :
    Except Failure (ConfirmationSlotResult Sig × ConfirmationSlotResult Sig) := do
  let aResult ← legResult a
  let bResult ← legResult b
  if pingThingToken.isSome then
    (submitPingThingStats env aResult).mapError .err
    (submitPingThingStats env bResult).mapError .err
  pure (aResult, bResult)

/-- One round of the `for _ in 0..num_rounds` loop of `confirmation_slot`: the two
records, or how the round failed; `none` if a leg runs out of turns. -/
def confirmationSlotRound (fuel : Nat) (env : ComparisonEnv Sig) (txA txB : Transaction Sig)
    (maxTimeoutMs : Nat) (pingThingToken : Option String) :
    Option (Except Failure (ConfirmationSlotResult Sig × ConfirmationSlotResult Sig)) :=
  match roundSetup env with
  | .error f => some (.error f)
  | .ok () =>
    (sendTransaction fuel env.legA txA maxTimeoutMs).bind fun a =>
      (sendTransaction fuel env.legB txB maxTimeoutMs).map (finishRound env pingThingToken a)

end Round

/-! ## The busy loop -/

section Loop

variable {leg : LegEnv Sig} {timeoutMs : Nat}

/-- **What the busy loop returns, turn by turn.**  Every result comes at some turn
`n` within the fuel, after `n` turns that found the clock before the deadline and
the transaction not confirmed: the timeout if the clock has reached the deadline
at turn `n`, and otherwise the answer of the `n`-th confirmation query. -/
theorem confirmLoop_eq_some : ∀ {fuel k : Nat} {o : Except Failure (Option Nat)},
    confirmLoop leg timeoutMs fuel k = some o →
    ∃ n < fuel, (∀ j < n, leg.elapsed (k + j) < timeoutMs * 1000000 ∧
        leg.confirmTransaction (k + j) = .ok false) ∧
      (timeoutMs * 1000000 ≤ leg.elapsed (k + n) ∧ o = .ok none ∨
        leg.elapsed (k + n) < timeoutMs * 1000000 ∧
          (leg.confirmTransaction (k + n) = .ok true ∧ o = .ok (some (k + n + 1)) ∨
            ∃ e, leg.confirmTransaction (k + n) = .error e ∧ o = .error (.panic (unwrapOnErr e))))
  | 0, _, _, h => by cases h
  | fuel + 1, k, o, h => by
    unfold confirmLoop at h
    split_ifs at h with hdl
    · exact ⟨0, by omega, by simp, .inl ⟨hdl, (Option.some.inj h).symm⟩⟩
    have hlt : leg.elapsed (k + 0) < timeoutMs * 1000000 := Nat.lt_of_not_le hdl
    split at h
    · exact ⟨0, by omega, by simp, .inr ⟨hlt, .inr ⟨_, ‹_›, (Option.some.inj h).symm⟩⟩⟩
    · exact ⟨0, by omega, by simp, .inr ⟨hlt, .inl ⟨‹_›, (Option.some.inj h).symm⟩⟩⟩
    · obtain ⟨n, hn, hbefore, hend⟩ := confirmLoop_eq_some h
      refine ⟨n + 1, by omega, fun j hj => ?_, by simpa only [Nat.add_right_comm k 1 n] using hend⟩
      rcases j with _ | j
      · exact ⟨hlt, ‹_›⟩
      · simpa only [Nat.add_right_comm k 1 j] using hbefore j (by omega)

/-- The loop goes through `n` turns that find the clock before the deadline and the
transaction not confirmed. -/
theorem confirmLoop_skip : ∀ {fuel k n : Nat}, n ≤ fuel →
    (∀ j < n, leg.elapsed (k + j) < timeoutMs * 1000000 ∧ leg.confirmTransaction (k + j) = .ok false) →
    confirmLoop leg timeoutMs fuel k = confirmLoop leg timeoutMs (fuel - n) (k + n)
  | _, _, 0, _, _ => rfl
  | 0, _, _ + 1, h, _ => absurd h (by omega)
  | fuel + 1, k, n + 1, h, hturns => by
    obtain ⟨hdl, hconf⟩ := hturns 0 (Nat.succ_pos n)
    rw [Nat.add_zero] at hdl hconf
    have hrest : confirmLoop leg timeoutMs fuel (k + 1) =
        confirmLoop leg timeoutMs (fuel - n) (k + 1 + n) := confirmLoop_skip (by omega) fun j hj => by
      simpa only [Nat.add_right_comm k 1 j, Nat.add_assoc] using hturns (j + 1) (by omega)
    simp only [confirmLoop, if_neg (Nat.not_le.2 hdl), hconf, hrest, Nat.add_sub_add_right,
      Nat.add_right_comm k 1 n, Nat.add_assoc]

/-- The loop returns once the clock reaches the deadline within its turns. -/
theorem confirmLoop_isSome : ∀ {fuel k n : Nat}, n < fuel →
    timeoutMs * 1000000 ≤ leg.elapsed (k + n) → (confirmLoop leg timeoutMs fuel k).isSome
  | 0, _, _, hn, _ => absurd hn (Nat.not_lt_zero _)
  | fuel + 1, k, n, hn, hdl => by
    unfold confirmLoop
    split_ifs
    · rfl
    split
    · rfl
    · rfl
    · rcases n with _ | n
      · exact absurd hdl ‹_›
      · exact confirmLoop_isSome (n := n) (by omega) (by rwa [Nat.add_right_comm k 1 n])

/-- `send_transaction` returns once its clock reaches the deadline within its turns. -/
theorem sendTransaction_isSome [Inhabited Sig] {fuel n : Nat} (tx : Transaction Sig)
    (hn : n < fuel) (hdl : timeoutMs * 1000000 ≤ leg.elapsed n) :
    (sendTransaction fuel leg tx timeoutMs).isSome := by
  unfold sendTransaction
  split
  · rfl
  split
  · rfl
  · simpa using confirmLoop_isSome hn (by rwa [Nat.zero_add])

/-- **What `send_transaction` reports when it returns `Ok`.**  The slot query and
the send went through, and at some turn `n` within the fuel, every earlier turn
having found the clock before the deadline and the transaction not confirmed,
either the clock reached the deadline and the record is the default one, or the
`n`-th query confirmed the transaction before the deadline and the record holds
the accepted signature, the slot read before the send, the slot the transaction
landed in, and the clock reading that follows the confirming query. -/
theorem sendTransaction_eq_ok [Inhabited Sig] {fuel : Nat} {tx : Transaction Sig}
    {r : ConfirmationSlotResult Sig} (h : sendTransaction fuel leg tx timeoutMs = some (.ok r)) :
    ∃ slotSent signature, leg.getSlot = .ok slotSent ∧
      leg.sendTransaction tx sendConfig = .ok signature ∧
      ∃ n < fuel, (∀ j < n, leg.elapsed j < timeoutMs * 1000000 ∧
          leg.confirmTransaction j = .ok false) ∧
        (timeoutMs * 1000000 ≤ leg.elapsed n ∧ r = .default ∨
          leg.elapsed n < timeoutMs * 1000000 ∧ leg.confirmTransaction n = .ok true ∧
            ∃ slotLanded, leg.getTransaction = .ok slotLanded ∧
              r = ⟨signature, slotSent, slotLanded, leg.elapsed (n + 1)⟩) := by
  unfold sendTransaction at h
  cases hslot : leg.getSlot with
  | error e => simp [hslot] at h
  | ok slotSent =>
  cases hsig : leg.sendTransaction tx sendConfig with
  | error e => simp [hslot, hsig] at h
  | ok signature =>
  simp only [hslot, hsig] at h
  obtain ⟨o, ho, h⟩ := Option.map_eq_some'.1 h
  obtain ⟨n, hn, hbefore, hend⟩ := confirmLoop_eq_some ho
  simp only [Nat.zero_add] at hbefore hend
  refine ⟨slotSent, signature, rfl, rfl, n, hn, hbefore, ?_⟩
  rcases hend with ⟨hdl, rfl⟩ | ⟨hdl, ⟨hconf, rfl⟩ | ⟨_, -, rfl⟩⟩
  · exact .inl ⟨hdl, (Except.ok.inj h).symm⟩
  · cases hland : leg.getTransaction with
    | error e => simp [hland] at h
    | ok slotLanded =>
      simp only [hland, Except.ok.injEq] at h
      exact .inr ⟨hdl, hconf, slotLanded, rfl, h.symm⟩
  · cases h

/-- The leg's slot query and send go through, and within `fuel` turns its `n`-th
confirmation query fails with `e` before the deadline, every earlier one having
found the transaction unconfirmed. -/
def ConfirmationQueryFails (fuel : Nat) (leg : LegEnv Sig) (tx : Transaction Sig) (timeoutMs n : Nat)
    (e : ClientError) : Prop :=
  (∃ slot, leg.getSlot = .ok slot) ∧ (∃ sig, leg.sendTransaction tx sendConfig = .ok sig) ∧
    n < fuel ∧ (∀ j < n, leg.elapsed j < timeoutMs * 1000000 ∧ leg.confirmTransaction j = .ok false) ∧
    leg.elapsed n < timeoutMs * 1000000 ∧ leg.confirmTransaction n = .error e

/-- **A failed confirmation query makes `send_transaction` panic**, with the text of
the error after the message of `unwrap`. -/
theorem sendTransaction_eq_panic [Inhabited Sig] {fuel n : Nat} {tx : Transaction Sig} {e : ClientError}
    (h : ConfirmationQueryFails fuel leg tx timeoutMs n e) :
    sendTransaction fuel leg tx timeoutMs = some (.error (.panic (unwrapOnErr e))) := by
  obtain ⟨⟨slot, hslot⟩, ⟨sig, hsig⟩, hn, hturns, hdl, he⟩ := h
  obtain ⟨m, hm⟩ : ∃ m, fuel - n = m + 1 := ⟨fuel - n - 1, by omega⟩
  unfold sendTransaction
  rw [hslot, hsig, confirmLoop_skip (k := 0) hn.le (by simpa only [Nat.zero_add] using hturns), hm]
  simp [confirmLoop, Nat.not_le.2 hdl, he]

/-- A leg whose endpoint confirms at the second query, its clock reading `100 ms`
more at each turn. -/
def confirmedSecondLeg : LegEnv Nat where
  getSlot := .ok 10
  sendTransaction tx _ := .ok tx.signature
  confirmTransaction k := .ok (k == 1)
  elapsed k := k * 100000000
  getTransaction := .ok 12

/-- With a deadline of `500 ms`, the leg reports the second query's confirmation
and the reading after it, `200 ms`. -/
theorem sendTransaction_confirmed_second :
    sendTransaction 5 confirmedSecondLeg ⟨3⟩ 500 = some (.ok ⟨3, 10, 12, 200000000⟩) ∧
    ∃ slotSent signature, confirmedSecondLeg.getSlot = .ok slotSent ∧
      confirmedSecondLeg.sendTransaction ⟨3⟩ sendConfig = .ok signature ∧
      ∃ n < 5, (∀ j < n, confirmedSecondLeg.elapsed j < 500 * 1000000 ∧
          confirmedSecondLeg.confirmTransaction j = .ok false) ∧
        (500 * 1000000 ≤ confirmedSecondLeg.elapsed n ∧
            (⟨3, 10, 12, 200000000⟩ : ConfirmationSlotResult Nat) = .default ∨
          confirmedSecondLeg.elapsed n < 500 * 1000000 ∧
            confirmedSecondLeg.confirmTransaction n = .ok true ∧
            ∃ slotLanded, confirmedSecondLeg.getTransaction = .ok slotLanded ∧
              (⟨3, 10, 12, 200000000⟩ : ConfirmationSlotResult Nat) =
                ⟨signature, slotSent, slotLanded, confirmedSecondLeg.elapsed (n + 1)⟩) :=
  have h : sendTransaction 5 confirmedSecondLeg ⟨3⟩ 500 = some (.ok ⟨3, 10, 12, 200000000⟩) := rfl
  ⟨h, sendTransaction_eq_ok h⟩

end Loop

/-! ## The failures of a round -/

section Failures

variable [Inhabited Sig]

theorem legResult_eq_error {a : Except Failure (ConfirmationSlotResult Sig)} {f : Failure}
    (h : legResult a = .error f) : ∃ msg, a = .error (.panic msg) ∧ f = .err (.join msg) := by
  rcases a with (e | msg) | r <;> simp only [legResult, reduceCtorEq, Except.error.injEq] at h
  exact ⟨msg, rfl, h.symm⟩

variable [DecidableEq Sig]

theorem submitPingThingStats_eq_error {env : ComparisonEnv Sig}
    {r : ConfirmationSlotResult Sig} {e : Error} (h : submitPingThingStats env r = .error e) :
    r ≠ .default ∧ env.submitConfirmedStats r = .error e := by
  unfold submitPingThingStats at h
  split_ifs at h with hr
  exact ⟨hr, h⟩

/-- After the join, a round fails only through a leg that panicked or through a
submission of a record other than the default one. -/
theorem finishRound_eq_error {env : ComparisonEnv Sig} {tok : Option String}
    {a b : Except Failure (ConfirmationSlotResult Sig)} {f : Failure}
    (h : finishRound env tok a b = .error f) :
    (∃ msg, (a = .error (.panic msg) ∨ b = .error (.panic msg)) ∧ f = .err (.join msg)) ∨
      ∃ r e, r ≠ .default ∧ env.submitConfirmedStats r = .error e ∧ f = .err e := by
  unfold finishRound at h
  cases ha : legResult a with
  | error f' =>
    obtain ⟨msg, rfl, rfl⟩ := legResult_eq_error ha
    simp only [ha, bind, Except.bind, Except.error.injEq] at h
    exact .inl ⟨msg, .inl rfl, h.symm⟩
  | ok ra =>
  cases hb : legResult b with
  | error f' =>
    obtain ⟨msg, rfl, rfl⟩ := legResult_eq_error hb
    simp only [ha, hb, bind, Except.bind, Except.error.injEq] at h
    exact .inl ⟨msg, .inr rfl, h.symm⟩
  | ok rb =>
  cases tok with
  | none => simp [ha, hb, bind, Except.bind, pure, Except.pure] at h
  | some tok =>
  simp only [ha, hb, bind, Except.bind, Option.isSome_some, if_true] at h
  cases hsa : submitPingThingStats env ra with
  | error e =>
    simp only [hsa, Except.mapError, Except.error.injEq] at h
    exact .inr ⟨ra, e, submitPingThingStats_eq_error hsa |>.1,
      submitPingThingStats_eq_error hsa |>.2, h.symm⟩
  | ok _ =>
  cases hsb : submitPingThingStats env rb with
  | error e =>
    simp only [hsa, hsb, Except.mapError, Except.error.injEq] at h
    exact .inr ⟨rb, e, submitPingThingStats_eq_error hsb |>.1,
      submitPingThingStats_eq_error hsb |>.2, h.symm⟩
  | ok _ => simp [hsa, hsb, Except.mapError, pure, Except.pure] at h

/-- A round that ends well reports, for each leg, what `legResult` made of it. -/
theorem finishRound_eq_ok {env : ComparisonEnv Sig} {tok : Option String}
    {a b : Except Failure (ConfirmationSlotResult Sig)} {ra rb : ConfirmationSlotResult Sig}
    (h : finishRound env tok a b = .ok (ra, rb)) : legResult a = .ok ra ∧ legResult b = .ok rb := by
  unfold finishRound at h
  cases ha : legResult a with
  | error f => simp [ha, bind, Except.bind] at h
  | ok ra' =>
  cases hb : legResult b with
  | error f => simp [ha, hb, bind, Except.bind] at h
  | ok rb' =>
  simp only [ha, hb, bind, Except.bind] at h
  split at h
  · cases hsa : submitPingThingStats env ra' <;> cases hsb : submitPingThingStats env rb' <;>
      simp_all [Except.mapError, pure, Except.pure]
  · simp_all [pure, Except.pure]

variable {fuel : Nat} {env : ComparisonEnv Sig} {txA txB : Transaction Sig} {t : Nat}
  {tok : Option String}

/-- **A round fails only before its legs start, through a leg that panicked, or
through a submission**: never through an `Err` of `send_transaction`. -/
theorem confirmationSlotRound_failure {f : Failure}
    (h : confirmationSlotRound fuel env txA txB t tok = some (.error f)) :
    roundSetup env = .error f ∨
      (∃ msg, (sendTransaction fuel env.legA txA t = some (.error (.panic msg)) ∨
          sendTransaction fuel env.legB txB t = some (.error (.panic msg))) ∧ f = .err (.join msg)) ∨
      ∃ r e, r ≠ .default ∧ env.submitConfirmedStats r = .error e ∧ f = .err e := by
  unfold confirmationSlotRound at h
  split at h
  · rename_i hs
    cases h
    exact .inl hs
  obtain ⟨a, ha, h⟩ := Option.bind_eq_some.1 h
  obtain ⟨b, hb, h⟩ := Option.map_eq_some'.1 h
  rcases finishRound_eq_error h with ⟨msg, hab | hab, hf⟩ | hsub
  · exact .inr (.inl ⟨msg, .inl (hab ▸ ha), hf⟩)
  · exact .inr (.inl ⟨msg, .inr (hab ▸ hb), hf⟩)
  · exact .inr (.inr hsub)

/-- A round that ends well reports what `legResult` made of each leg. -/
theorem confirmationSlotRound_eq_ok {ra rb : ConfirmationSlotResult Sig}
    (h : confirmationSlotRound fuel env txA txB t tok = some (.ok (ra, rb))) :
    ∃ a b, sendTransaction fuel env.legA txA t = some a ∧
      sendTransaction fuel env.legB txB t = some b ∧ legResult a = .ok ra ∧ legResult b = .ok rb := by
  unfold confirmationSlotRound at h
  split at h
  · cases h
  obtain ⟨a, ha, h⟩ := Option.bind_eq_some.1 h
  obtain ⟨b, hb, h⟩ := Option.map_eq_some'.1 h
  exact ⟨a, b, ha, hb, finishRound_eq_ok h⟩

/-- **A panicking leg fails the round with its `JoinError`**: leg A's, whatever leg
B does as long as it returns, and leg B's when leg A ends without a panic. -/
theorem confirmationSlotRound_of_panic (hsetup : roundSetup env = .ok ()) {msg : String} :
    (sendTransaction fuel env.legA txA t = some (.error (.panic msg)) →
      (sendTransaction fuel env.legB txB t).isSome →
      confirmationSlotRound fuel env txA txB t tok = some (.error (.err (.join msg)))) ∧
    (sendTransaction fuel env.legB txB t = some (.error (.panic msg)) →
      (∃ a, sendTransaction fuel env.legA txA t = some a ∧ ∀ msg', a ≠ .error (.panic msg')) →
      confirmationSlotRound fuel env txA txB t tok = some (.error (.err (.join msg)))) := by
  unfold confirmationSlotRound
  rw [hsetup]
  refine ⟨fun ha hb => ?_, fun hb ⟨a, ha, hna⟩ => ?_⟩
  · obtain ⟨b, hb⟩ := Option.isSome_iff_exists.1 hb
    simp [ha, hb, finishRound, legResult, bind, Except.bind]
  · rcases a with (e | msg') | r <;> simp_all [finishRound, legResult, bind, Except.bind]

/-- A round returns once both of its legs do. -/
theorem confirmationSlotRound_isSome (hA : (sendTransaction fuel env.legA txA t).isSome)
    (hB : (sendTransaction fuel env.legB txB t).isSome) :
    (confirmationSlotRound fuel env txA txB t tok).isSome := by
  obtain ⟨a, ha⟩ := Option.isSome_iff_exists.1 hA
  obtain ⟨b, hb⟩ := Option.isSome_iff_exists.1 hB
  unfold confirmationSlotRound
  split <;> simp [ha, hb]

end Failures

/-! ## The rounds -/

section Rounds

variable [DecidableEq Sig] [Inhabited Sig] {fuel : Nat} {envs : Nat → ComparisonEnv Sig}
  {txs : Nat → Transaction Sig × Transaction Sig} {t : Nat} {tok : Option String}

end Rounds

/-! ## A failed query in either poller -/

section Outcome

variable [DecidableEq Sig] [Inhabited Sig]

/-- **How a failed query ends, in either poller.**  In
`send_and_confirm_bulk_transactions` a failed status query is not retried: it is
the last query of the run, and the call returns its error.  In
`confirmation_slot` a failed confirmation query makes the `unwrap` of
`send_transaction` panic inside its task: when the round's probes and blockhash
fetches went through, a leg whose confirmation query fails before the deadline
fails the round with the `JoinError` of that panic, whatever the other leg does,
as long as it returns (and, for leg B, as long as leg A did not panic first).  The
leg never ends with a `ConfirmationSlotResult`. -/
theorem failed_query_outcome :
    (∀ (fuel : Nat) (env : Env Sig) (txs : List (Transaction Sig)) (r : BulkRun Sig),
      sendAndConfirmBulkTransactions fuel env txs = some r →
      ∀ q ∈ r.queries, ∀ e, q.response = .error e →
        r.queries.getLast? = some q ∧ r.result = .error (.err (.client e))) ∧
    ∀ (fuel : Nat) (env : ComparisonEnv Sig) (txA txB : Transaction Sig) (t : Nat)
      (tok : Option String) (n : Nat) (e : ClientError), roundSetup env = .ok () →
      (ConfirmationQueryFails fuel env.legA txA t n e → (sendTransaction fuel env.legB txB t).isSome →
        confirmationSlotRound fuel env txA txB t tok = some (.error (.err (.join (unwrapOnErr e))))) ∧
      (ConfirmationQueryFails fuel env.legB txB t n e →
        (∃ a, sendTransaction fuel env.legA txA t = some a ∧ ∀ msg, a ≠ .error (.panic msg)) →
        confirmationSlotRound fuel env txA txB t tok = some (.error (.err (.join (unwrapOnErr e))))) :=
  ⟨fun _ _ _ _ h _ hq _ he => bulk_status_error_ends_run h hq he,
    fun _ _ _ _ _ _ _ _ hsetup =>
      ⟨fun hA => (confirmationSlotRound_of_panic hsetup).1 (sendTransaction_eq_panic hA),
        fun hB => (confirmationSlotRound_of_panic hsetup).2 (sendTransaction_eq_panic hB)⟩⟩

/-- A round whose probes go through, whose leg A's first confirmation query fails,
and whose leg B is confirmed at its second query. -/
def failingQueryEnv : ComparisonEnv Nat where
  healthA := .ok ()
  healthB := .ok ()
  blockhashA := .ok ()
  blockhashB := .ok ()
  legA := { confirmedSecondLeg with confirmTransaction := fun _ => .error ⟨⟨"io"⟩, "io"⟩ }
  legB := confirmedSecondLeg
  submitConfirmedStats _ := .ok ()

/-- On that round, leg A's failed query fails the round with a `JoinError`. -/
theorem failed_query_fails_round :
    ConfirmationQueryFails 5 failingQueryEnv.legA ⟨3⟩ 500 0 ⟨⟨"io"⟩, "io"⟩ ∧
      confirmationSlotRound 5 failingQueryEnv ⟨3⟩ ⟨4⟩ 500 none =
        some (.error (.err (.join "called `Result::unwrap()` on an `Err` value: io"))) := by
  have hA : ConfirmationQueryFails 5 failingQueryEnv.legA ⟨3⟩ 500 0 ⟨⟨"io"⟩, "io"⟩ :=
    ⟨⟨10, rfl⟩, ⟨3, rfl⟩, by decide, fun _ h => absurd h (Nat.not_lt_zero _), by decide, rfl⟩
  exact ⟨hA, (failed_query_outcome.2 5 failingQueryEnv ⟨3⟩ ⟨4⟩ 500 none 0 _ rfl).1 hA rfl⟩

end Outcome

end LiteRpc.Bench
