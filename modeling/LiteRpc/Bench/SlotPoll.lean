import LiteRpc.Bench.Rpc

/-!
# Catching the start of a slot: `poll_next_slot_start`

`poll_next_slot_start` (`bench/src/benches/rpc_interface.rs`) polls the
confirmed slot and stops at the first observation that is exactly one past the
previous one, the moment the ledger has just moved on.  It gives up after 500
polls.

The endpoint is a function `getSlot n`: what the `n`-th
`get_slot_with_commitment(confirmed)` call returns, counting from `0`.  The
model returns the number of slot queries made besides the outcome, which is
where a caller's next slot query lands.  The sleeps between polls change no
value and are left out.

`pollNextSlotStart_finds_first_step` is the whole contract: for every sequence
of successful observations, the result is the first clean step within the
budget, found after exactly that many queries, or the timeout after exactly 500.
-/

namespace LiteRpc.Bench

/-- The message of `bail!` when no clean slot change was seen. -/
def timeoutWaitingForSlotChange : String := "Timeout waiting for slot change"

/-- The `loop` of `poll_next_slot_start` at iteration `i`, holding `last_slot`:
its outcome, and the number of slot queries made in all. -/
def pollNextSlotStartLoop (getSlot : Nat → Except ClientError Slot) (lastSlot : Option Slot)
    (i : Nat) : Except Error Slot × Nat :=
  if 500 < i then (.error (.bail timeoutWaitingForSlotChange), i - 1)
  else
    match getSlot (i - 1) with
    | .error e => (.error (.client e), i)
    | .ok slot =>
      if lastSlot.any (· + 1 == slot) then (.ok slot, i)
      else pollNextSlotStartLoop getSlot (some slot) (i + 1)
termination_by 501 - i

/-- `poll_next_slot_start`. -/
def pollNextSlotStart (getSlot : Nat → Except ClientError Slot) : Except Error Slot × Nat :=
  pollNextSlotStartLoop getSlot none 1

section Loop

variable (getSlot : Nat → Except ClientError Slot)

theorem pollNextSlotStartLoop_of_gt {i : Nat} (hi : 500 < i) (lastSlot : Option Slot) :
    pollNextSlotStartLoop getSlot lastSlot i =
      (.error (.bail timeoutWaitingForSlotChange), i - 1) := by
  rw [pollNextSlotStartLoop, if_pos hi]

theorem pollNextSlotStartLoop_of_ok {i : Nat} (slot : Slot) (hi : i ≤ 500)
    (h : getSlot (i - 1) = .ok slot) (lastSlot : Option Slot) :
    pollNextSlotStartLoop getSlot lastSlot i =
      if lastSlot.any (· + 1 == slot) then (.ok slot, i)
      else pollNextSlotStartLoop getSlot (some slot) (i + 1) := by
  rw [pollNextSlotStartLoop, if_neg (by omega), h]

end Loop

/-! ## The contract -/

/-- `a + 1 == b` on `u64` is the step `b = a + 1` of the naturals, once `a` is
below `u64::MAX`. -/
theorem succ_beq_eq_decide {a b : Slot} (h : a.toNat + 1 < UInt64.size) :
    (a + 1 == b) = decide (b.toNat = a.toNat + 1) := by
  have h1 : (a + 1).toNat = a.toNat + 1 := by
    show (a.toBitVec + 1#64).toNat = a.toBitVec.toNat + 1
    rw [BitVec.toNat_add, BitVec.toNat_ofNat, Nat.add_mod_mod]
    exact Nat.mod_eq_of_lt h
  rw [Bool.eq_iff_iff, beq_iff_eq, decide_eq_true_iff]
  exact ⟨fun h2 => h2 ▸ h1, fun hb => UInt64.toNat.inj (by rw [h1, hb])⟩

/-- The `j`-th of the observations `o 1, o 2, …` is one past the `(j-1)`-th, within
the budget of 500 queries. -/
def IsSlotStart (o : Nat → Slot) (j : Nat) : Prop :=
  2 ≤ j ∧ j ≤ 500 ∧ (o j).toNat = (o (j - 1)).toNat + 1

instance (o : Nat → Slot) (j : Nat) : Decidable (IsSlotStart o j) :=
  inferInstanceAs (Decidable (_ ∧ _ ∧ _))

section Observations

variable {o : Nat → Slot} (hmax : ∀ k, (o k).toNat + 1 < UInt64.size)
include hmax

/-- One poll from `i ≥ 2`, with the previous observation remembered. -/
theorem pollNextSlotStartLoop_obs {i : Nat} (hi : 2 ≤ i) (hi' : i ≤ 500) :
    pollNextSlotStartLoop (fun n => .ok (o (n + 1))) (some (o (i - 1))) i =
      if IsSlotStart o i then (.ok (o i), i)
      else pollNextSlotStartLoop (fun n => .ok (o (n + 1))) (some (o i)) (i + 1) := by
  rw [pollNextSlotStartLoop_of_ok _ (o i) hi' (by simp only [Nat.sub_add_cancel (by omega : 1 ≤ i)]),
    Option.any_some, succ_beq_eq_decide (hmax _)]
  simp only [IsSlotStart, decide_eq_true_eq, hi, hi', true_and]

theorem pollNextSlotStartLoop_found {i j : Nat} (hi : 2 ≤ i) (hij : i ≤ j)
    (hj : IsSlotStart o j) (hfirst : ∀ k, i ≤ k → k < j → ¬IsSlotStart o k) :
    pollNextSlotStartLoop (fun n => .ok (o (n + 1))) (some (o (i - 1))) i = (.ok (o j), j) := by
  obtain ⟨n, h⟩ : ∃ n, j - i = n := ⟨_, rfl⟩
  induction n generalizing i with
  | zero =>
    obtain rfl : i = j := by omega
    rw [pollNextSlotStartLoop_obs hmax hi hj.2.1, if_pos hj]
  | succ n ih =>
    rw [pollNextSlotStartLoop_obs hmax hi (by have := hj.2.1; omega),
      if_neg (hfirst i le_rfl (by omega))]
    simpa using ih (i := i + 1) (by omega) (by omega) (fun k hk => hfirst k (by omega)) (by omega)

theorem pollNextSlotStartLoop_timeout {i : Nat} (hi : 2 ≤ i) (hi' : i ≤ 501)
    (hnone : ∀ k, i ≤ k → ¬IsSlotStart o k) :
    pollNextSlotStartLoop (fun n => .ok (o (n + 1))) (some (o (i - 1))) i =
      (.error (.bail timeoutWaitingForSlotChange), 500) := by
  obtain ⟨n, h⟩ : ∃ n, 501 - i = n := ⟨_, rfl⟩
  induction n generalizing i with
  | zero => rw [pollNextSlotStartLoop_of_gt _ (by omega)]; congr; omega
  | succ n ih =>
    rw [pollNextSlotStartLoop_obs hmax hi (by omega), if_neg (hnone i le_rfl)]
    simpa using ih (i := i + 1) (by omega) (by omega) (fun k hk => hnone k (by omega)) (by omega)

/-- **`poll_next_slot_start` returns the first clean slot step.**  For every
sequence `o 1, o 2, …` of successful observations below `u64::MAX`, the call
returns `o j` for the least `j ∈ [2, 500]` with `o j = o (j-1) + 1`, after exactly
`j` queries; when there is none, it fails with the timeout after exactly 500
queries.  Equal, falling or multi-step observations never end the search. -/
theorem pollNextSlotStart_finds_first_step :
    (∀ j, IsSlotStart o j → (∀ k < j, ¬IsSlotStart o k) →
      pollNextSlotStart (fun n => .ok (o (n + 1))) = (.ok (o j), j)) ∧
    ((∀ j, ¬IsSlotStart o j) →
      pollNextSlotStart (fun n => .ok (o (n + 1))) =
        (.error (.bail timeoutWaitingForSlotChange), 500)) := by
  have hfirst : pollNextSlotStart (fun n => .ok (o (n + 1))) =
      pollNextSlotStartLoop (fun n => .ok (o (n + 1))) (some (o (2 - 1))) 2 := by
    rw [pollNextSlotStart, pollNextSlotStartLoop_of_ok _ (o 1) (by omega) rfl]
    rfl
  rw [hfirst]
  exact ⟨fun j hj hlt => pollNextSlotStartLoop_found hmax le_rfl hj.1 hj (fun k _ hk => hlt k hk),
    fun hnone => pollNextSlotStartLoop_timeout hmax le_rfl (by omega) (fun k _ => hnone k)⟩

end Observations

/-- The observations `[5, 5, 6, 7, 7, 8]` of the spec's example, then `8` for ever. -/
def specSlotObservations (k : Nat) : Slot := ([0, 5, 5, 6, 7, 7, 8].getD k 8 : Nat).toUInt64

/-- On the spec's observations `[5, 5, 6, 7, 7, 8]` the aligner returns `6`, the
first clean step, after three queries. -/
theorem pollNextSlotStart_spec_observations :
    (∀ k, (specSlotObservations k).toNat + 1 < UInt64.size) ∧
      pollNextSlotStart (fun n => .ok (specSlotObservations (n + 1))) = (.ok 6, 3) := by
  have hmax : ∀ k, (specSlotObservations k).toNat + 1 < UInt64.size := by
    intro k
    have : ([0, 5, 5, 6, 7, 7, 8].getD k 8 : Nat) ≤ 8 := by
      rcases k with _ | _ | _ | _ | _ | _ | _ | k <;> simp
    simp only [specSlotObservations, Nat.toUInt64, UInt64.toNat_ofNat_of_lt
      (by simp only [UInt64.size]; omega : ([0, 5, 5, 6, 7, 7, 8].getD k 8 : Nat) < UInt64.size)]
    simp only [UInt64.size]; omega
  exact ⟨hmax, (pollNextSlotStart_finds_first_step hmax).1 3 (by decide)
    (by decide)⟩

end LiteRpc.Bench
