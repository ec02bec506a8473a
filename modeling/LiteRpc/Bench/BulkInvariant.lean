import LiteRpc.Bench.BulkPoll

/-!
# Nothing lost, nothing recorded twice

The invariant of the polling loop of `send_and_confirm_bulk_transactions`
(`Conserved`): the pending set and the keys of the result map always split the
accepted signatures between them (`Splits`), and each program point agrees with
the pending set (`PcAgrees`): the pairs a round still has to visit name distinct
pending signatures, the timeout loop still has to visit exactly the pending set,
and a run that failed did so by an error, never by a panic.

It holds from the first round on exactly when the accepted signatures are
distinct (`conserved_initial`), and every step keeps it (`conserved_step`).  From
it, every step of such a run moves signatures as the source intends
(`StepMoves`): the pending set only shrinks, a signature leaves it only in the
step that records it, and no record is ever overwritten.
`bulk_polling_conservation` puts these together.  With a repeated signature the
consistency assertion fails on the first round (`initial_assert_fails`).
-/

namespace LiteRpc.Bench

variable {Sig : Type}

/-! ## The split of the accepted signatures -/

/-- The pending set and the keys of the result map split `sigs` between them. -/
def Splits (sigs : List Sig) (pending : HashSet Sig)
    (results : HashMap Sig ConfirmationResponseFromRpc) : Prop :=
  (pending.elems ++ results.keys).Perm sigs

section Splits

variable {sigs : List Sig} {pending : HashSet Sig} {results : HashMap Sig ConfirmationResponseFromRpc}

theorem Splits.disjoint (hnd : sigs.Nodup) (h : Splits sigs pending results) :
    pending.elems.Disjoint results.keys :=
  List.disjoint_of_nodup_append ((List.Perm.nodup_iff h).2 hnd)

theorem Splits.mem_iff (h : Splits sigs pending results) (x : Sig) :
    x ∈ pending.elems ∨ x ∈ results.keys ↔ x ∈ sigs := by
  rw [← List.mem_append]; exact List.Perm.mem_iff h

theorem Splits.len (h : Splits sigs pending results) :
    pending.len + results.len = sigs.length := by
  simpa [HashSet.len] using List.Perm.length_eq h

theorem map_fst_zip_sublist (l₁ : List Sig) (l₂ : List (Option TransactionStatus)) :
    ((l₁.zip l₂).map Prod.fst).Sublist l₁ := by
  induction l₁ generalizing l₂ with
  | nil => simp
  | cons a l ih =>
    cases l₂ with
    | nil => simp
    | cons b l₂ => simpa using (ih l₂).cons_cons a

variable [DecidableEq Sig]

/-- A fresh key goes into the map without displacing anything. -/
theorem Splits.insert_fresh (hnd : sigs.Nodup) (h : Splits sigs pending results) {x : Sig}
    (hx : x ∈ pending.elems) (v : ConfirmationResponseFromRpc) :
    (results.insert x v).1 = none ∧ (results.insert x v).2.entries = (x, v) :: results.entries :=
  HashMap.insert_of_not_mem (fun hk => h.disjoint hnd hx hk) v

/-- Moving a pending signature into the result map keeps the split. -/
theorem Splits.move (hnd : sigs.Nodup) (h : Splits sigs pending results) {x : Sig}
    (hx : x ∈ pending.elems) (v : ConfirmationResponseFromRpc) :
    Splits sigs (pending.remove x) (results.insert x v).2 := by
  have hkeys : (results.insert x v).2.keys = x :: results.keys := by
    simp [HashMap.keys, (h.insert_fresh hnd hx v).2]
  rw [Splits, hkeys, HashSet.elems_remove]
  exact List.perm_middle.trans (((List.perm_cons_erase hx).append_right _).symm.trans h)

end Splits

/-! ## The invariant -/

variable [DecidableEq Sig]

/-- What each program point promises about the pending set. -/
def PcAgrees (s : PollState Sig) : Prop :=
  match s.pc with
  | .zip rest _ =>
    (rest.map Prod.fst).Nodup ∧ ∀ x ∈ rest.map Prod.fst, x ∈ s.pendingStatusSet.elems
  | .flush rest _ => rest.Perm s.pendingStatusSet.elems
  | .done => s.pendingStatusSet.elems = []
  | .failed f => ∃ e, f = .err (.client e)
  | _ => True

/-- The invariant of the polling loop, for the accepted signatures `sigs`. -/
structure Conserved (sigs : List Sig) (s : PollState Sig) : Prop where
  splits : Splits sigs s.pendingStatusSet s.resultStatusMap
  agrees : PcAgrees s

/-- What one step does to the two containers: nothing, or one move of a pending
signature, not yet a key, into the map. -/
def Moves (s t : PollState Sig) : Prop :=
  (t.pendingStatusSet = s.pendingStatusSet ∧ t.resultStatusMap = s.resultStatusMap) ∨
  ∃ x ∈ s.pendingStatusSet.elems, x ∉ s.resultStatusMap.keys ∧
    t.pendingStatusSet = s.pendingStatusSet.remove x ∧
    ∃ v, t.resultStatusMap.entries = (x, v) :: s.resultStatusMap.entries

section Step

variable {env : Env Sig} {sendSlot : Slot} {sigs : List Sig}

/-- **Every step keeps the invariant**, once the accepted signatures are distinct,
and does nothing to the containers but move one pending signature. -/
theorem conserved_step (hnd : sigs.Nodup) {s : PollState Sig} (h : Conserved sigs s) :
    Conserved sigs (step env sendSlot sigs.length s) ∧
      Moves s (step env sendSlot sigs.length s) := by
  rcases s with ⟨pc, pending, results, iteration, queries⟩
  obtain ⟨hs, ha⟩ := h
  have hnot : ∀ {x}, x ∈ pending.elems → x ∉ results.keys := fun hx hk => hs.disjoint hnd hx hk
  cases pc with
  | top =>
    simp only [step, if_neg (not_not.2 hs.len)]
    split
    · exact ⟨⟨hs, ⟨_, rfl⟩⟩, .inl ⟨rfl, rfl⟩⟩
    · refine ⟨⟨hs, ((map_fst_zip_sublist _ _).nodup ?_), fun x hx => ?_⟩, .inl ⟨rfl, rfl⟩⟩
      · exact ((env.statusOrder _).perm _).nodup_iff.2 pending.nodup
      · exact ((env.statusOrder _).perm _).mem_iff.1 ((map_fst_zip_sublist _ _).subset hx)
  | zip rest elapsed =>
    rcases rest with _ | ⟨⟨x, _ | st⟩, rest⟩
    · exact ⟨⟨hs, trivial⟩, .inl ⟨rfl, rfl⟩⟩
    · obtain ⟨hnd', hmem⟩ := ha
      exact ⟨⟨hs, (List.nodup_cons.1 hnd').2, fun y hy => hmem y (List.mem_cons_of_mem _ hy)⟩,
        .inl ⟨rfl, rfl⟩⟩
    · obtain ⟨hnd', hmem⟩ := ha
      have hx : x ∈ pending.elems := hmem x (List.mem_cons_self _ _)
      simp only [step]
      split
      · exact ⟨⟨hs, trivial⟩, .inl ⟨rfl, rfl⟩⟩
      · refine ⟨⟨hs.move hnd hx _, ?_⟩, .inr ⟨x, hx, hnot hx, rfl, _, (hs.insert_fresh hnd hx _).2⟩⟩
        simp only [PcAgrees, (hs.insert_fresh hnd hx _).1, Option.isNone_none, if_true]
        refine ⟨(List.nodup_cons.1 hnd').2, fun y hy => HashSet.mem_remove.2 ⟨?_, ?_⟩⟩
        · rintro rfl; exact (List.nodup_cons.1 hnd').1 hy
        · exact hmem y (List.mem_cons_of_mem _ hy)
  | bottom =>
    simp only [step]
    split
    · exact ⟨⟨hs, (env.flushOrder.perm _)⟩, .inl ⟨rfl, rfl⟩⟩
    · exact ⟨⟨hs, trivial⟩, .inl ⟨rfl, rfl⟩⟩
  | flush rest total =>
    rcases rest with _ | ⟨x, rest⟩
    · exact ⟨⟨hs, (List.Perm.nil_eq ha).symm⟩, .inl ⟨rfl, rfl⟩⟩
    · have hx : x ∈ pending.elems := ha.mem_iff.1 (List.mem_cons_self _ _)
      exact ⟨⟨hs.move hnd hx _, by simpa using ha.erase x⟩,
        .inr ⟨x, hx, hnot hx, rfl, _, (hs.insert_fresh hnd hx _).2⟩⟩
  | done => exact ⟨⟨hs, ha⟩, .inl ⟨rfl, rfl⟩⟩
  | failed f => exact ⟨⟨hs, ha⟩, .inl ⟨rfl, rfl⟩⟩

end Step

/-! ## Whole runs -/

/-- What the source asks of every step `s ⟶ t` of the loop. -/
structure StepMoves (s t : PollState Sig) : Prop where
  /-- The pending set never grows. -/
  shrinks : ∀ x ∈ t.pendingStatusSet.elems, x ∈ s.pendingStatusSet.elems
  /-- A signature leaves the pending set only in the step that records it. -/
  leaves_recorded : ∀ x ∈ s.pendingStatusSet.elems, x ∉ t.pendingStatusSet.elems →
    x ∉ s.resultStatusMap.keys ∧ x ∈ t.resultStatusMap.keys
  /-- No record is overwritten. -/
  keeps_records : ∀ e ∈ s.resultStatusMap.entries, e ∈ t.resultStatusMap.entries

theorem Moves.stepMoves {s t : PollState Sig} (h : Moves s t) : StepMoves s t := by
  rcases h with ⟨hp, hr⟩ | ⟨x, hx, hxk, hp, v, hr⟩
  · exact ⟨fun y hy => hp ▸ hy, fun y hy hy' => absurd (hp ▸ hy) hy', fun e he => hr ▸ he⟩
  · refine ⟨fun y hy => (HashSet.mem_remove.1 (hp ▸ hy)).2, fun y hy hy' => ?_,
      fun e he => hr ▸ List.mem_cons_of_mem _ he⟩
    obtain rfl : y = x := by_contra fun hne => hy' (hp ▸ HashSet.mem_remove.2 ⟨hne, hy⟩)
    exact ⟨hxk, by simp [HashMap.keys, hr]⟩

section Run

variable {env : Env Sig} {sendSlot : Slot} {sigs : List Sig}

/-- With distinct accepted signatures the first round starts inside the invariant. -/
theorem conserved_initial (hnd : sigs.Nodup) :
    Conserved sigs (initialPollState (sigs.map Except.ok)) :=
  ⟨by simpa [Splits, initialPollState, HashMap.keys] using HashSet.foldl_insert_perm hnd, trivial⟩

/-- With a repeated accepted signature the consistency assertion of the first round
fails. -/
theorem initial_assert_fails (env : Env Sig) (sendSlot : Slot) (h : ¬sigs.Nodup) :
    (step env sendSlot (numSentOk (sigs.map Except.ok))
      (initialPollState (sigs.map Except.ok))).pc = .failed (.panic itemsMustMove) := by
  have hlen : (sigs.foldl HashSet.insert HashSet.new).len ≠ sigs.length :=
    fun heq => h (HashSet.nodup_of_len_foldl_insert heq)
  simp [step, initialPollState, numSentOk_map_ok, hlen, HashMap.keys]

theorem conserved_reachable (hnd : sigs.Nodup) {s : PollState Sig}
    (h : Reachable env sendSlot sigs.length (initialPollState (sigs.map Except.ok)) s) :
    Conserved sigs s :=
  h.induction (conserved_initial hnd) fun _ _ ht => (conserved_step hnd ht).1

/-- **The polling loop conserves the accepted signatures.**  For every batch whose
sends all succeed, every endpoint behaviour and every hash-set order: the
consistency assertion never fails exactly when the accepted signatures are
distinct, and then, in every state of the run (each round's start and the end of
the timeout flush among them), the pending set and the keys of the result map are
disjoint and together exactly the accepted signatures; the flush leaves nothing
pending; no insertion trips `Must not override existing value`; and every step
only shrinks the pending set, takes a signature out of it only while recording
it, and keeps every record. -/
theorem bulk_polling_conservation (env : Env Sig) (sendSlot : Slot) (sigs : List Sig) :
    ((∀ s, Reachable env sendSlot (numSentOk (sigs.map Except.ok))
        (initialPollState (sigs.map Except.ok)) s → s.pc ≠ .failed (.panic itemsMustMove)) ↔
      sigs.Nodup) ∧
    (sigs.Nodup → ∀ s, Reachable env sendSlot (numSentOk (sigs.map Except.ok))
        (initialPollState (sigs.map Except.ok)) s →
      s.pendingStatusSet.elems.Disjoint s.resultStatusMap.keys ∧
      (∀ x, x ∈ s.pendingStatusSet.elems ∨ x ∈ s.resultStatusMap.keys ↔ x ∈ sigs) ∧
      (s.pc = .done → s.pendingStatusSet.elems = []) ∧
      s.pc ≠ .failed (.panic mustNotOverride) ∧
      StepMoves s (step env sendSlot (numSentOk (sigs.map Except.ok)) s)) := by
  rw [numSentOk_map_ok]
  have hgood : sigs.Nodup → ∀ s, Reachable env sendSlot sigs.length
      (initialPollState (sigs.map Except.ok)) s → ∀ m, s.pc ≠ .failed (.panic m) := by
    intro hnd s hs m hpc
    have ha := (conserved_reachable hnd hs).agrees
    simp only [PcAgrees, hpc] at ha
    obtain ⟨e, he⟩ := ha
    cases he
  refine ⟨⟨fun h => by_contra fun hnd => h _ (Reachable.refl _).tail ?_,
      fun hnd s hs => hgood hnd s hs _⟩, fun hnd s hs => ?_⟩
  · simpa [numSentOk_map_ok] using initial_assert_fails env sendSlot hnd
  obtain ⟨hsplit, hagree⟩ := conserved_reachable hnd hs
  refine ⟨hsplit.disjoint hnd, hsplit.mem_iff, fun hpc => ?_, hgood hnd s hs _,
    (conserved_step hnd ⟨hsplit, hagree⟩).2.stepMoves⟩
  simpa only [PcAgrees, hpc] using hagree

end Run

end LiteRpc.Bench
