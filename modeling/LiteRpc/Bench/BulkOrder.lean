import LiteRpc.Bench.BulkRounds

/-!
# The hash-set orders do not matter when no status stays below `confirmed`

`bulk_round_depends_on_order` shows that the records a round of
`send_and_confirm_bulk_transactions` makes can depend on the order in which
`pending_status_set.iter()` lists the pending signatures: a status below
`confirmed` runs `continue 'pooling_loop` and drops the rest of the round.  This
file shows that it is the only way.  On an endpoint that answers
`get_signature_statuses` signature by signature (`PerSignature`), the way the RPC
method is specified, and never reports a status below `confirmed`, **the result
of the call is the same in every order of the pending set, at every round and in
the timeout loop** (`bulk_result_order_free`).  Only the status queries it
issues, which list the batch in that order, differ.

Two runs in two orders go through different states: a round moves the pending
signatures into the result map one by one, in its own order.  What they agree on
is what each state promises once the round, or the timeout loop, under way has
run to its end: the pending set (`pendingAfter`) and the record of every
signature (`recordAfter`).  Every step inside a round or the loop keeps that
promise (`step_within_round`); the head of a round (`step_round_head`) and its end make the
same promise in both runs; so the two runs stay in step (`Twin.step`), halt
together, and halt with the same records.
-/

namespace LiteRpc.Bench

variable {Sig : Type} [DecidableEq Sig]

/-- `get_signature_statuses` answers signature by signature: the `n`-th call fails
with an error, or gives each signature asked about the status `f` assigns it, in
the order asked. -/
def PerSignature (env : Env Sig) (status : Nat → Except ClientError (Sig → Option TransactionStatus)) :
    Prop :=
  ∀ n batch, env.getSignatureStatuses n batch = (status n).map fun f => batch.map f

/-! ## What a round still promises -/

/-- The status the pairs a round has still to visit give `y`. -/
def statusIn (rest : List (Sig × Option TransactionStatus)) (y : Sig) : Option TransactionStatus :=
  (rest.find? fun p => p.1 = y).bind Prod.snd

/-- The pending set once the round, or the timeout loop, under way has run to its
end. -/
def pendingAfter (s : PollState Sig) : List Sig :=
  match s.pc with
  | .zip rest _ => s.pendingStatusSet.elems.filter fun y => (statusIn rest y).isNone
  | .flush rest _ => s.pendingStatusSet.elems.filter fun y => y ∉ rest
  | _ => s.pendingStatusSet.elems

/-- The record of `y` once the round, or the timeout loop, under way has run to
its end. -/
def recordAfter (sendSlot : Slot) (s : PollState Sig) (y : Sig) :
    Option ConfirmationResponseFromRpc :=
  match s.pc with
  | .zip rest elapsed =>
    ((statusIn rest y).map fun st => .success sendSlot st.slot st.confirmationStatus elapsed).or
      (s.resultStatusMap.get y)
  | .flush rest total => if y ∈ rest then some (.timeout total) else s.resultStatusMap.get y
  | _ => s.resultStatusMap.get y

/-- The next program point of a step inside a round or the timeout loop. -/
def Pc.advance : Pc Sig → Pc Sig
  | .zip (_ :: rest) elapsed => .zip rest elapsed
  | .zip [] _ => .bottom
  | .flush (_ :: rest) total => .flush rest total
  | .flush [] _ => .done
  | pc => pc

/-- The pairs a round has still to visit report no status below `confirmed`. -/
def ZipConfirmed (s : PollState Sig) : Prop :=
  ∀ rest elapsed, s.pc = .zip rest elapsed →
    ∀ p ∈ rest, ∀ st, p.2 = some st → st.satisfiesCommitment .confirmed = true

theorem statusIn_cons (x : Sig) (o : Option TransactionStatus)
    (rest : List (Sig × Option TransactionStatus)) (y : Sig) :
    statusIn ((x, o) :: rest) y = if y = x then o else statusIn rest y := by
  by_cases h : y = x
  · subst h; simp [statusIn]
  · simp [statusIn, List.find?_cons, Ne.symm h, h]

theorem statusIn_eq_none {rest : List (Sig × Option TransactionStatus)} {y : Sig}
    (h : y ∉ rest.map Prod.fst) : statusIn rest y = none := by
  rw [statusIn, List.find?_eq_none.2 fun p hp hpy => h (List.mem_map.2 ⟨p, hp, by simpa using hpy⟩)]
  rfl

/-- A batch answered signature by signature gives each signature of it its status. -/
theorem statusIn_map (xs : List Sig) (f : Sig → Option TransactionStatus) (y : Sig) :
    statusIn (xs.map fun x => (x, f x)) y = if y ∈ xs then f y else none := by
  induction xs with
  | nil => rfl
  | cons x xs ih =>
    rw [List.map_cons, statusIn_cons, ih]
    by_cases h : y = x <;> simp [h]

omit [DecidableEq Sig] in
theorem zip_map_self (xs : List Sig) (f : Sig → Option TransactionStatus) :
    xs.zip (xs.map f) = xs.map fun x => (x, f x) := by
  induction xs with
  | nil => rfl
  | cons x xs ih => simp [ih]

/-! ## One step -/

section Step

variable (env : Env Sig) (sendSlot : Slot) {sigs : List Sig} (hnd : sigs.Nodup)
include hnd

/-- **A step inside a round or the timeout loop**, or after the end of the run,
moves on to the next pair or signature and keeps what the round, or the loop,
promises. -/
theorem step_within_round {s : PollState Sig} (hs : Conserved sigs s) (hc : ZipConfirmed s)
    (htop : s.pc ≠ .top) (hbot : s.pc ≠ .bottom) :
    (step env sendSlot sigs.length s).pc = Pc.advance s.pc ∧
      (step env sendSlot sigs.length s).iteration = s.iteration ∧
      (step env sendSlot sigs.length s).queries = s.queries ∧
      pendingAfter (step env sendSlot sigs.length s) = pendingAfter s ∧
      recordAfter sendSlot (step env sendSlot sigs.length s) = recordAfter sendSlot s := by
  rcases s with ⟨pc, pending, results, iteration, queries⟩
  obtain ⟨hsplit, hagree⟩ := hs
  cases pc with
  | top => exact absurd rfl htop
  | bottom => exact absurd rfl hbot
  | done => exact ⟨rfl, rfl, rfl, rfl, rfl⟩
  | failed f => exact ⟨rfl, rfl, rfl, rfl, rfl⟩
  | zip rest elapsed =>
    rcases rest with _ | ⟨⟨x, o⟩, rest⟩
    · refine ⟨rfl, rfl, rfl, ?_, ?_⟩
      · simp [step, pendingAfter, statusIn]
      · funext y
        simp [step, recordAfter, statusIn]
    obtain ⟨hnd', hmem⟩ := hagree
    have hx : x ∈ pending.elems := hmem x (List.mem_cons_self _ _)
    have hxrest : statusIn rest x = none := statusIn_eq_none (List.nodup_cons.1 hnd').1
    cases o with
    | none =>
      refine ⟨rfl, rfl, rfl, ?_, ?_⟩
      · simp only [step, pendingAfter]
        refine List.filter_congr fun y _ => ?_
        by_cases hy : y = x <;> simp [hy, statusIn_cons, hxrest]
      · funext y
        simp only [step, recordAfter]
        by_cases hy : y = x <;> simp [hy, statusIn_cons, hxrest]
    | some st =>
      have hst := hc _ _ rfl (x, some st) (List.mem_cons_self _ _) st rfl
      have hfresh := (hsplit.insert_fresh hnd hx
        (.success sendSlot st.slot st.confirmationStatus elapsed)).1
      have hstep : step env sendSlot sigs.length ⟨.zip ((x, some st) :: rest) elapsed, pending,
          results, iteration, queries⟩ = ⟨.zip rest elapsed, pending.remove x,
            (results.insert x (.success sendSlot st.slot st.confirmationStatus elapsed)).2,
            iteration, queries⟩ := by
        simp only [step, hst, Bool.not_true, Bool.false_eq_true, if_false, hfresh,
          Option.isNone_none, if_true]
      rw [hstep]
      refine ⟨rfl, rfl, rfl, ?_, ?_⟩
      · simp only [pendingAfter, HashSet.elems_remove, pending.nodup.erase_eq_filter, List.filter_filter]
        refine List.filter_congr fun y _ => ?_
        by_cases hy : y = x <;> simp [hy, statusIn_cons]
      · funext y
        simp only [recordAfter, HashMap.get_insert]
        by_cases hy : y = x <;> simp [hy, statusIn_cons, hxrest]
  | flush rest total =>
    rcases rest with _ | ⟨x, rest⟩
    · refine ⟨rfl, rfl, rfl, ?_, ?_⟩
      · simp [step, pendingAfter]
      · funext y
        simp [step, recordAfter]
    refine ⟨rfl, rfl, rfl, ?_, ?_⟩
    · simp only [step, pendingAfter, HashSet.elems_remove, pending.nodup.erase_eq_filter,
        List.filter_filter]
      refine List.filter_congr fun y _ => ?_
      by_cases hy : y = x <;> simp [hy]
    · funext y
      simp only [step, recordAfter, HashMap.get_insert]
      by_cases hy : y = x <;> simp [hy]

omit hnd in
/-- **The head of a round.**  The consistency assertion passes, and the status
query either fails, failing the run, or lists the pending set in the order of
this round with each signature's status. -/
theorem step_round_head {status : Nat → Except ClientError (Sig → Option TransactionStatus)}
    (hper : PerSignature env status) {s : PollState Sig} (hs : Conserved sigs s)
    (htop : s.pc = .top) :
    (step env sendSlot sigs.length s).iteration = s.iteration ∧
      (step env sendSlot sigs.length s).queries.length = s.queries.length + 1 ∧
      (step env sendSlot sigs.length s).pendingStatusSet = s.pendingStatusSet ∧
      (step env sendSlot sigs.length s).resultStatusMap = s.resultStatusMap ∧
      ((∃ e, status s.queries.length = .error e ∧
          (step env sendSlot sigs.length s).pc = .failed (.err (.client e))) ∨
        ∃ f, status s.queries.length = .ok f ∧ (step env sendSlot sigs.length s).pc =
          .zip (((env.statusOrder s.queries.length).arrange s.pendingStatusSet.elems).map
            fun x => (x, f x)) (env.elapsed s.queries.length)) := by
  rcases s with ⟨pc, pending, results, iteration, queries⟩
  cases htop
  simp only [step, if_neg (not_not.2 hs.splits.len),
    hper queries.length ((env.statusOrder queries.length).arrange pending.elems)]
  cases status queries.length with
  | error e => exact ⟨rfl, by simp [Except.map], rfl, rfl, .inl ⟨e, rfl, rfl⟩⟩
  | ok f => exact ⟨rfl, by simp [Except.map], rfl, rfl, .inr ⟨f, rfl, by simp [Except.map, zip_map_self]⟩⟩

omit hnd in
/-- The end of a round: the timeout loop over the pending set in the order of
`flushOrder`, or the next round. -/
theorem step_bottom_eq {s : PollState Sig} (hbot : s.pc = .bottom) :
    step env sendSlot sigs.length s =
      if s.pendingStatusSet.isEmpty || s.iteration == 100 then
        { s with pc := .flush (env.flushOrder.arrange s.pendingStatusSet.elems) env.totalElapsed }
      else { s with iteration := s.iteration + 1, pc := .top } := by
  rcases s with ⟨pc, pending, results, iteration, queries⟩
  cases hbot
  rfl

end Step

/-- What a round promises at its start: the signatures of the batch whose status
came back leave the pending set, each with its `Success` record. -/
theorem after_round_start (sendSlot : Slot) {t : PollState Sig} {xs : List Sig}
    {f : Sig → Option TransactionStatus} {elapsed : Duration}
    (hpc : t.pc = .zip (xs.map fun x => (x, f x)) elapsed) (hxs : xs.Perm t.pendingStatusSet.elems) :
    pendingAfter t = t.pendingStatusSet.elems.filter (fun y => (f y).isNone) ∧
      ∀ y, recordAfter sendSlot t y =
        ((if y ∈ t.pendingStatusSet.elems then f y else none).map
          fun st => .success sendSlot st.slot st.confirmationStatus elapsed).or
          (t.resultStatusMap.get y) := by
  simp only [pendingAfter, recordAfter, hpc, statusIn_map, hxs.mem_iff, implies_true, and_true]
  exact List.filter_congr fun y hy => by simp [hy]

/-- What the timeout loop promises at its start: nothing stays pending, and every
pending signature gets its `Timeout`. -/
theorem after_flush_start (sendSlot : Slot) {t : PollState Sig} {xs : List Sig} {total : Duration}
    (hpc : t.pc = .flush xs total) (hxs : xs.Perm t.pendingStatusSet.elems) :
    pendingAfter t = [] ∧ ∀ y, recordAfter sendSlot t y =
      if y ∈ t.pendingStatusSet.elems then some (.timeout total) else t.resultStatusMap.get y := by
  simp only [pendingAfter, recordAfter, hpc, hxs.mem_iff, implies_true, and_true]
  exact List.filter_eq_nil_iff.2 fun y hy => by simpa using hy

omit [DecidableEq Sig] in
/-- A round started on an answer that reports no status below `confirmed` has
none to visit. -/
theorem zipConfirmed_of_round_start {status : Nat → Except ClientError (Sig → Option TransactionStatus)}
    (hconf : ∀ n f x st, status n = .ok f → f x = some st → st.satisfiesCommitment .confirmed = true)
    {n : Nat} {f : Sig → Option TransactionStatus} (hf : status n = .ok f) {t : PollState Sig}
    {xs : List Sig} {elapsed : Duration} (hpc : t.pc = .zip (xs.map fun x => (x, f x)) elapsed) :
    ZipConfirmed t := by
  intro rest elapsed' hz p hp st hst
  rw [hpc] at hz
  cases hz
  obtain ⟨x, -, rfl⟩ := List.mem_map.1 hp
  exact hconf n f x st hf hst

/-! ## Two runs in step -/

/-- Two program points at the same step of the loop: of the same kind, with as
many pairs or signatures still to visit, the same clock reading, and the same
failure. -/
def PcTwin : Pc Sig → Pc Sig → Prop
  | .top, .top | .bottom, .bottom | .done, .done => True
  | .zip ra ea, .zip rb eb => ra.length = rb.length ∧ ea = eb
  | .flush ra ta, .flush rb tb => ra.length = rb.length ∧ ta = tb
  | .failed fa, .failed fb => fa = fb
  | _, _ => False

omit [DecidableEq Sig] in
theorem PcTwin.top_iff {pa pb : Pc Sig} (h : PcTwin pa pb) : pa = .top ↔ pb = .top := by
  cases pa <;> cases pb <;> simp_all [PcTwin]

omit [DecidableEq Sig] in
theorem PcTwin.bottom_iff {pa pb : Pc Sig} (h : PcTwin pa pb) : pa = .bottom ↔ pb = .bottom := by
  cases pa <;> cases pb <;> simp_all [PcTwin]

omit [DecidableEq Sig] in
theorem PcTwin.advance {pa pb : Pc Sig} (h : PcTwin pa pb) : PcTwin (Pc.advance pa) (Pc.advance pb) := by
  cases pa <;> cases pb <;> simp only [PcTwin] at h
  case zip.zip ra ea rb eb =>
    rcases ra with _ | ⟨_, ra⟩ <;> rcases rb with _ | ⟨_, rb⟩ <;> simp_all [PcTwin, Pc.advance]
  case flush.flush ra ta rb tb =>
    rcases ra with _ | ⟨_, ra⟩ <;> rcases rb with _ | ⟨_, rb⟩ <;> simp_all [PcTwin, Pc.advance]
  all_goals simp_all [PcTwin, Pc.advance]

omit [DecidableEq Sig] in
theorem PcTwin.halted_eq {a b : PollState Sig} (h : PcTwin a.pc b.pc) : a.halted = b.halted := by
  unfold PollState.halted
  revert h
  cases a.pc <;> cases b.pc <;> simp [PcTwin]

omit [DecidableEq Sig] in
theorem ZipConfirmed.advance {s t : PollState Sig} (hc : ZipConfirmed s) (ht : t.pc = Pc.advance s.pc) :
    ZipConfirmed t := by
  intro rest elapsed h p hp st hst
  rw [ht] at h
  rcases s with ⟨pc, _, _, _, _⟩
  cases pc with
  | zip r e =>
    rcases r with _ | ⟨q, r⟩
    · cases h
    · cases h
      exact hc _ _ rfl p (.tail _ hp) st hst
  | flush r t => rcases r with _ | ⟨q, r⟩ <;> cases h
  | top | bottom | done | failed => cases h

omit [DecidableEq Sig] in
theorem zipConfirmed_of_ne {s : PollState Sig} (h : ∀ rest elapsed, s.pc ≠ .zip rest elapsed) :
    ZipConfirmed s :=
  fun rest elapsed hpc => absurd hpc (h rest elapsed)

/-- Two states of two runs at the same step, that promise the same pending set and
the same records. -/
structure Twin (sigs : List Sig) (sendSlot : Slot) (a b : PollState Sig) : Prop where
  conservedA : Conserved sigs a
  conservedB : Conserved sigs b
  confirmedA : ZipConfirmed a
  confirmedB : ZipConfirmed b
  pc : PcTwin a.pc b.pc
  iteration : a.iteration = b.iteration
  queries : a.queries.length = b.queries.length
  pending : (pendingAfter a).Perm (pendingAfter b)
  record : recordAfter sendSlot a = recordAfter sendSlot b

omit [DecidableEq Sig] in
theorem isEmpty_eq_of_perm {l l' : List Sig} (h : l.Perm l') : l.isEmpty = l'.isEmpty := by
  rw [Bool.eq_iff_iff, List.isEmpty_iff, List.isEmpty_iff]
  exact ⟨fun hl => (hl ▸ h).nil_eq.symm, fun hl' => (hl' ▸ h).eq_nil⟩

/-- At the head or the end of a round nothing is under way: two runs in step have
the same pending set, up to order, and the same records. -/
theorem Twin.settled {sigs : List Sig} {sendSlot : Slot} {a b : PollState Sig} {p : Pc Sig}
    (h : Twin sigs sendSlot a b) (hp : p = .top ∨ p = .bottom) (ha : a.pc = p) (hb : b.pc = p) :
    a.pendingStatusSet.elems.Perm b.pendingStatusSet.elems ∧
      ∀ y, a.resultStatusMap.get y = b.resultStatusMap.get y := by
  rcases hp with rfl | rfl <;>
    exact ⟨by simpa only [pendingAfter, ha, hb] using h.pending,
      fun y => by simpa only [recordAfter, ha, hb] using congrFun h.record y⟩

section Twins

variable {envA envB : Env Sig} {sendSlot : Slot} {sigs : List Sig} (hnd : sigs.Nodup)
  {a b : PollState Sig}
include hnd

/-- Inside a round or the timeout loop both runs move on and keep their promise. -/
theorem Twin.step_inner (h : Twin sigs sendSlot a b) (htA : a.pc ≠ .top) (hbA : a.pc ≠ .bottom) :
    Twin sigs sendSlot (step envA sendSlot sigs.length a) (step envB sendSlot sigs.length b) := by
  obtain ⟨pcA, itA, qA, pendA, recA⟩ := step_within_round envA sendSlot hnd h.conservedA h.confirmedA htA hbA
  obtain ⟨pcB, itB, qB, pendB, recB⟩ := step_within_round envB sendSlot hnd h.conservedB h.confirmedB
    (mt h.pc.top_iff.2 htA) (mt h.pc.bottom_iff.2 hbA)
  exact ⟨(conserved_step hnd h.conservedA).1, (conserved_step hnd h.conservedB).1,
    h.confirmedA.advance pcA, h.confirmedB.advance pcB, pcA ▸ pcB ▸ h.pc.advance,
    by rw [itA, itB, h.iteration], by rw [qA, qB, h.queries], pendA ▸ pendB ▸ h.pending,
    by rw [recA, recB, h.record]⟩

/-- At the end of a round both runs take the same branch: the timeout loop over
the same pending set, each in its own order, or the next round. -/
theorem Twin.step_bottom (htotal : envA.totalElapsed = envB.totalElapsed)
    (h : Twin sigs sendSlot a b) (hbA : a.pc = .bottom) :
    Twin sigs sendSlot (step envA sendSlot sigs.length a) (step envB sendSlot sigs.length b) := by
  have hbB := h.pc.bottom_iff.1 hbA
  obtain ⟨hP, hR⟩ := h.settled (.inr rfl) hbA hbB
  have hcond : (a.pendingStatusSet.isEmpty || a.iteration == 100) =
      (b.pendingStatusSet.isEmpty || b.iteration == 100) := by
    simp only [HashSet.isEmpty, isEmpty_eq_of_perm hP, h.iteration]
  have hsA : Conserved sigs (step envA sendSlot sigs.length a) := (conserved_step hnd h.conservedA).1
  have hsB : Conserved sigs (step envB sendSlot sigs.length b) := (conserved_step hnd h.conservedB).1
  rw [step_bottom_eq envA sendSlot hbA, hcond] at hsA ⊢
  rw [step_bottom_eq envB sendSlot hbB] at hsB ⊢
  by_cases hc : (b.pendingStatusSet.isEmpty || b.iteration == 100) = true
  · simp only [hc, ↓reduceIte] at hsA hsB ⊢
    have hxA := envA.flushOrder.perm a.pendingStatusSet.elems
    have hxB := envB.flushOrder.perm b.pendingStatusSet.elems
    obtain ⟨pendA, recA⟩ := after_flush_start sendSlot
      (t := { a with pc := .flush (envA.flushOrder.arrange a.pendingStatusSet.elems) envA.totalElapsed })
      rfl hxA
    obtain ⟨pendB, recB⟩ := after_flush_start sendSlot
      (t := { b with pc := .flush (envB.flushOrder.arrange b.pendingStatusSet.elems) envB.totalElapsed })
      rfl hxB
    refine ⟨hsA, hsB, (fun _ _ h => nomatch h), (fun _ _ h => nomatch h),
      ⟨by rw [hxA.length_eq, hxB.length_eq, hP.length_eq], htotal⟩, h.iteration, h.queries,
      by rw [pendA, pendB], funext fun y => ?_⟩
    rw [recA, recB]
    simp only [hP.mem_iff, hR, htotal]
  · simp only [hc, Bool.false_eq_true, ↓reduceIte] at hsA hsB ⊢
    refine ⟨hsA, hsB, (fun _ _ h => nomatch h), (fun _ _ h => nomatch h), trivial,
      by simp only [h.iteration], h.queries, by simpa only [pendingAfter] using hP,
      funext fun y => by simpa only [recordAfter] using hR y⟩

variable {status : Nat → Except ClientError (Sig → Option TransactionStatus)}
  (hperA : PerSignature envA status) (hperB : PerSignature envB status)
  (hconf : ∀ n f x st, status n = .ok f → f x = some st → st.satisfiesCommitment .confirmed = true)
  (helapsed : envA.elapsed = envB.elapsed)
include hperA hperB hconf helapsed

/-- At the head of a round both runs get the same answer, each for the pending set
in its own order: both fail with the same error, or both start a round that
promises the same. -/
theorem Twin.step_top (h : Twin sigs sendSlot a b) (htA : a.pc = .top) :
    Twin sigs sendSlot (step envA sendSlot sigs.length a) (step envB sendSlot sigs.length b) := by
  have htB := h.pc.top_iff.1 htA
  obtain ⟨hP, hR⟩ := h.settled (.inl rfl) htA htB
  have hsA : Conserved sigs (step envA sendSlot sigs.length a) := (conserved_step hnd h.conservedA).1
  have hsB : Conserved sigs (step envB sendSlot sigs.length b) := (conserved_step hnd h.conservedB).1
  obtain ⟨itA, qA, pA, rA, hA⟩ := step_round_head envA sendSlot hperA h.conservedA htA
  obtain ⟨itB, qB, pB, rB, hB⟩ := step_round_head envB sendSlot hperB h.conservedB htB
  have hit : (step envA sendSlot sigs.length a).iteration = (step envB sendSlot sigs.length b).iteration := by
    rw [itA, itB, h.iteration]
  have hq : (step envA sendSlot sigs.length a).queries.length =
      (step envB sendSlot sigs.length b).queries.length := by
    rw [qA, qB, h.queries]
  rw [← h.queries] at hB
  rcases hA with ⟨e, he, hpcA⟩ | ⟨f, hf, hpcA⟩ <;> rcases hB with ⟨e', he', hpcB⟩ | ⟨f', hf', hpcB⟩
  · obtain rfl : e = e' := Except.error.inj (he.symm.trans he')
    refine ⟨hsA, hsB, zipConfirmed_of_ne fun _ _ => by rw [hpcA]; exact Pc.noConfusion,
      zipConfirmed_of_ne fun _ _ => by rw [hpcB]; exact Pc.noConfusion, by rw [hpcA, hpcB]; rfl,
      hit, hq, ?_, funext fun y => ?_⟩
    · simpa only [pendingAfter, hpcA, hpcB, pA, pB] using hP
    · simpa only [recordAfter, hpcA, hpcB, rA, rB] using hR y
  · cases he.symm.trans hf'
  · cases hf.symm.trans he'
  · obtain rfl : f = f' := Except.ok.inj (hf.symm.trans hf')
    have hxA := (envA.statusOrder a.queries.length).perm a.pendingStatusSet.elems
    have hxB := (envB.statusOrder a.queries.length).perm b.pendingStatusSet.elems
    obtain ⟨pendA, recA⟩ := after_round_start sendSlot hpcA (pA ▸ hxA)
    obtain ⟨pendB, recB⟩ := after_round_start sendSlot hpcB (pB ▸ hxB)
    refine ⟨hsA, hsB, zipConfirmed_of_round_start hconf hf hpcA,
      zipConfirmed_of_round_start hconf hf hpcB, ?_, hit, hq, ?_, funext fun y => ?_⟩
    · rw [hpcA, hpcB]
      exact ⟨by simp only [List.length_map, hxA.length_eq, hxB.length_eq, hP.length_eq],
        by rw [helapsed]⟩
    · rw [pendA, pendB, pA, pB]
      exact hP.filter _
    · rw [recA, recB, pA, pB, rA, rB, hR y, helapsed]
      simp only [hP.mem_iff]

/-- **The two runs stay in step.** -/
theorem Twin.step (htotal : envA.totalElapsed = envB.totalElapsed) (h : Twin sigs sendSlot a b) :
    Twin sigs sendSlot (step envA sendSlot sigs.length a) (step envB sendSlot sigs.length b) := by
  by_cases htA : a.pc = .top
  · exact h.step_top hnd hperA hperB hconf helapsed htA
  by_cases hbA : a.pc = .bottom
  · exact h.step_bottom hnd htotal hbA
  exact h.step_inner hnd htA hbA

omit hnd hperA hperB hconf helapsed in
/-- `result_as_vec` reads the result map only through lookups. -/
theorem resultAsVec_congr (txs : List (Transaction Sig)) (batch : List (Except ErrorKind Sig))
    {m m' : HashMap Sig ConfirmationResponseFromRpc} (h : m.get = m'.get) :
    resultAsVec txs batch m = resultAsVec txs batch m' := by
  unfold resultAsVec
  rw [h]

omit hnd hperA hperB hconf helapsed in
theorem Twin.result_eq (h : Twin sigs sendSlot a b) (hh : a.halted = true)
    (txs : List (Transaction Sig)) (batch : List (Except ErrorKind Sig)) :
    (finishRun txs batch a).result = (finishRun txs batch b).result := by
  have hrec := h.record
  have hpc := h.pc
  rcases a with ⟨pca, pa, ra, ia, qa⟩
  rcases b with ⟨pcb, pb, rb, ib, qb⟩
  cases pca <;> cases pcb <;> simp only [PcTwin, PollState.halted, Bool.false_eq_true] at hpc hh
  · exact resultAsVec_congr txs batch (funext fun y => congrFun hrec y)
  · subst hpc
    rfl

/-- **Two runs in step end together, with the same result.** -/
theorem Twin.runPolling_result (htotal : envA.totalElapsed = envB.totalElapsed)
    (txs : List (Transaction Sig)) (batch : List (Except ErrorKind Sig)) (fuel : Nat)
    (h : Twin sigs sendSlot a b) :
    (runPolling envA sendSlot sigs.length fuel a).map (fun s => (finishRun txs batch s).result) =
      (runPolling envB sendSlot sigs.length fuel b).map (fun s => (finishRun txs batch s).result) := by
  induction fuel generalizing a b with
  | zero =>
    unfold runPolling
    by_cases hh : b.halted = true
    · rw [if_pos (h.pc.halted_eq.trans hh), if_pos hh]
      exact congrArg some (h.result_eq (h.pc.halted_eq.trans hh) txs batch)
    · rw [if_neg (h.pc.halted_eq ▸ hh), if_neg hh]
  | succ fuel ih =>
    unfold runPolling
    by_cases hh : b.halted = true
    · rw [if_pos (h.pc.halted_eq.trans hh), if_pos hh]
      exact congrArg some (h.result_eq (h.pc.halted_eq.trans hh) txs batch)
    · rw [if_neg (h.pc.halted_eq ▸ hh), if_neg hh]
      exact ih (h.step hnd hperA hperB hconf helapsed htotal)

end Twins

/-! ## The whole call -/

/-- A run whose first consistency check fails stops there, whatever the endpoint. -/
theorem runPolling_of_assert_fails {env : Env Sig} {sendSlot : Slot} {n : Nat} {s : PollState Sig}
    (htop : s.pc = .top) (hlen : s.pendingStatusSet.len + s.resultStatusMap.len ≠ n) :
    ∀ fuel, runPolling env sendSlot n fuel s =
      if fuel = 0 then none else some { s with pc := .failed (.panic itemsMustMove) }
  | 0 => by simp [runPolling, PollState.halted, htop]
  | fuel + 1 => by
    have hstep : step env sendSlot n s = { s with pc := .failed (.panic itemsMustMove) } := by
      rcases s with ⟨pc, pending, results, iteration, queries⟩
      cases htop
      exact if_pos hlen
    cases fuel <;> simp [runPolling, PollState.halted, htop, hstep]

/-- The call reads the endpoint's slots and sends itself, and its statuses only
through the polling loop: two endpoints that agree on the former, and whose
loops give the same result on every accepted batch, give the same result. -/
theorem sendAndConfirmBulkTransactions_result_congr {fuel : Nat} {envA envB : Env Sig}
    {txs : List (Transaction Sig)} (hslot : envA.getSlot = envB.getSlot)
    (hsend : envA.sendTransaction = envB.sendTransaction)
    (hrun : ∀ sendSlot (sigs : List Sig),
      (runPolling envA sendSlot sigs.length fuel (initialPollState (sigs.map Except.ok))).map
          (fun s => (finishRun txs (sigs.map Except.ok) s).result) =
        (runPolling envB sendSlot sigs.length fuel (initialPollState (sigs.map Except.ok))).map
          (fun s => (finishRun txs (sigs.map Except.ok) s).result)) :
    (sendAndConfirmBulkTransactions fuel envA txs).map BulkRun.result =
      (sendAndConfirmBulkTransactions fuel envB txs).map BulkRun.result := by
  have hall : sendAll envB txs = sendAll envA txs := by rw [sendAll, sendAll, hsend]
  unfold sendAndConfirmBulkTransactions
  rw [hslot, hall]
  rcases pollNextSlotStart envB.getSlot with ⟨_ | sendSlot, k⟩
  · rfl
  dsimp only
  cases envB.getSlot k
  · rfl
  dsimp only
  split
  · rfl
  next hfail =>
  have hbatch := eq_map_ok_of_isOk (isOk_of_numSentFailed_eq_zero (Nat.eq_zero_of_not_pos hfail))
  rw [hbatch, numSentOk_map_ok, Option.map_map, Option.map_map]
  exact hrun sendSlot _

/-- **The result does not depend on the hash-set orders when no status stays
below `confirmed`.**  For every endpoint that answers `get_signature_statuses`
signature by signature and never reports a status below `confirmed`, every batch
and every number of steps: running `send_and_confirm_bulk_transactions` with the
pending set listed in any other orders, at every round and in the timeout loop,
gives the same result, or runs out of steps just the same. -/
theorem bulk_result_order_free (fuel : Nat) (env : Env Sig) (txs : List (Transaction Sig))
    (status : Nat → Except ClientError (Sig → Option TransactionStatus))
    (hper : PerSignature env status)
    (hconf : ∀ n f x st, status n = .ok f → f x = some st → st.satisfiesCommitment .confirmed = true)
    (statusOrder : Nat → IterOrder Sig) (flushOrder : IterOrder Sig) :
    (sendAndConfirmBulkTransactions fuel env txs).map BulkRun.result =
      (sendAndConfirmBulkTransactions fuel
        { env with statusOrder := statusOrder, flushOrder := flushOrder } txs).map BulkRun.result := by
  refine sendAndConfirmBulkTransactions_result_congr rfl rfl fun sendSlot sigs => ?_
  by_cases hnd : sigs.Nodup
  · have hc := conserved_initial hnd
    have hper' : PerSignature { env with statusOrder := statusOrder, flushOrder := flushOrder } status :=
      hper
    exact Twin.runPolling_result hnd hper hper' hconf rfl rfl txs _ fuel
      ⟨hc, hc, zipConfirmed_of_ne (fun _ _ h => nomatch h), zipConfirmed_of_ne (fun _ _ h => nomatch h),
        trivial, rfl, rfl, List.Perm.refl _, rfl⟩
  · have hlen : (initialPollState (sigs.map Except.ok)).pendingStatusSet.len +
        (initialPollState (sigs.map Except.ok)).resultStatusMap.len ≠ sigs.length := by
      simpa [initialPollState, HashMap.keys] using
        fun heq => hnd (HashSet.nodup_of_len_foldl_insert heq)
    simp only [runPolling_of_assert_fails (rfl : (initialPollState (sigs.map Except.ok)).pc = .top) hlen]

/-- An endpoint's answer that confirms signature `1` and does not know any other. -/
def confirmsOne (sig : Nat) : Option TransactionStatus :=
  if sig = 1 then some confirmedStatus else none

/-- An endpoint whose slot advances by one per query, that accepts every
transaction, and that answers every status query with `confirmsOne`. -/
def confirmsOneEnv : Env Nat where
  getSlot n := .ok n.toUInt64
  sendTransaction _ tx _ := .ok tx.signature
  getSignatureStatuses _ batch := .ok (batch.map confirmsOne)
  statusOrder _ := IterOrder.stored Nat
  flushOrder := IterOrder.stored Nat
  elapsed _ := 0
  totalElapsed := 0

theorem confirmsOne_confirmed (f : Nat → Option TransactionStatus) (x : Nat)
    (st : TransactionStatus) (hf : (Except.ok confirmsOne : Except ClientError _) = .ok f)
    (hx : f x = some st) : st.satisfiesCommitment .confirmed = true := by
  cases hf
  unfold confirmsOne at hx
  split at hx
  · cases hx
    rfl
  · cases hx

/-- The order law at an endpoint that confirms one of two signatures: the run
with both hash-set orders reversed has the same result. -/
theorem bulk_result_order_free_reversed :
    PerSignature confirmsOneEnv (fun _ => .ok confirmsOne) ∧
    (∀ (_ : Nat) f x st, (Except.ok confirmsOne : Except ClientError _) = .ok f → f x = some st →
      st.satisfiesCommitment .confirmed = true) ∧
    (sendAndConfirmBulkTransactions 500 confirmsOneEnv [⟨1⟩, ⟨2⟩]).map BulkRun.result =
      (sendAndConfirmBulkTransactions 500
        { confirmsOneEnv with statusOrder := fun _ => IterOrder.reversed Nat,
                              flushOrder := IterOrder.reversed Nat } [⟨1⟩, ⟨2⟩]).map BulkRun.result :=
  ⟨fun _ _ => rfl, fun _ => confirmsOne_confirmed,
    bulk_result_order_free 500 confirmsOneEnv [⟨1⟩, ⟨2⟩] (fun _ => .ok confirmsOne) (fun _ _ => rfl)
      (fun _ => confirmsOne_confirmed) (fun _ => IterOrder.reversed Nat) (IterOrder.reversed Nat)⟩

end LiteRpc.Bench
