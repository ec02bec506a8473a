import Mathlib.Data.List.Sort
import LiteRpc.PrioFees.ByIndex

/-!
# The statistics by compute unit

The loop of `calculate_supp_stats` adds up compute units over the fee-sorted
list, and for each threshold `t` it keeps the fee of the first entry at which the
running sum, wrapping as `agg` does, exceeds `t` (`firstFeeAbove`).

* **Whatever the sums.**  A larger threshold is passed no earlier, and a threshold
  below the final sum `cu_sum` is passed; the threshold of `0.95` is below a
  positive `cu_sum`, and all thresholds grow with `p`.  This is what the monotone
  laws of `Laws` rest on, for every block.
* **Below `2 ^ 64` compute units** no sum wraps, and over a list sorted by fee the
  first fee past `t` is the **least fee `v` of the block whose entries with a fee
  at most `v` carry more than `t` compute units** (`IsLeastFeeAbove`), whatever
  the ties and the zero-cu entries; it exists exactly when `t` is below the total.
* **Below `2 ^ 46` compute units** every threshold of the loop is also exactly
  `cu_sum * p / 100` (`cuThreshold_exact`, `literalThreshold_exact`).  Then
  `dist_fee_by_cu` holds, in increasing `p`, the labels whose threshold is below
  `cu_sum`, each with its least fee, and `p_median_cu` to `p_95_cu` are those fees
  for `50, 75, 90, 95` (`calculateSuppStats_by_cu`).  The threshold of `p100` is
  `cu_sum` itself, which the running sum never exceeds, so `dist_fee_by_cu` has
  the 20 labels `p0` to `p95` and no `p100` (`labels_distFeeByCu_of_lt`).

Past these bounds the code parts from the exact reading: the rounding of `f64`
can put the threshold of `p100` at `cu_sum - 1`, and wrapped sums move the fees
(`calculateSuppStats_pMedianCu_wraps`).
-/

namespace LiteRpc.PrioFees

/-! ## The thresholds -/

theorem literalThreshold_zero (p : Nat) : literalThreshold 0 p = 0 := by
  simp [literalThreshold, roundF64_zero, f64AsU64]

theorem cuThreshold_mono (c : Nat) {p q : Nat} (hpq : p ≤ q) : cuThreshold c p ≤ cuThreshold c q :=
  f64AsU64_mono (divF64_mono (by decide) (by decide) (roundF64_mono (Nat.mul_le_mul_left _ hpq) _)) _

theorem literalThreshold_mono (c : Nat) {p q : Nat} (hpq : p ≤ q) :
    literalThreshold c p ≤ literalThreshold c q :=
  f64AsU64_mono (roundF64_mono (Nat.mul_le_mul_left _ (divF64_mono (by decide) (by decide) hpq)) _) _

/-- The threshold of `0.95` is below a positive `cu_sum`: two roundings, each by at
most `2 ^ -53` of the value, cannot close a gap of `0.05 * cu_sum`. -/
theorem literalThreshold_95_lt {c : Nat} (hc : 0 < c) : literalThreshold c 95 < c := by
  have hlit : divF64 95 100 = 1095275429376504576 := by decide
  have hx := roundF64_near c false
  have hr := roundF64_near (roundF64 c false * 1095275429376504576) false
  have := f64AsU64_le_div (roundF64 (roundF64 c false * 1095275429376504576) false) 60
  rw [literalThreshold, hlit]
  omega

/-- **Below `2 ^ 46`, `(cu_sum as f64 * p as f64 / 100.0) as u64` is exact**: both
roundings stay within a bit of `cu_sum * p / 100`, far from the next integer. -/
theorem cuThreshold_exact {c p : Nat} (hc : c < 2 ^ 46) (hp : p ≤ 100) :
    cuThreshold c p = c * p / 100 := by
  have hcp : c * p ≤ c * 100 := Nat.mul_le_mul_left c hp
  rw [cuThreshold, roundF64_of_lt (n := c) (by omega), roundF64_of_lt (n := c * p) (by omega), divF64]
  generalize c * p = y at hcp ⊢
  have hlo : y / 100 * 2 ^ 60 ≤ y * 2 ^ 60 / 100 := (Nat.le_div_iff_mul_le (by decide)).2 (by
    rw [Nat.mul_right_comm]
    exact Nat.mul_le_mul_right _ (Nat.div_mul_le_self y 100))
  rw [f64AsU64, roundF64_div_two_pow (m := y / 100) 60 (by omega) (by omega) (by omega)]
  omega

/-- **Below `2 ^ 46`, `(cu_sum as f64 * 0.5) as u64` and its siblings are exact.** -/
theorem literalThreshold_exact {c p : Nat} (hc : c < 2 ^ 46) (hp : p ∈ [50, 75, 90, 95]) :
    literalThreshold c p = c * p / 100 := by
  simp only [List.mem_cons, List.mem_singleton, List.not_mem_nil, or_false] at hp
  have hcp : c * p ≤ c * 100 := Nat.mul_le_mul_left c (by omega)
  have key : ∀ L, divF64 p 100 = L → c * L < 2 ^ (60 + 53) →
      c * p / 100 * 2 ^ 60 * 2 ^ 54 ≤ c * L * (2 ^ 54 + 1) →
      c * L * (2 ^ 53 + 1) < (c * p / 100 + 1) * 2 ^ 60 * 2 ^ 53 →
      literalThreshold c p = c * p / 100 := by
    intro L hL hv hlo hhi
    rw [literalThreshold, roundF64_of_lt (n := c) (by omega), hL, f64AsU64,
      roundF64_div_two_pow 60 hv hlo hhi]
    omega
  rcases hp with rfl | rfl | rfl | rfl
  · exact key 576460752303423488 (by decide) (by omega) (by omega) (by omega)
  · exact key 864691128455135232 (by decide) (by omega) (by omega) (by omega)
  · exact key 1037629354146162304 (by decide) (by omega) (by omega) (by omega)
  · exact key 1095275429376504576 (by decide) (by omega) (by omega) (by omega)

/-! ## The first fee past a threshold -/

/-- The compute units of the entries of `L` whose fee is at most `v`. -/
def cuUpTo (L : List (Nat × Nat)) (v : Nat) : Nat := cuTotal (L.filter fun x => x.1 ≤ v)

/-- `v` is the least fee of `L` such that the entries with a fee at most `v` carry
more than `t` compute units. -/
def IsLeastFeeAbove (L : List (Nat × Nat)) (t v : Nat) : Prop :=
  v ∈ L.map Prod.fst ∧ t < cuUpTo L v ∧ ∀ w ∈ L.map Prod.fst, t < cuUpTo L w → v ≤ w

instance (L : List (Nat × Nat)) (t v : Nat) : Decidable (IsLeastFeeAbove L t v) :=
  inferInstanceAs (Decidable (_ ∧ _ ∧ _))

/-- The fee of the first entry at which the running sum of compute units, started
at `acc` and wrapping as `agg` does, exceeds `t`. -/
def firstFeeAbove (t : Nat) : Nat → List (Nat × Nat) → Option Nat
  | _, [] => none
  | acc, e :: rest => if t < addU64 acc e.2 then some e.1 else firstFeeAbove t (addU64 acc e.2) rest

section Wrapping

variable {t : Nat}

theorem firstFeeAbove_mem : ∀ {acc : Nat} {S : List (Nat × Nat)} {v : Nat},
    firstFeeAbove t acc S = some v → v ∈ S.map Prod.fst
  | _, [], _, h => by cases h
  | acc, e :: S, v, h => by
    unfold firstFeeAbove at h
    split_ifs at h
    · cases h
      exact .head _
    · exact .tail _ (firstFeeAbove_mem h)

/-- Over a sorted list, a larger threshold is passed at no smaller fee. -/
theorem firstFeeAbove_mono {t' : Nat} (htt' : t ≤ t') : ∀ {acc : Nat} {S : List (Nat × Nat)} {v v' : Nat},
    SortedByFee S → firstFeeAbove t acc S = some v → firstFeeAbove t' acc S = some v' → v ≤ v'
  | _, [], _, _, _, h, _ => by cases h
  | acc, e :: S, v, v', hS, hv, hv' => by
    obtain ⟨hhead, hS⟩ := List.pairwise_cons.1 hS
    unfold firstFeeAbove at hv hv'
    split_ifs at hv hv' with h h'
    · cases hv; cases hv'; exact Nat.le_refl _
    · cases hv
      obtain ⟨x, hx, rfl⟩ := List.mem_map.1 (firstFeeAbove_mem hv')
      exact hhead x hx
    · omega
    · exact firstFeeAbove_mono htt' hS hv hv'

/-- A threshold below the final sum is passed. -/
theorem isSome_firstFeeAbove : ∀ {acc : Nat} {S : List (Nat × Nat)}, acc ≤ t →
    t < S.foldl (fun agg e => addU64 agg e.2) acc → (firstFeeAbove t acc S).isSome
  | _, [], hacc, h => absurd h (Nat.not_lt.2 hacc)
  | acc, e :: S, _, h => by
    unfold firstFeeAbove
    split_ifs with he
    · rfl
    · exact isSome_firstFeeAbove (Nat.not_lt.1 he) h

end Wrapping

/-! ## The loop keeps the first fee past each threshold -/

theorem recordFirstAbove_eq_or (t agg prio : Nat) (x : Option Nat) :
    recordFirstAbove t agg prio x = x.or (if t < agg then some prio else none) := by
  cases x <;> by_cases h : t < agg <;> simp [recordFirstAbove, h]

theorem recordFirstAbove_idem (t agg prio : Nat) (x : Option Nat) :
    recordFirstAbove t agg prio (recordFirstAbove t agg prio x) = recordFirstAbove t agg prio x := by
  simp only [recordFirstAbove_eq_or, Option.or_assoc, Option.or_self]

theorem get_insertPercentile (cuSum agg prio : Nat) (m : HashMap Nat Nat) (p q : Nat) :
    (insertPercentile cuSum agg prio m p).get q =
      if q = p then recordFirstAbove (cuThreshold cuSum p) agg prio (m.get q) else m.get q := by
  unfold insertPercentile recordFirstAbove
  rw [HashMap.containsKey_eq_isSome]
  by_cases hq : q = p
  · subst hq
    cases h : m.get q <;> by_cases ht : cuThreshold cuSum q < agg <;>
      simp [h, ht, HashMap.get_insert]
  · split_ifs <;> simp [hq, HashMap.get_insert]

theorem get_foldl_insertPercentile (cuSum agg prio q : Nat) :
    ∀ (ps : List Nat) (m : HashMap Nat Nat), (ps.foldl (insertPercentile cuSum agg prio) m).get q =
      if q ∈ ps then recordFirstAbove (cuThreshold cuSum q) agg prio (m.get q) else m.get q
  | [], m => by simp
  | p :: ps, m => by
    rw [List.foldl_cons, get_foldl_insertPercentile _ _ _ _ ps, get_insertPercentile]
    by_cases hqp : q = p
    · subst hqp
      by_cases hq : q ∈ ps <;> simp [hq, recordFirstAbove_idem]
    · simp [hqp]

section Fold

variable {cuSum : Nat} {α : Type}

/-- A field that the loop updates like `med_cu` ends as the first fee past its
threshold, unless it was set before. -/
theorem foldl_cuStep_record {t : Nat} {g : CuStats → Option Nat}
    (hg : ∀ s e, g (cuStep cuSum s e) = recordFirstAbove t (addU64 s.agg e.2) e.1 (g s)) :
    ∀ (l : List (Nat × Nat)) (s : CuStats),
      g (l.foldl (cuStep cuSum) s) = (g s).or (firstFeeAbove t s.agg l)
  | [], s => by simp [firstFeeAbove]
  | e :: l, s => by
    rw [List.foldl_cons, foldl_cuStep_record hg l, hg, recordFirstAbove_eq_or, Option.or_assoc]
    congr 1
    by_cases h : t < addU64 s.agg e.2 <;> simp [firstFeeAbove, h, cuStep]

theorem foldl_cuStep_const {g : CuStats → α} (hg : ∀ s e, g (cuStep cuSum s e) = g s) :
    ∀ (l : List (Nat × Nat)) (s : CuStats), g (l.foldl (cuStep cuSum) s) = g s
  | [], _ => rfl
  | e :: l, s => by rw [List.foldl_cons, foldl_cuStep_const hg l, hg]

end Fold

/-- **What the loop leaves in the map**: for each percentile, the first fee past its
threshold, if any, and nothing else. -/
theorem get_cuLoop (S : List (Nat × Nat)) (q : Nat) :
    (cuLoop S).distFeeByCu.get q =
      if q ∈ percentiles then firstFeeAbove (cuThreshold (cuSum S) q) 0 S else none := by
  have hstep : ∀ s e, (cuStep (cuSum S) s e).distFeeByCu.get q =
      if q ∈ percentiles then
        recordFirstAbove (cuThreshold (cuSum S) q) (addU64 s.agg e.2) e.1 (s.distFeeByCu.get q)
      else s.distFeeByCu.get q := fun s e => by
    rw [cuStep_distFeeByCu, get_foldl_insertPercentile]
  unfold cuLoop
  split_ifs with hq
  · rw [foldl_cuStep_record (t := cuThreshold (cuSum S) q) (g := fun s => s.distFeeByCu.get q)
      (fun s e => by simp only [hstep, if_pos hq])]
    simp [CuStats.init, HashMap.get]
  · rw [foldl_cuStep_const (g := fun s => s.distFeeByCu.get q) (fun s e => by simp only [hstep, if_neg hq])]
    simp [CuStats.init, HashMap.get]

/-- **What the loop leaves in `med_cu`, `p75_cu`, `p90_cu` and `p95_cu`**: the first
fee past the threshold of `50`, `75`, `90` and `95`. -/
theorem cuLoop_fields (S : List (Nat × Nat)) :
    [(50, (cuLoop S).medCu), (75, (cuLoop S).p75Cu), (90, (cuLoop S).p90Cu), (95, (cuLoop S).p95Cu)] =
      [50, 75, 90, 95].map fun p => (p, firstFeeAbove (literalThreshold (cuSum S) p) 0 S) := by
  simp only [cuLoop, foldl_cuStep_record (g := CuStats.medCu) (fun _ _ => rfl),
    foldl_cuStep_record (g := CuStats.p75Cu) (fun _ _ => rfl),
    foldl_cuStep_record (g := CuStats.p90Cu) (fun _ _ => rfl),
    foldl_cuStep_record (g := CuStats.p95Cu) (fun _ _ => rfl)]
  rfl

/-! ## Without a wrap, the first fee past a threshold is the least fee past it -/

theorem cuUpTo_cons (e : Nat × Nat) (l : List (Nat × Nat)) (v : Nat) :
    cuUpTo (e :: l) v = (if e.1 ≤ v then e.2 else 0) + cuUpTo l v := by
  by_cases h : e.1 ≤ v <;> simp [cuUpTo, List.filter_cons, h]

theorem cuUpTo_le_cuTotal : ∀ (L : List (Nat × Nat)) (v : Nat), cuUpTo L v ≤ cuTotal L
  | [], _ => Nat.le_refl _
  | e :: L, v => by
    have := cuUpTo_le_cuTotal L v
    rw [cuUpTo_cons, cuTotal_cons]
    split_ifs <;> omega

theorem cuUpTo_eq_zero : ∀ {L : List (Nat × Nat)} {v : Nat}, (∀ x ∈ L, v < x.1) → cuUpTo L v = 0
  | [], _, _ => rfl
  | e :: L, v, h => by
    rw [cuUpTo_cons, if_neg (Nat.not_le.2 (h e (.head _))), cuUpTo_eq_zero fun x hx => h x (.tail _ hx)]

theorem cuUpTo_eq_of_perm {L L' : List (Nat × Nat)} (h : L.Perm L') (v : Nat) :
    cuUpTo L v = cuUpTo L' v :=
  cuTotal_eq_of_perm (h.filter _)

theorem addU64_of_cuTotal {acc : Nat} {e : Nat × Nat} {S : List (Nat × Nat)}
    (hw : acc + cuTotal (e :: S) < 2 ^ 64) : addU64 acc e.2 = acc + e.2 := by
  rw [cuTotal_cons] at hw
  exact Nat.mod_eq_of_lt (by omega)

/-- When the running sum never passes `t` and never wraps, the whole block carries at
most `t`. -/
theorem firstFeeAbove_eq_none {t : Nat} : ∀ {acc : Nat} {S : List (Nat × Nat)},
    acc ≤ t → acc + cuTotal S < 2 ^ 64 → firstFeeAbove t acc S = none → acc + cuTotal S ≤ t
  | _, [], hacc, _, _ => by simpa using hacc
  | acc, e :: S, hacc, hw, h => by
    unfold firstFeeAbove at h
    rw [addU64_of_cuTotal hw] at h
    rw [cuTotal_cons] at hw ⊢
    split_ifs at h with he
    have := firstFeeAbove_eq_none (by omega) (by omega) h
    omega

/-- Over a sorted list, the fee at which the running sum first passes `t` is a fee
of the list at which the compute units up to it pass `t`, and at no smaller fee do
they. -/
theorem firstFeeAbove_eq_some {t : Nat} : ∀ {acc : Nat} {S : List (Nat × Nat)} {v : Nat},
    SortedByFee S → acc ≤ t → acc + cuTotal S < 2 ^ 64 → firstFeeAbove t acc S = some v →
      v ∈ S.map Prod.fst ∧ t < acc + cuUpTo S v ∧ ∀ w < v, acc + cuUpTo S w ≤ t
  | _, [], _, _, _, _, h => by cases h
  | acc, e :: S, v, hS, hacc, hw, h => by
    obtain ⟨hhead, hS⟩ := List.pairwise_cons.1 hS
    unfold firstFeeAbove at h
    rw [addU64_of_cuTotal hw] at h
    rw [cuTotal_cons] at hw
    split_ifs at h with he
    · cases h
      refine ⟨List.mem_map_of_mem _ (.head _), by rw [cuUpTo_cons, if_pos (Nat.le_refl _)]; omega,
        fun w hw => ?_⟩
      rw [cuUpTo_cons, if_neg (by omega), cuUpTo_eq_zero fun x hx => by have := hhead x hx; omega]
      omega
    · obtain ⟨hmem, hgt, hleast⟩ := firstFeeAbove_eq_some hS (by omega) (by omega) h
      have hev : e.1 ≤ v := by
        obtain ⟨x, hx, rfl⟩ := List.mem_map.1 hmem
        exact hhead x hx
      refine ⟨by rw [List.map_cons]; exact List.mem_cons_of_mem _ hmem,
        by rw [cuUpTo_cons, if_pos hev]; omega, fun w hw => ?_⟩
      have := hleast w hw
      rw [cuUpTo_cons]
      split_ifs <;> omega

theorem IsLeastFeeAbove.unique {L : List (Nat × Nat)} {t v w : Nat} (hv : IsLeastFeeAbove L t v)
    (hw : IsLeastFeeAbove L t w) : v = w :=
  Nat.le_antisymm (hv.2.2 w hw.1 hw.2.1) (hw.2.2 v hv.1 hv.2.1)

theorem IsLeastFeeAbove.perm {L L' : List (Nat × Nat)} (h : L.Perm L') {t v : Nat} :
    IsLeastFeeAbove L t v ↔ IsLeastFeeAbove L' t v := by
  simp only [IsLeastFeeAbove, cuUpTo_eq_of_perm h, (h.map Prod.fst).mem_iff]

/-- The substitution of `[(0, 0)]` for an empty block adds no least fee. -/
theorem isLeastFeeAbove_prioFeesInBlock {l : List (Nat × Nat)} {t v : Nat} :
    IsLeastFeeAbove (prioFeesInBlock l) t v ↔ IsLeastFeeAbove l t v := by
  unfold prioFeesInBlock
  split_ifs with h
  · rw [List.isEmpty_iff.1 h]
    simp [IsLeastFeeAbove, cuUpTo]
  · rfl

theorem cuTotal_sortedPrioFees (l : List (Nat × Nat)) : cuTotal (sortedPrioFees l) = cuTotal l := by
  rw [cuTotal_eq_of_perm (sortedPrioFees_perm l), prioFeesInBlock]
  split_ifs with h
  · simp [List.isEmpty_iff.1 h]
  · rfl

theorem cuSum_sortedPrioFees (l : List (Nat × Nat)) : cuSum (sortedPrioFees l) = cuTotal l % 2 ^ 64 := by
  rw [cuSum_eq, cuTotal_sortedPrioFees]

theorem zero_add_cuTotal_sorted_lt {l : List (Nat × Nat)} (hl : cuTotal l < 2 ^ 64) :
    0 + cuTotal (sortedPrioFees l) < 2 ^ 64 := by
  rwa [cuTotal_sortedPrioFees, Nat.zero_add]

/-- **Without a wrap, the loop's fee for a threshold is the least fee past it.** -/
theorem firstFeeAbove_sorted_eq_some {l : List (Nat × Nat)} (hl : cuTotal l < 2 ^ 64) {t v : Nat} :
    firstFeeAbove t 0 (sortedPrioFees l) = some v ↔ IsLeastFeeAbove l t v := by
  have hS := sortedPrioFees_sorted l
  have hw := zero_add_cuTotal_sorted_lt hl
  rw [← isLeastFeeAbove_prioFeesInBlock, ← IsLeastFeeAbove.perm (sortedPrioFees_perm l)]
  have hof : ∀ {v}, firstFeeAbove t 0 (sortedPrioFees l) = some v →
      IsLeastFeeAbove (sortedPrioFees l) t v := fun h => by
    obtain ⟨hmem, hgt, hleast⟩ := firstFeeAbove_eq_some hS (Nat.zero_le t) hw h
    exact ⟨hmem, by omega, fun w _ hw => Nat.not_lt.1 fun hwv => by have := hleast w hwv; omega⟩
  refine ⟨hof, fun hv => ?_⟩
  cases h : firstFeeAbove t 0 (sortedPrioFees l) with
  | none =>
    have := firstFeeAbove_eq_none (Nat.zero_le t) hw h
    have := cuUpTo_le_cuTotal (sortedPrioFees l) v
    have := hv.2.1
    omega
  | some w => rw [(hof h).unique hv]

/-- Without a wrap, the loop finds a fee for a threshold exactly when the block
carries more. -/
theorem firstFeeAbove_sorted_eq_none {l : List (Nat × Nat)} (hl : cuTotal l < 2 ^ 64) {t : Nat} :
    firstFeeAbove t 0 (sortedPrioFees l) = none ↔ cuTotal l ≤ t := by
  refine ⟨fun h => cuTotal_sortedPrioFees l ▸ by
    simpa using firstFeeAbove_eq_none (Nat.zero_le t) (zero_add_cuTotal_sorted_lt hl) h, fun h => ?_⟩
  cases hf : firstFeeAbove t 0 (sortedPrioFees l) with
  | none => rfl
  | some v =>
    have hv := ((firstFeeAbove_sorted_eq_some hl).1 hf).2.1
    have := cuUpTo_le_cuTotal l v
    omega

/-! ## Sorting the map by key -/

theorem percentiles_increasing : percentiles.Pairwise (· < ·) := by decide

/-- Sorting the entries of a map whose keys are percentiles by key lists them in
the order of the percentiles, whatever order the map hands them out in. -/
theorem mergeSort_entries (order : IterOrder (Nat × Nat)) {m : HashMap Nat Nat}
    (hkeys : ∀ k ∈ m.keys, k ∈ percentiles) :
    ((order.arrange m.entries).mergeSort fun a b => a.1 ≤ b.1) =
      percentiles.filterMap fun p => (m.get p).map (p, ·) := by
  have hperm := (List.mergeSort_perm (order.arrange m.entries) fun a b => a.1 ≤ b.1).trans
    (order.perm m.entries)
  have hkeysNodup := ((hperm.map Prod.fst).nodup_iff).2 m.nodupKeys
  have hincr : (percentiles.filterMap fun p => (m.get p).map (p, ·)).Pairwise
      fun a b => a.1 < b.1 :=
    percentiles_increasing.filterMap _ fun a a' h b hb b' hb' => by
      obtain ⟨_, -, rfl⟩ := Option.mem_map.1 hb
      obtain ⟨_, -, rfl⟩ := Option.mem_map.1 hb'
      exact h
  haveI : IsAntisymm (Nat × Nat) fun a b => a.1 < b.1 :=
    ⟨fun _ _ h h' => absurd (h.trans h') (Nat.lt_irrefl _)⟩
  refine List.eq_of_perm_of_sorted ?_
    (((mergeSort_sortedByFee _).and (List.pairwise_map.1 hkeysNodup)).imp fun h => Nat.lt_of_le_of_ne h.1 h.2)
    hincr
  rw [List.perm_ext_iff_of_nodup (hkeysNodup.of_map _)
    ((hincr.imp fun h => ne_of_apply_ne Prod.fst (Nat.ne_of_lt h)))]
  rintro ⟨k, v⟩
  rw [hperm.mem_iff, List.mem_filterMap, ← HashMap.get_eq_some]
  constructor
  · intro h
    exact ⟨k, hkeys k (HashMap.mem_keys.2 ⟨v, HashMap.get_eq_some.1 h⟩), by simp [h]⟩
  · rintro ⟨p, -, hp⟩
    obtain ⟨w, hw, hpw⟩ := Option.map_eq_some'.1 hp
    cases hpw
    exact hw

theorem keys_cuLoop (S : List (Nat × Nat)) : ∀ k ∈ (cuLoop S).distFeeByCu.keys, k ∈ percentiles := by
  intro k hk
  by_contra hp
  have hget := get_cuLoop S k
  rw [if_neg hp] at hget
  exact HashMap.get_eq_none.1 hget hk

/-- **`dist_fee_by_cu`, position by position**: in the order of the percentiles,
the label of each percentile for which the loop found a fee, with that fee. -/
theorem distFeeByCu_eq (order : IterOrder (Nat × Nat)) (l : List (Nat × Nat)) :
    (suppStatsOfSorted order (sortedPrioFees l)).distFeeByCu =
      percentiles.filterMap fun p =>
        (firstFeeAbove (cuThreshold (cuSum (sortedPrioFees l)) p) 0 (sortedPrioFees l)).map
          (label p, ·) := by
  rw [suppStatsOfSorted, collectDistFeeByCu, mergeSort_entries order (keys_cuLoop _),
    List.map_filterMap]
  refine List.filterMap_congr fun p hp => ?_
  rw [get_cuLoop, if_pos hp, Option.map_map]
  rfl

theorem map_fst_filterMap_label (o : Nat → Option Nat) :
    ∀ ps : List Nat, (ps.filterMap fun p => (o p).map (label p, ·)).map Prod.fst =
      (ps.filter fun p => (o p).isSome).map label
  | [] => rfl
  | p :: ps => by
    cases h : o p <;> simp [List.filterMap_cons, List.filter_cons, h, map_fst_filterMap_label o ps]

theorem mem_filterMap_label {o : Nat → Option Nat} {p : Nat} (hp : p ∈ percentiles) (v : Nat) :
    (label p, v) ∈ percentiles.filterMap (fun q => (o q).map (label q, ·)) ↔ o p = some v := by
  rw [List.mem_filterMap]
  constructor
  · rintro ⟨q, hq, hqv⟩
    obtain ⟨w, hw, hlabel⟩ := Option.map_eq_some'.1 hqv
    obtain ⟨hl, rfl⟩ := Prod.mk.inj hlabel
    rwa [← List.inj_on_of_nodup_map nodup_labels hq hp hl]
  · exact fun h => ⟨p, hp, by simp [h]⟩

theorem isSome_firstFeeAbove_sorted {l : List (Nat × Nat)} (hl : cuTotal l < 2 ^ 64) (t : Nat) :
    (firstFeeAbove t 0 (sortedPrioFees l)).isSome = decide (t < cuTotal l) := by
  cases h : firstFeeAbove t 0 (sortedPrioFees l) with
  | none => simpa using (firstFeeAbove_sorted_eq_none hl).1 h
  | some v =>
    have := (firstFeeAbove_sorted_eq_none hl (t := t)).not.1 (by rw [h]; exact Option.some_ne_none v)
    exact (decide_eq_true (Nat.lt_of_not_le this)).symm

/-- **`p_median_cu` to `p_95_cu`**: the first fee past the threshold of each literal,
or `0`. -/
theorem cuFields_eq (order : IterOrder (Nat × Nat)) (l : List (Nat × Nat)) :
    [(50, (suppStatsOfSorted order (sortedPrioFees l)).pMedianCu),
      (75, (suppStatsOfSorted order (sortedPrioFees l)).p75Cu),
      (90, (suppStatsOfSorted order (sortedPrioFees l)).p90Cu),
      (95, (suppStatsOfSorted order (sortedPrioFees l)).p95Cu)] =
      [50, 75, 90, 95].map fun p =>
        (p, (firstFeeAbove (literalThreshold (cuSum (sortedPrioFees l)) p) 0 (sortedPrioFees l)).getD 0) := by
  exact (congrArg (List.map fun px : Nat × Option Nat => (px.1, px.2.getD 0))
    (cuLoop_fields (sortedPrioFees l))).trans (List.map_map _ _ _)

/-! ## The statistics by compute unit, below `2 ^ 46` -/

section Exact

variable {l : List (Nat × Nat)} (hl : cuTotal l < 2 ^ 46)
include hl

theorem cuSum_sortedPrioFees_of_lt : cuSum (sortedPrioFees l) = cuTotal l := by
  rw [cuSum_sortedPrioFees]
  exact Nat.mod_eq_of_lt (by omega)

theorem distFeeByCu_eq_exact (order : IterOrder (Nat × Nat)) :
    (suppStatsOfSorted order (sortedPrioFees l)).distFeeByCu =
      percentiles.filterMap fun p =>
        (firstFeeAbove (cuTotal l * p / 100) 0 (sortedPrioFees l)).map (label p, ·) := by
  rw [distFeeByCu_eq, cuSum_sortedPrioFees_of_lt hl]
  exact List.filterMap_congr fun p hp => by rw [cuThreshold_exact hl (le_100_of_mem_percentiles hp)]

theorem cuFields_eq_exact (order : IterOrder (Nat × Nat)) :
    [(50, (suppStatsOfSorted order (sortedPrioFees l)).pMedianCu),
      (75, (suppStatsOfSorted order (sortedPrioFees l)).p75Cu),
      (90, (suppStatsOfSorted order (sortedPrioFees l)).p90Cu),
      (95, (suppStatsOfSorted order (sortedPrioFees l)).p95Cu)] =
      [50, 75, 90, 95].map fun p =>
        (p, (firstFeeAbove (cuTotal l * p / 100) 0 (sortedPrioFees l)).getD 0) := by
  rw [cuFields_eq, cuSum_sortedPrioFees_of_lt hl]
  exact List.map_congr_left fun p hp => by rw [literalThreshold_exact hl hp]

/-- **Below `2 ^ 46` compute units, `dist_fee_by_cu` never holds `p100`.**  Its
threshold is `cu_sum` itself, which the running sum never exceeds: on a block with
compute units, `dist_fee_by_cu` has exactly the 20 labels `p0` to `p95`. -/
theorem labels_distFeeByCu_of_lt (order : IterOrder (Nat × Nat)) (hpos : 0 < cuTotal l) :
    (suppStatsOfSorted order (sortedPrioFees l)).distFeeByCu.map Prod.fst =
      (percentiles.filter (· < 100)).map label := by
  rw [distFeeByCu_eq_exact hl, map_fst_filterMap_label]
  congr 1
  refine List.filter_congr fun p hp => ?_
  rw [isSome_firstFeeAbove_sorted (by omega)]
  by_cases h : p < 100
  · simp [h, index_lt_length hpos h]
  · obtain rfl : p = 100 := by have := le_100_of_mem_percentiles hp; omega
    simp

end Exact

/-- **The statistics by compute unit.**  On every list of `(fee, cu)` pairs whose
total compute units `cu_sum` stay below `2 ^ 46`, where no sum wraps and every
threshold of the loop is `cu_sum * p / 100`, and in every iteration order of the
map: `dist_fee_by_cu` lists, in increasing `p`, the labels of the percentiles whose
threshold is below `cu_sum`; the entry labelled `p` is the least fee past its
threshold; and each of `p_median_cu`, `p_75_cu`, `p_90_cu`, `p_95_cu` is that least
fee for `50`, `75`, `90`, `95` when the threshold is below `cu_sum` and `0`
otherwise, so it equals the entry of `dist_fee_by_cu` with its label whenever there
is one. -/
theorem calculateSuppStats_by_cu (order : IterOrder (Nat × Nat)) (l : List (Nat × Nat))
    (hl : cuTotal l < 2 ^ 46) :
    ∃ st, calculateSuppStats order l = some st ∧
      st.distFeeByCu.map Prod.fst =
        (percentiles.filter fun p => cuTotal l * p / 100 < cuTotal l).map label ∧
      (∀ p ∈ percentiles, ∀ v,
        (label p, v) ∈ st.distFeeByCu ↔ IsLeastFeeAbove l (cuTotal l * p / 100) v) ∧
      ∀ p x, (p, x) ∈ [(50, st.pMedianCu), (75, st.p75Cu), (90, st.p90Cu), (95, st.p95Cu)] →
        (cuTotal l * p / 100 < cuTotal l → IsLeastFeeAbove l (cuTotal l * p / 100) x) ∧
        (cuTotal l ≤ cuTotal l * p / 100 → x = 0) ∧
        ∀ v, (label p, v) ∈ st.distFeeByCu → x = v := by
  have hl64 : cuTotal l < 2 ^ 64 := by omega
  refine ⟨_, calculateSuppStats_eq order l, ?_, fun p hp v => ?_, fun p x hpx => ?_⟩
  · rw [distFeeByCu_eq_exact hl, map_fst_filterMap_label]
    simp only [isSome_firstFeeAbove_sorted hl64]
  · rw [distFeeByCu_eq_exact hl, mem_filterMap_label hp, firstFeeAbove_sorted_eq_some hl64]
  · rw [cuFields_eq_exact hl] at hpx
    obtain ⟨q, hq, hqx⟩ := List.mem_map.1 hpx
    obtain ⟨rfl, rfl⟩ := Prod.mk.inj hqx
    have hp : q ∈ percentiles := (by decide : ∀ q ∈ [50, 75, 90, 95], q ∈ percentiles) q hq
    cases h : firstFeeAbove (cuTotal l * q / 100) 0 (sortedPrioFees l) with
    | none =>
      have htot := (firstFeeAbove_sorted_eq_none hl64).1 h
      refine ⟨fun hlt => absurd htot (Nat.not_le.2 hlt), fun _ => rfl, fun v hv => ?_⟩
      rw [distFeeByCu_eq_exact hl, mem_filterMap_label hp, h] at hv
      cases hv
    | some w =>
      have hw := (firstFeeAbove_sorted_eq_some hl64).1 h
      refine ⟨fun _ => hw, fun hle => ?_, fun v hv => ?_⟩
      · have := cuUpTo_le_cuTotal l w
        have := hw.2.1
        omega
      · rw [distFeeByCu_eq_exact hl, mem_filterMap_label hp, h] at hv
        exact Option.some.inj hv

/-- The law on a block with a tie on the fee `1`. -/
theorem calculateSuppStats_by_cu_tie :
    cuTotal [(1, 5), (4, 3), (1, 2)] < 2 ^ 46 ∧
      ∃ st, calculateSuppStats (IterOrder.stored _) [(1, 5), (4, 3), (1, 2)] = some st ∧
        st.distFeeByCu.map Prod.fst =
          (percentiles.filter fun p => cuTotal [(1, 5), (4, 3), (1, 2)] * p / 100 <
            cuTotal [(1, 5), (4, 3), (1, 2)]).map label :=
  ⟨by decide, (calculateSuppStats_by_cu _ _ (by decide)).imp fun _ h => ⟨h.1, h.2.1⟩⟩

/-- **Past `2 ^ 64` compute units the sums wrap.**  On `[(1, 2), (1, u64::MAX),
(2, 5)]` `cu_sum` is `6` and `agg` runs `2, 1, 6`, so `p_median_cu` is `2`; but the
least fee past half the compute units is `1`, whether `cu_sum` is read as the total
or as its `u64` value. -/
theorem calculateSuppStats_pMedianCu_wraps :
    (calculateSuppStats (IterOrder.stored _) [(1, 2), (1, 18446744073709551615), (2, 5)]).map
        PrioFeesStats.pMedianCu = some 2 ∧
      IsLeastFeeAbove [(1, 2), (1, 18446744073709551615), (2, 5)]
        (cuTotal [(1, 2), (1, 18446744073709551615), (2, 5)] * 50 / 100) 1 ∧
      IsLeastFeeAbove [(1, 2), (1, 18446744073709551615), (2, 5)]
        (cuSum [(1, 2), (1, 18446744073709551615), (2, 5)] * 50 / 100) 1 := by
  have hsorted : sortedPrioFees [(1, 2), (1, 18446744073709551615), (2, 5)] =
      [(1, 2), (1, 18446744073709551615), (2, 5)] :=
    List.mergeSort_of_sorted (by decide)
  rw [calculateSuppStats_eq, hsorted]
  refine ⟨congrArg some ?_, by decide, by decide⟩
  show (cuLoop [(1, 2), (1, 18446744073709551615), (2, 5)]).medCu.getD 0 = 2
  decide

/-- **`dist_fee_by_cu` lacks `p100`**: on `[(1, 1)]`, a block with one compute
unit, it has the labels `p0` to `p95` and no `p100`. -/
theorem distFeeByCu_lacks_p100 (order : IterOrder (Nat × Nat)) :
    (calculateSuppStats order [(1, 1)]).map (fun st => st.distFeeByCu.map Prod.fst) =
      some ((percentiles.filter (· < 100)).map label) := by
  rw [calculateSuppStats_eq, Option.map_some',
    @labels_distFeeByCu_of_lt [(1, 1)] (by decide) order (by decide)]

end LiteRpc.PrioFees
