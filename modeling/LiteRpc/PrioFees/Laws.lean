import LiteRpc.PrioFees.ByCu

/-!
# Two laws of the fee statistics

`calculate_supp_stats` describes the distribution of the fees of a block.  Two
laws that every reader of `PrioFeesStats` relies on hold on every block:

* **The statistics are those of the block, not of its listing.**  Listing the
  same `(fee, cu)` pairs in another order, or the `HashMap` of the compute-unit
  loop handing out its entries in another order, gives the same statistics
  (`calculateSuppStats_perm`), as long as the compute units stay below `2 ^ 64`.
  The stable sort keeps tied fees in their input order, so the sorted list
  itself does depend on the listing; but its fee sequence does not, and without
  a wrap the compute-unit loop stops at the least fee past each threshold, which
  does not either.
* **The distributions are monotone**, on every block, wrapped sums and `f64`
  thresholds included.  `p_min ≤ p_median ≤ p_75 ≤ p_90 ≤ p_max`, and the 21 fees
  of `dist_fee_by_index` never decrease (`calculateSuppStats_index_monotone`);
  `p_median_cu ≤ p_75_cu ≤ p_90_cu ≤ p_95_cu ≤ p_max`, the fees of
  `dist_fee_by_cu` never decrease, and each lies between `p_min` and `p_max`
  (`calculateSuppStats_cu_monotone`).  The thresholds grow with `p`, a larger
  threshold is passed no earlier along the fee-sorted list, and the threshold of
  `0.95` is below `cu_sum`, where the running sum ends.
-/

namespace LiteRpc.PrioFees

/-! ## The sorted list, position by position -/

section Sorted

variable {S : List (Nat × Nat)}

theorem feeAt_eq_getD_map (S : List (Nat × Nat)) (i : Nat) :
    feeAt S i = (S.map Prod.fst).getD i 0 := by
  simp only [feeAt, List.getD_eq_getElem?_getD, List.getElem?_map]
  cases S[i]? <;> rfl

/-- Along a list sorted by fee, the fee at a later index is no smaller. -/
theorem feeAt_mono (hS : SortedByFee S) {i j : Nat} (hij : i ≤ j) (hj : j < S.length) :
    feeAt S i ≤ feeAt S j := by
  rcases Nat.eq_or_lt_of_le hij with rfl | hlt
  · exact Nat.le_refl _
  · rw [feeAt, feeAt, getD_eq_getElem (by omega), getD_eq_getElem hj]
    exact List.pairwise_iff_getElem.1 hS i j (by omega) hj hlt

/-- The fee `dist_fee_by_index` reports grows with the percentile. -/
theorem indexFee_mono (hS : SortedByFee S) (hpos : 0 < S.length) {p q : Nat} (hpq : p ≤ q)
    (hq : q ≤ 100) : indexFee S p ≤ indexFee S q := by
  unfold indexFee
  by_cases hq100 : q = 100
  · have hlast : ∀ i < S.length, feeAt S i ≤ feeAt S (S.length - 1) := fun i hi =>
      feeAt_mono hS (by omega) (by omega)
    rw [if_pos hq100]
    split_ifs
    · exact Nat.le_refl _
    · exact hlast _ (index_lt_length hpos (by omega))
  · rw [if_neg (by omega), if_neg hq100]
    exact feeAt_mono hS (Nat.div_le_div_right (Nat.mul_le_mul_left _ hpq))
      (index_lt_length hpos (by omega))

end Sorted

/-! ## The statistics do not depend on the listing -/

theorem prioFeesInBlock_perm {l l' : List (Nat × Nat)} (h : l.Perm l') :
    (prioFeesInBlock l).Perm (prioFeesInBlock l') :=
  match l, l', h with
  | [], [], _ => List.Perm.refl _
  | [], _ :: _, h => absurd h.length_eq (by simp)
  | _ :: _, [], h => absurd h.length_eq (by simp)
  | _ :: _, _ :: _, h => by simpa [prioFeesInBlock] using h

/-- Two listings of one block give the same fee sequence once sorted, whatever
the stable sort does with tied fees. -/
theorem map_fst_sortedPrioFees {l l' : List (Nat × Nat)} (h : l.Perm l') :
    (sortedPrioFees l).map Prod.fst = (sortedPrioFees l').map Prod.fst :=
  List.Perm.eq_of_sorted (fun _ _ _ _ => Nat.le_antisymm)
    (List.pairwise_map.2 (sortedPrioFees_sorted l)) (List.pairwise_map.2 (sortedPrioFees_sorted l'))
    ((((sortedPrioFees_perm l).trans (prioFeesInBlock_perm h)).trans
      (sortedPrioFees_perm l').symm).map Prod.fst)

/-- Two listings of one block, without a wrap, pass each threshold at the same fee. -/
theorem firstFeeAbove_sorted_perm {l l' : List (Nat × Nat)} (h : l.Perm l') (hl : cuTotal l < 2 ^ 64)
    (t : Nat) : firstFeeAbove t 0 (sortedPrioFees l) = firstFeeAbove t 0 (sortedPrioFees l') :=
  have hl' : cuTotal l' < 2 ^ 64 := cuTotal_eq_of_perm h ▸ hl
  Option.ext fun _ => (firstFeeAbove_sorted_eq_some hl).trans
    ((IsLeastFeeAbove.perm h).trans (firstFeeAbove_sorted_eq_some hl').symm)

/-- **The statistics are those of the block, not of its listing.**  For every two
lists of `(fee, cu)` pairs that are permutations of each other, with fewer than
`2 ^ 64` compute units in all, and every two iteration orders of the map of the
compute-unit loop, `calculate_supp_stats` returns the same statistics, every field
of them.  (Past `2 ^ 64` the wrapped running sum depends on the listing.) -/
theorem calculateSuppStats_perm (order order' : IterOrder (Nat × Nat)) {l l' : List (Nat × Nat)}
    (h : l.Perm l') (hl : cuTotal l < 2 ^ 64) :
    calculateSuppStats order l = calculateSuppStats order' l' := by
  have hfees := map_fst_sortedPrioFees h
  have hlen : (sortedPrioFees l).length = (sortedPrioFees l').length := by
    simpa using congrArg List.length hfees
  have hat : ∀ i, feeAt (sortedPrioFees l) i = feeAt (sortedPrioFees l') i := fun i => by
    rw [feeAt_eq_getD_map, feeAt_eq_getD_map, hfees]
  have hsum : cuSum (sortedPrioFees l) = cuSum (sortedPrioFees l') := by
    rw [cuSum_sortedPrioFees, cuSum_sortedPrioFees, cuTotal_eq_of_perm h]
  have hfields := cuFields_eq order l
  rw [hsum] at hfields
  simp only [firstFeeAbove_sorted_perm h hl] at hfields
  rw [← cuFields_eq order' l'] at hfields
  simp only [List.cons.injEq, Prod.mk.injEq, true_and, and_true] at hfields
  obtain ⟨h50, h75, h90, h95⟩ := hfields
  have hdist : (suppStatsOfSorted order (sortedPrioFees l)).distFeeByCu =
      (suppStatsOfSorted order' (sortedPrioFees l')).distFeeByCu := by
    rw [distFeeByCu_eq, distFeeByCu_eq, hsum]
    simp only [firstFeeAbove_sorted_perm h hl]
  simp only [suppStatsOfSorted] at h50 h75 h90 h95 hdist
  rw [calculateSuppStats_eq, calculateSuppStats_eq]
  simp only [suppStatsOfSorted, indexFee, hat, hlen, h50, h75, h90, h95, hdist]

/-- The same block listed in two orders, with a tie on the fee `1`. -/
theorem calculateSuppStats_relisted :
    cuTotal [(1, 5), (4, 3), (1, 2)] < 2 ^ 64 ∧ [(1, 5), (4, 3), (1, 2)].Perm [(4, 3), (1, 2), (1, 5)] ∧
      calculateSuppStats (IterOrder.stored _) [(1, 5), (4, 3), (1, 2)] =
        calculateSuppStats ⟨List.reverse, List.reverse_perm⟩ [(4, 3), (1, 2), (1, 5)] :=
  ⟨by decide, by decide, calculateSuppStats_perm _ _ (by decide) (by decide)⟩

/-! ## The distributions are monotone -/

/-- **The statistics by transaction are monotone.**  On every list of `(fee, cu)`
pairs, `p_min ≤ p_median ≤ p_75 ≤ p_90 ≤ p_max`, and the fees of
`dist_fee_by_index`, from `p0` to `p100`, never decrease. -/
theorem calculateSuppStats_index_monotone (order : IterOrder (Nat × Nat)) (l : List (Nat × Nat)) :
    ∃ st, calculateSuppStats order l = some st ∧
      st.pMin ≤ st.pMedian ∧ st.pMedian ≤ st.p75 ∧ st.p75 ≤ st.p90 ∧ st.p90 ≤ st.pMax ∧
      (st.distFeeByIndex.map Prod.snd).Pairwise (· ≤ ·) := by
  refine ⟨_, calculateSuppStats_eq order l, ?_⟩
  have hS := sortedPrioFees_sorted l
  have hpos := length_sortedPrioFees_pos l
  have hmono : ∀ i j, i ≤ j → j < (sortedPrioFees l).length →
      feeAt (sortedPrioFees l) i ≤ feeAt (sortedPrioFees l) j := fun _ _ => feeAt_mono hS
  simp only [suppStatsOfSorted, List.map_map]
  refine ⟨hmono _ _ (Nat.zero_le _) (by omega), hmono _ _ (by omega) (by omega),
    hmono _ _ (by omega) (by omega), hmono _ _ (by omega) (by omega), ?_⟩
  refine List.pairwise_map.2 (percentiles_increasing.imp_of_mem fun hp hq hpq => ?_)
  exact indexFee_mono hS hpos (Nat.le_of_lt hpq) (le_100_of_mem_percentiles hq)

/-! ### By compute unit -/

/-- A fee the loop records is a fee of the sorted block, so it lies between the
least and the greatest. -/
theorem firstFeeAbove_sorted_bounds {l : List (Nat × Nat)} {t v : Nat}
    (hv : firstFeeAbove t 0 (sortedPrioFees l) = some v) :
    feeAt (sortedPrioFees l) 0 ≤ v ∧ v ≤ feeAt (sortedPrioFees l) ((sortedPrioFees l).length - 1) := by
  have hS := sortedPrioFees_sorted l
  have hpos := length_sortedPrioFees_pos l
  obtain ⟨x, hx, rfl⟩ := List.mem_map.1 (firstFeeAbove_mem hv)
  exact ⟨feeAt_zero_le hS hpos x hx, le_feeAt_last hS hpos x hx⟩

/-- The fees the loop keeps for two literals `p ≤ q ≤ 95` come in order, `0`
standing for no fee: with a positive `cu_sum` both thresholds lie below it, where
the running sum ends, so both are passed; with `cu_sum = 0` they are equal. -/
theorem getD_firstFeeAbove_literal_mono {S : List (Nat × Nat)} (hS : SortedByFee S) {p q : Nat}
    (hpq : p ≤ q) (hq : q ≤ 95) :
    (firstFeeAbove (literalThreshold (cuSum S) p) 0 S).getD 0 ≤
      (firstFeeAbove (literalThreshold (cuSum S) q) 0 S).getD 0 := by
  rcases Nat.eq_zero_or_pos (cuSum S) with h0 | hpos
  · rw [h0, literalThreshold_zero, literalThreshold_zero]
  · have hq' : literalThreshold (cuSum S) q < cuSum S :=
      Nat.lt_of_le_of_lt (literalThreshold_mono _ hq) (literalThreshold_95_lt hpos)
    have hp' := Nat.lt_of_le_of_lt (literalThreshold_mono (cuSum S) hpq) hq'
    obtain ⟨v, hv⟩ := Option.isSome_iff_exists.1 (isSome_firstFeeAbove (Nat.zero_le _) hp')
    obtain ⟨v', hv'⟩ := Option.isSome_iff_exists.1 (isSome_firstFeeAbove (Nat.zero_le _) hq')
    rw [hv, hv']
    exact firstFeeAbove_mono (literalThreshold_mono _ hpq) hS hv hv'

/-- **The statistics by compute unit are monotone.**  On every list of `(fee, cu)`
pairs and in every iteration order of the map, `p_median_cu ≤ p_75_cu ≤ p_90_cu ≤
p_95_cu ≤ p_max`; the fees of `dist_fee_by_cu`, in the order of its labels, never
decrease; and each of them lies between `p_min` and `p_max`. -/
theorem calculateSuppStats_cu_monotone (order : IterOrder (Nat × Nat)) (l : List (Nat × Nat)) :
    ∃ st, calculateSuppStats order l = some st ∧
      st.pMedianCu ≤ st.p75Cu ∧ st.p75Cu ≤ st.p90Cu ∧ st.p90Cu ≤ st.p95Cu ∧ st.p95Cu ≤ st.pMax ∧
      (st.distFeeByCu.map Prod.snd).Pairwise (· ≤ ·) ∧
      ∀ e ∈ st.distFeeByCu, st.pMin ≤ e.2 ∧ e.2 ≤ st.pMax := by
  refine ⟨_, calculateSuppStats_eq order l, ?_⟩
  have hS := sortedPrioFees_sorted l
  have hfields := cuFields_eq order l
  simp only [List.map_cons, List.map_nil, List.cons.injEq, Prod.mk.injEq, true_and, and_true]
    at hfields
  obtain ⟨h50, h75, h90, h95⟩ := hfields
  rw [h50, h75, h90, h95, distFeeByCu_eq]
  refine ⟨getD_firstFeeAbove_literal_mono hS (by decide) (by decide),
    getD_firstFeeAbove_literal_mono hS (by decide) (by decide),
    getD_firstFeeAbove_literal_mono hS (by decide) (by decide), ?_, ?_, ?_⟩
  · cases h : firstFeeAbove (literalThreshold (cuSum (sortedPrioFees l)) 95) 0 (sortedPrioFees l) with
    | none => exact Nat.zero_le _
    | some v => exact (firstFeeAbove_sorted_bounds h).2
  · refine List.pairwise_map.2 (percentiles_increasing.filterMap _ fun p q hpq b hb c hc => ?_)
    obtain ⟨v, hv, rfl⟩ := Option.mem_map.1 hb
    obtain ⟨w, hw, rfl⟩ := Option.mem_map.1 hc
    exact firstFeeAbove_mono (cuThreshold_mono _ (Nat.le_of_lt hpq)) hS hv hw
  · intro e he
    obtain ⟨p, -, hp⟩ := List.mem_filterMap.1 he
    obtain ⟨v, hv, rfl⟩ := Option.map_eq_some'.1 hp
    exact firstFeeAbove_sorted_bounds hv

end LiteRpc.PrioFees
