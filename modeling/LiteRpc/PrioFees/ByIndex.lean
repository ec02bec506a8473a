import LiteRpc.PrioFees.Stats

/-!
# The statistics by transaction

Over the fee-sorted list, the entry at index `k` is the fee of **rank** `k`: at most
`k` fees lie below it and more than `k` lie at or below it (`HasRank`), and no
other fee has that rank (`hasRank_iff`).  Ranks count fees, so they do not depend
on the order of the input, and `calculate_supp_stats` reports, for every list:

* the least and the greatest fee as `p_min` and `p_max`;
* the 21 entries `p0, p5, …, p100` of `dist_fee_by_index` in this order, the one
  for `p < 100` being the fee of rank `len * p / 100`, and `p100` being `p_max`;
* `p_median`, `p_75` and `p_90` equal to the entries `p50`, `p75` and `p90`, which is
  what the assertions commented out after the distribution check
  (`calculateSuppStats_by_index`).
-/

namespace LiteRpc.PrioFees

/-- `v` is the fee of rank `k` in `L`: at most `k` fees of `L` are below `v`, and
more than `k` are at most `v`. -/
def HasRank (L : List (Nat × Nat)) (k v : Nat) : Prop :=
  L.countP (fun x => x.1 < v) ≤ k ∧ k < L.countP (fun x => x.1 ≤ v)

instance (L : List (Nat × Nat)) (k v : Nat) : Decidable (HasRank L k v) :=
  inferInstanceAs (Decidable (_ ∧ _))

/-- A list sorted by fee. -/
def SortedByFee (S : List (Nat × Nat)) : Prop := S.Pairwise fun a b => a.1 ≤ b.1

/-- A stable sort by the first component sorts by it. -/
theorem mergeSort_sortedByFee (l : List (Nat × Nat)) :
    SortedByFee (l.mergeSort fun a b => a.1 ≤ b.1) := by
  have h := @List.sorted_mergeSort _ (fun a b : Nat × Nat => decide (a.1 ≤ b.1))
    (fun a b c hab hbc => by simp only [decide_eq_true_eq] at *; omega)
    (fun a b => by simpa only [Bool.or_eq_true, decide_eq_true_eq] using Nat.le_total a.1 b.1) l
  exact h.imp fun hab => by simpa using hab

theorem sortedPrioFees_sorted (l : List (Nat × Nat)) : SortedByFee (sortedPrioFees l) :=
  mergeSort_sortedByFee _

theorem sortedPrioFees_perm (l : List (Nat × Nat)) : (sortedPrioFees l).Perm (prioFeesInBlock l) :=
  List.mergeSort_perm _ _

theorem feeAt_mem {S : List (Nat × Nat)} {k : Nat} (hk : k < S.length) :
    feeAt S k ∈ S.map Prod.fst := by
  rw [feeAt, getD_eq_getElem hk]
  exact List.mem_map_of_mem _ (List.getElem_mem hk)

section Sorted

variable {S : List (Nat × Nat)} (hS : SortedByFee S)
include hS

/-- A sorted list around its `k`-th entry: the entries before it have fees at most
its fee, the entries after it fees at least its fee. -/
theorem sorted_split {k : Nat} (hk : k < S.length) :
    ∃ A e B, S = A ++ e :: B ∧ A.length = k ∧ e.1 = feeAt S k ∧
      (∀ a ∈ A, a.1 ≤ e.1) ∧ ∀ b ∈ B, e.1 ≤ b.1 := by
  have hS' := hS
  have hsplit : S = S.take k ++ S.getD k (0, 0) :: S.drop (k + 1) := by
    rw [getD_eq_getElem hk, ← List.drop_eq_getElem_cons hk, List.take_append_drop]
  rw [hsplit] at hS'
  obtain ⟨-, hcons, hcross⟩ := List.pairwise_append.1 hS'
  exact ⟨_, _, _, hsplit, by simp [Nat.min_eq_left hk.le], rfl,
    fun a ha => hcross a ha _ (.head _), (List.pairwise_cons.1 hcons).1⟩

/-- **The entry at index `k` is the one fee of rank `k`.** -/
theorem hasRank_iff {k : Nat} (hk : k < S.length) (v : Nat) : HasRank S k v ↔ v = feeAt S k := by
  obtain ⟨A, e, B, hsplit, rfl, he, hbefore, hafter⟩ := sorted_split hS hk
  rw [← he, hsplit]
  have hlt := List.countP_le_length (fun a : Nat × Nat => decide (a.1 < v)) (l := A)
  have hle := List.countP_le_length (fun a : Nat × Nat => decide (a.1 ≤ v)) (l := A)
  simp only [HasRank, List.countP_append, List.countP_cons]
  rcases lt_trichotomy v e.1 with hv | rfl | hv
  · have hB : B.countP (fun a => decide (a.1 ≤ v)) = 0 :=
      List.countP_eq_zero.2 fun b hb => by simpa using Nat.lt_of_lt_of_le hv (hafter b hb)
    simp only [hB, decide_eq_true_eq, Nat.not_le.2 hv, if_false]
    omega
  · have hB : B.countP (fun a => decide (a.1 < e.1)) = 0 :=
      List.countP_eq_zero.2 fun b hb => by simpa using hafter b hb
    have hA : A.countP (fun a => decide (a.1 ≤ e.1)) = A.length :=
      List.countP_eq_length.2 fun a ha => by simpa using hbefore a ha
    simp only [hB, hA, decide_eq_true_eq, Nat.lt_irrefl, Nat.le_refl, if_false, if_true, iff_true]
    omega
  · have hA : A.countP (fun a => decide (a.1 < v)) = A.length :=
      List.countP_eq_length.2 fun a ha => by simpa using Nat.lt_of_le_of_lt (hbefore a ha) hv
    simp only [hA, decide_eq_true_eq, hv, if_true]
    omega

theorem feeAt_zero_le (hpos : 0 < S.length) : ∀ y ∈ S, feeAt S 0 ≤ y.1 := by
  obtain ⟨A, e, B, hsplit, hA, he, -, hafter⟩ := sorted_split hS hpos
  rw [List.length_eq_zero.1 hA, List.nil_append] at hsplit
  intro y hy
  rw [hsplit, List.mem_cons] at hy
  rcases hy with rfl | hy
  · exact he.ge
  · exact he ▸ hafter y hy

theorem le_feeAt_last (hpos : 0 < S.length) : ∀ y ∈ S, y.1 ≤ feeAt S (S.length - 1) := by
  obtain ⟨A, e, B, hsplit, hA, he, hbefore, -⟩ := sorted_split hS (Nat.sub_lt hpos Nat.one_pos)
  have hB : B = [] := by
    have hlen := congrArg List.length hsplit
    simp only [List.length_append, List.length_cons] at hlen
    exact List.length_eq_zero.1 (by omega)
  rw [hB] at hsplit
  intro y hy
  rw [hsplit, List.mem_append, List.mem_singleton] at hy
  rcases hy with hy | rfl
  · exact he ▸ hbefore y hy
  · exact he.le

end Sorted

theorem HasRank.perm {L L' : List (Nat × Nat)} (h : L.Perm L') {k v : Nat} :
    HasRank L k v ↔ HasRank L' k v := by
  rw [HasRank, HasRank, h.countP_eq, h.countP_eq]

/-- The entry labelled `p` is the fee `indexFee` computes for it. -/
theorem mem_distFeeByIndex {order : IterOrder (Nat × Nat)} {S : List (Nat × Nat)} {p : Nat}
    (hp : p ∈ percentiles) (v : Nat) :
    (label p, v) ∈ (suppStatsOfSorted order S).distFeeByIndex ↔ v = indexFee S p := by
  simp only [suppStatsOfSorted, List.mem_map, Prod.mk.injEq]
  constructor
  · rintro ⟨q, hq, hlabel, rfl⟩
    rw [List.inj_on_of_nodup_map nodup_labels hq hp hlabel]
  · rintro rfl
    exact ⟨p, hp, rfl, rfl⟩

/-- **The statistics by transaction.**  On every list of `(fee, cu)` pairs, with
`L` the list the code works on, `calculate_supp_stats` indexes nothing out of
bounds and unwraps no `None`; `p_min` and `p_max` are the least and the greatest fee
of `L`; `dist_fee_by_index` lists `p0, p5, …, p100` in this order; the entry for
`p < 100` is the fee of rank `|L| * p / 100` in `L`, and the entry `p100` is
`p_max`; and `p_median`, `p_75`, `p_90` are the entries `p50`, `p75`, `p90`. -/
theorem calculateSuppStats_by_index (order : IterOrder (Nat × Nat)) (l : List (Nat × Nat)) :
    ∃ st, calculateSuppStats order l = some st ∧
      (st.pMin ∈ (prioFeesInBlock l).map Prod.fst ∧ ∀ x ∈ prioFeesInBlock l, st.pMin ≤ x.1) ∧
      (st.pMax ∈ (prioFeesInBlock l).map Prod.fst ∧ ∀ x ∈ prioFeesInBlock l, x.1 ≤ st.pMax) ∧
      st.distFeeByIndex.map Prod.fst = percentiles.map label ∧
      (∀ p ∈ percentiles, p < 100 → ∀ v, (label p, v) ∈ st.distFeeByIndex ↔
        HasRank (prioFeesInBlock l) ((prioFeesInBlock l).length * p / 100) v) ∧
      (label 100, st.pMax) ∈ st.distFeeByIndex ∧ (label 50, st.pMedian) ∈ st.distFeeByIndex ∧
      (label 75, st.p75) ∈ st.distFeeByIndex ∧ (label 90, st.p90) ∈ st.distFeeByIndex := by
  refine ⟨_, calculateSuppStats_eq order l, ?_⟩
  have hperm := sortedPrioFees_perm l
  have hS := sortedPrioFees_sorted l
  have hpos := length_sortedPrioFees_pos l
  have hlen : (prioFeesInBlock l).length = (sortedPrioFees l).length := hperm.length_eq.symm
  have hfees : ∀ v, v ∈ (prioFeesInBlock l).map Prod.fst ↔ v ∈ (sortedPrioFees l).map Prod.fst :=
    fun v => (hperm.map Prod.fst).mem_iff.symm
  have hat : ∀ p ∈ percentiles, p < 100 →
      (label p, feeAt (sortedPrioFees l) ((sortedPrioFees l).length * p / 100)) ∈
        (suppStatsOfSorted order (sortedPrioFees l)).distFeeByIndex := fun p hp h100 =>
    (mem_distFeeByIndex hp _).2 (by simp [indexFee, Nat.ne_of_lt h100])
  refine ⟨⟨(hfees _).2 (feeAt_mem hpos), fun x hx => feeAt_zero_le hS hpos x (hperm.mem_iff.2 hx)⟩,
    ⟨(hfees _).2 (feeAt_mem (by omega)), fun x hx => le_feeAt_last hS hpos x (hperm.mem_iff.2 hx)⟩,
    by simp [suppStatsOfSorted, Function.comp_def], fun p hp h100 v => ?_,
    (mem_distFeeByIndex (by decide) _).2 (by simp [suppStatsOfSorted, indexFee]), ?_,
    hat 75 (by decide) (by decide), hat 90 (by decide) (by decide)⟩
  · rw [mem_distFeeByIndex hp, HasRank.perm hperm.symm, hlen,
      hasRank_iff hS (index_lt_length hpos h100), indexFee, if_neg (Nat.ne_of_lt h100)]
  · have h50 := hat 50 (by decide) (by decide)
    rwa [show (sortedPrioFees l).length * 50 / 100 = (sortedPrioFees l).length / 2 by omega] at h50

end LiteRpc.PrioFees
