import LiteRpc.Rust.Collections
import LiteRpc.Rust.Numeric

/-!
# `calculate_supp_stats`: the fee statistics of a block

`calculate_supp_stats` (`block_priofees/src/stats_calculation.rs`) takes the
`(prioritization fee, compute units)` pairs of a block's transactions and reports

* **by transaction**: the least, median, 75th, 90th and greatest fee, and the fee
  at each index `len * p / 100` of the fee-sorted list, for `p = 0, 5, …, 100`
  (`dist_fee_by_index`), `p100` being the last entry;
* **by compute unit**: for each threshold, the fee at which the running sum of
  compute units over the fee-sorted list first passes it (`p_median_cu` to
  `p_95_cu`, and `dist_fee_by_cu`, whose keys are sorted before they are labelled).

An empty block is replaced by `[(0, 0)]`.  Fees and compute units are `u64` in the
source and `Nat` here.  The loop adds compute units with `+` on `u64`, which wraps
in a release build, so `cu_sum` (`cuSum`) and `agg` are kept modulo `2 ^ 64`;
`cuTotal` is the exact total, over which the laws are stated.  The thresholds are
computed in `f64` and truncated back, with the rounding of `LiteRpc.Rust.Numeric`:
`(cu_sum as f64 * 0.5) as u64` and its siblings for `p_median_cu` to `p_95_cu`
(`literalThreshold`), and `(cu_sum as f64 * p as f64 / 100.0) as u64` for
`dist_fee_by_cu` (`cuThreshold`).  The order in which `into_iter` hands out the
entries of the `HashMap` is not specified, so it is an input (`IterOrder`).

Indexing and `unwrap` panic in the source; here they are `Option` lookups, and
`calculateSuppStats_eq` shows that none of them fails, on every input.
-/

namespace LiteRpc.PrioFees

/-- `PrioFeesStats` (declared in `rpc_data`, which is not part of the sources): its
fields as `calculate_supp_stats` fills them. -/
structure PrioFeesStats where
  pMin : Nat
  pMedian : Nat
  p75 : Nat
  p90 : Nat
  pMax : Nat
  distFeeByIndex : List (String × Nat)
  pMedianCu : Nat
  p75Cu : Nat
  p90Cu : Nat
  p95Cu : Nat
  distFeeByCu : List (String × Nat)
deriving DecidableEq

/-- The percentiles `(0..=100).step_by(5)`. -/
def percentiles : List Nat := (List.range 21).map (· * 5)

/-- `format!("p{}", p)`. -/
def label (p : Nat) : String := "p" ++ toString p

/-- `(cu_sum as f64 * p as f64 / 100.0) as u64`: the product rounded to an `f64`,
then the quotient, then truncated. -/
def cuThreshold (cuSum p : Nat) : Nat :=
  f64AsU64 (divF64 (roundF64 (roundF64 cuSum false * p) false) 100) 60

/-- `(cu_sum as f64 * 0.5) as u64`, and the same with `0.75`, `0.9` and `0.95`, for
`p = 50, 75, 90, 95`: the literal is the `f64` nearest `p / 100`, `divF64 p 100`. -/
def literalThreshold (cuSum p : Nat) : Nat :=
  f64AsU64 (roundF64 (roundF64 cuSum false * divF64 p 100) false) 60

/-- The 21 labels are distinct. -/
theorem nodup_labels : (percentiles.map label).Nodup := by decide

theorem le_100_of_mem_percentiles {p : Nat} (hp : p ∈ percentiles) : p ≤ 100 := by
  simp only [percentiles, List.mem_map, List.mem_range] at hp
  omega

/-! ## The loop over compute units -/

/-- The state of `for (prio, cu) in prio_fees_in_block`. -/
structure CuStats where
  agg : Nat
  medCu : Option Nat
  p75Cu : Option Nat
  p90Cu : Option Nat
  p95Cu : Option Nat
  distFeeByCu : HashMap Nat Nat

/-- The state before the loop: `agg = 0`, every fee `None`, the map empty. -/
def CuStats.init : CuStats := ⟨0, none, none, none, none, HashMap.new⟩

/-- `if x.is_none() && agg > threshold { x = Some(prio) }`. -/
def recordFirstAbove (threshold agg prio : Nat) (x : Option Nat) : Option Nat :=
  if x.isNone && agg > threshold then some prio else x

/-- One turn of the inner `for p in (0..=100).step_by(5)`. -/
def insertPercentile (cuSum agg prio : Nat) (distFeeByCu : HashMap Nat Nat) (p : Nat) :
    HashMap Nat Nat :=
  if !distFeeByCu.containsKey p then
    if agg > cuThreshold cuSum p then (distFeeByCu.insert p prio).2 else distFeeByCu
  else distFeeByCu

/-- One turn of the loop, for the entry `(prio, cu)`; `agg = agg + cu` wraps. -/
def cuStep (cuSum : Nat) (s : CuStats) (entry : Nat × Nat) : CuStats :=
  let agg := addU64 s.agg entry.2
  { agg
    medCu := recordFirstAbove (literalThreshold cuSum 50) agg entry.1 s.medCu
    p75Cu := recordFirstAbove (literalThreshold cuSum 75) agg entry.1 s.p75Cu
    p90Cu := recordFirstAbove (literalThreshold cuSum 90) agg entry.1 s.p90Cu
    p95Cu := recordFirstAbove (literalThreshold cuSum 95) agg entry.1 s.p95Cu
    distFeeByCu := percentiles.foldl (insertPercentile cuSum agg entry.1) s.distFeeByCu }

@[simp] theorem cuStep_agg (cuSum : Nat) (s : CuStats) (e : Nat × Nat) :
    (cuStep cuSum s e).agg = addU64 s.agg e.2 := rfl

@[simp] theorem cuStep_distFeeByCu (cuSum : Nat) (s : CuStats) (e : Nat × Nat) :
    (cuStep cuSum s e).distFeeByCu =
      percentiles.foldl (insertPercentile cuSum (addU64 s.agg e.2) e.1) s.distFeeByCu := by
  simp only [cuStep]

/-- The total compute units of a list of entries. -/
def cuTotal : List (Nat × Nat) → Nat
  | [] => 0
  | e :: l => e.2 + cuTotal l

@[simp] theorem cuTotal_nil : cuTotal [] = 0 := rfl

@[simp] theorem cuTotal_cons (e : Nat × Nat) (l : List (Nat × Nat)) :
    cuTotal (e :: l) = e.2 + cuTotal l := rfl

theorem cuTotal_eq_of_perm {l l' : List (Nat × Nat)} (h : l.Perm l') : cuTotal l = cuTotal l' := by
  induction h with
  | nil => rfl
  | cons e _ ih => rw [cuTotal_cons, cuTotal_cons, ih]
  | swap x y l => simp only [cuTotal_cons]; omega
  | trans _ _ ih₁ ih₂ => exact ih₁.trans ih₂

/-- `iter().map(|x| x.1).sum()` on `u64`: the compute units added up from `0`,
wrapping. -/
def cuSum (l : List (Nat × Nat)) : Nat := l.foldl (fun agg e => addU64 agg e.2) 0

theorem foldl_addU64 : ∀ (l : List (Nat × Nat)) {acc : Nat}, acc < 2 ^ 64 →
    l.foldl (fun agg e => addU64 agg e.2) acc = (acc + cuTotal l) % 2 ^ 64
  | [], acc, h => (Nat.mod_eq_of_lt h).symm
  | e :: l, acc, _ => by
    rw [List.foldl_cons, @foldl_addU64 l (addU64 acc e.2) (Nat.mod_lt _ (Nat.two_pow_pos 64)),
      cuTotal_cons, addU64]
    omega

/-- `cu_sum` is the total modulo `2 ^ 64`. -/
theorem cuSum_eq (l : List (Nat × Nat)) : cuSum l = cuTotal l % 2 ^ 64 := by
  rw [cuSum, foldl_addU64 l (Nat.two_pow_pos 64), Nat.zero_add]

/-- The loop over the sorted entries, with `cu_sum` their wrapping sum. -/
def cuLoop (sorted : List (Nat × Nat)) : CuStats := sorted.foldl (cuStep (cuSum sorted)) .init

/-! ## `calculate_supp_stats` -/

/-- The list `calculate_supp_stats` works on: its argument, or `[(0, 0)]` for an
empty one. -/
def prioFeesInBlock (l : List (Nat × Nat)) : List (Nat × Nat) := if l.isEmpty then [(0, 0)] else l

/-- That list after `sort_by(|a, b| a.0.cmp(&b.0))`, a stable sort by fee. -/
def sortedPrioFees (l : List (Nat × Nat)) : List (Nat × Nat) :=
  (prioFeesInBlock l).mergeSort fun a b => a.1 ≤ b.1

/-- `dist_fee_by_cu.into_iter().sorted_by_key(|(p, _)| *p).map(..)`: the entries of
the map in the order `order` hands them out, stably sorted by key, and labelled. -/
def collectDistFeeByCu (order : IterOrder (Nat × Nat)) (m : HashMap Nat Nat) :
    List (String × Nat) :=
  ((order.arrange m.entries).mergeSort fun a b => a.1 ≤ b.1).map fun (p, fees) => (label p, fees)

/-- `calculate_supp_stats`, with `order` the iteration order of `dist_fee_by_cu`'s
`into_iter`; `none` where the source panics. -/
def calculateSuppStats (order : IterOrder (Nat × Nat)) (l : List (Nat × Nat)) :
    Option PrioFeesStats := do
  let prioFeesInBlock := sortedPrioFees l
  let medianIndex := prioFeesInBlock.length / 2
  let p75Index := prioFeesInBlock.length * 75 / 100
  let p90Index := prioFeesInBlock.length * 90 / 100
  let pMin := (← prioFeesInBlock[0]?).1
  let pMedian := (← prioFeesInBlock[medianIndex]?).1
  let p75 := (← prioFeesInBlock[p75Index]?).1
  let p90 := (← prioFeesInBlock[p90Index]?).1
  let pMax ← prioFeesInBlock.getLast?.map (·.1)
  let distFeeByIndex ← percentiles.mapM fun p => do
    let prioFee ← if p = 100 then (·.1) <$> prioFeesInBlock.getLast?
      else (·.1) <$> prioFeesInBlock[prioFeesInBlock.length * p / 100]?
    pure (label p, prioFee)
  let cu := cuLoop prioFeesInBlock
  let distFeeByCu := collectDistFeeByCu order cu.distFeeByCu
  pure { pMin, pMedian, p75, p90, pMax, distFeeByIndex
         pMedianCu := cu.medCu.getD 0
         p75Cu := cu.p75Cu.getD 0
         p90Cu := cu.p90Cu.getD 0
         p95Cu := cu.p95Cu.getD 0
         distFeeByCu }

/-! ## No lookup fails -/

/-- The fee of the `i`-th entry. -/
def feeAt (S : List (Nat × Nat)) (i : Nat) : Nat := (S.getD i (0, 0)).1

/-- The fee `dist_fee_by_index` reports for `p`: the last one for `p = 100`, and the
one at index `len * p / 100` otherwise. -/
def indexFee (S : List (Nat × Nat)) (p : Nat) : Nat :=
  if p = 100 then feeAt S (S.length - 1) else feeAt S (S.length * p / 100)

/-- What `calculate_supp_stats` computes from the sorted list `S` once every lookup
has succeeded. -/
def suppStatsOfSorted (order : IterOrder (Nat × Nat)) (S : List (Nat × Nat)) : PrioFeesStats where
  pMin := feeAt S 0
  pMedian := feeAt S (S.length / 2)
  p75 := feeAt S (S.length * 75 / 100)
  p90 := feeAt S (S.length * 90 / 100)
  pMax := feeAt S (S.length - 1)
  distFeeByIndex := percentiles.map fun p => (label p, indexFee S p)
  pMedianCu := (cuLoop S).medCu.getD 0
  p75Cu := (cuLoop S).p75Cu.getD 0
  p90Cu := (cuLoop S).p90Cu.getD 0
  p95Cu := (cuLoop S).p95Cu.getD 0
  distFeeByCu := collectDistFeeByCu order (cuLoop S).distFeeByCu

theorem index_lt_length {n p : Nat} (hn : 0 < n) (hp : p < 100) : n * p / 100 < n :=
  Nat.div_lt_of_lt_mul (by rw [Nat.mul_comm 100]; exact Nat.mul_lt_mul_of_pos_left hp hn)

theorem length_sortedPrioFees_pos (l : List (Nat × Nat)) : 0 < (sortedPrioFees l).length := by
  unfold sortedPrioFees prioFeesInBlock
  split <;> simp_all [List.length_pos]

theorem getD_eq_getElem {S : List (Nat × Nat)} {i : Nat} (hi : i < S.length) :
    S.getD i (0, 0) = S[i] := by
  simp [List.getD_eq_getElem?_getD, List.getElem?_eq_getElem hi]

theorem getElem?_eq_getD {S : List (Nat × Nat)} {i : Nat} (hi : i < S.length) :
    S[i]? = some (S.getD i (0, 0)) := by
  rw [getD_eq_getElem hi, List.getElem?_eq_getElem hi]

theorem mapM_eq_some {α β : Type} {f : α → Option β} {g : α → β} :
    ∀ {l : List α}, (∀ a ∈ l, f a = some (g a)) → l.mapM f = some (l.map g)
  | [], _ => rfl
  | a :: l, h => by
    rw [List.mapM_cons, h a (.head _), mapM_eq_some fun b hb => h b (.tail _ hb)]
    rfl

/-- **No index is out of bounds and no `unwrap` fails**: on every input,
`calculate_supp_stats` returns the statistics of its sorted list. -/
theorem calculateSuppStats_eq (order : IterOrder (Nat × Nat)) (l : List (Nat × Nat)) :
    calculateSuppStats order l = some (suppStatsOfSorted order (sortedPrioFees l)) := by
  have hpos := length_sortedPrioFees_pos l
  have hlt : ∀ p < 100, (sortedPrioFees l).length * p / 100 < (sortedPrioFees l).length :=
    fun p hp => index_lt_length hpos hp
  have hlast : (sortedPrioFees l).getLast? =
      some ((sortedPrioFees l).getD ((sortedPrioFees l).length - 1) (0, 0)) := by
    rw [List.getLast?_eq_getElem?, getElem?_eq_getD (by omega)]
  have hindex : ∀ p ∈ percentiles, (do
      let prioFee ← if p = 100 then (·.1) <$> (sortedPrioFees l).getLast?
        else (·.1) <$> (sortedPrioFees l)[(sortedPrioFees l).length * p / 100]?
      pure (label p, prioFee)) = some (label p, indexFee (sortedPrioFees l) p) := by
    intro p hp
    have hp100 := le_100_of_mem_percentiles hp
    unfold indexFee feeAt
    split_ifs with h
    · rw [hlast]; rfl
    · rw [getElem?_eq_getD (hlt p (by omega))]; rfl
  simp only [calculateSuppStats]
  rw [mapM_eq_some hindex, getElem?_eq_getD hpos,
    getElem?_eq_getD (show (sortedPrioFees l).length / 2 < (sortedPrioFees l).length by omega),
    getElem?_eq_getD (hlt 75 (by omega)), getElem?_eq_getD (hlt 90 (by omega)), hlast]
  rfl

end LiteRpc.PrioFees
