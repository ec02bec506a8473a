import Mathlib.Algebra.Group.Nat.Basic
import Mathlib.Data.Nat.Defs
import Mathlib.Tactic.SplitIfs

/-!
# `u64` arithmetic and the casts through `f64`

The compute-unit loop of `calculate_supp_stats` adds `u64`s and compares them with
thresholds computed in `f64`, such as `(cu_sum as f64 * 0.95) as u64` and
`(cu_sum as f64 * p as f64 / 100.0) as u64`.  This file gives those operations
their exact meaning on natural numbers.

* `addU64` is `+` on `u64` in a release build: overflow checks are off and the
  sum wraps modulo `2 ^ 64` (a debug build panics instead).
* A non-negative `f64` is held as a natural number `z` read as `z / 2 ^ k` for a
  fixed scale `k`: integers at scale `0`, and quotients such as `0.95` or
  `cu_sum * p / 100` at scale `60`, which leaves every quotient of at least
  `2 ^ -7` with more than 53 bits before the point.  `roundF64` rounds such a
  number to the 53 significant bits of an `f64`, to nearest with ties to even, a
  `sticky` flag standing for a nonzero fraction below its last bit (IEEE 754
  round-to-nearest-even, in the normal range, where every value here lies).
* `f64AsU64` is `as u64`: truncation toward zero, saturating at `u64::MAX`.

Every definition evaluates, so the loop can be run at `u64::MAX`.  What the
proofs use: a value below `2 ^ 53` is exact (`roundF64_of_lt`); rounding moves a
value by at most `n / 2 ^ 53` (`roundF64_near`); it is monotone
(`roundF64_mono_of_lt`, `roundF64_mono`); and a rounded value far enough from
the integers above and below `m` truncates to `m` (`roundF64_div_two_pow`).
-/

namespace LiteRpc

/-- `a + b` on `u64` in a release build, where it wraps. -/
def addU64 (a b : Nat) : Nat := (a + b) % 2 ^ 64

/-! ## Bit length -/

/-- The bit length of `n`, halving it at most `fuel` times. -/
def bitLengthAux : Nat → Nat → Nat
  | 0, _ => 0
  | fuel + 1, n => if n = 0 then 0 else bitLengthAux fuel (n / 2) + 1

/-- The number of binary digits of `n` (`0` for `0`). -/
def bitLength (n : Nat) : Nat := bitLengthAux n n

theorem bitLengthAux_le_iff : ∀ {fuel n : Nat} (k : Nat), n ≤ fuel →
    (bitLengthAux fuel n ≤ k ↔ n < 2 ^ k)
  | 0, n, k, h => by
    obtain rfl : n = 0 := by omega
    simp only [bitLengthAux, Nat.zero_le, Nat.two_pow_pos]
  | fuel + 1, n, k, h => by
    simp only [bitLengthAux]
    split_ifs with hn
    · simp only [hn, Nat.zero_le, Nat.two_pow_pos]
    · cases k with
      | zero => simp only [Nat.pow_zero]; omega
      | succ k =>
        rw [Nat.add_le_add_iff_right, bitLengthAux_le_iff k (by omega), Nat.pow_succ,
          Nat.div_lt_iff_lt_mul (by decide)]

/-- **The bit length, characterized**: at most `k` exactly when `n < 2 ^ k`. -/
theorem bitLength_le_iff {n k : Nat} : bitLength n ≤ k ↔ n < 2 ^ k :=
  bitLengthAux_le_iff k (Nat.le_refl n)

theorem lt_two_pow_bitLength (n : Nat) : n < 2 ^ bitLength n :=
  bitLength_le_iff.1 (Nat.le_refl _)

theorem two_pow_pred_bitLength_le {n : Nat} (hn : 0 < n) : 2 ^ (bitLength n - 1) ≤ n := by
  have hpos : ¬ bitLength n ≤ 0 := fun h => by have := bitLength_le_iff.1 h; omega
  exact Nat.not_lt.1 fun h => by have := bitLength_le_iff.2 h; omega

/-! ## Rounding to 53 significant bits -/

/-- The exponent of the last of the 53 significant bits of `n`: an `f64` rounds `n`
to a multiple of `2 ^ ulpExp n`. -/
def ulpExp (n : Nat) : Nat := bitLength n - 53

/-- `n`, plus a fraction below one when `sticky`, rounded to a multiple of `u`: down
to `n / u * u`, or up to the next multiple when past the halfway point, or on it
with a fraction below or an odd quotient (ties to even). -/
def roundToMultiple (n u : Nat) (sticky : Bool) : Nat :=
  if u < 2 * (n % u) ∨ 2 * (n % u) = u ∧ (sticky = true ∨ n / u % 2 = 1) then (n / u + 1) * u
  else n / u * u

/-- `n`, plus a fraction below one when `sticky`, rounded to the nearest `f64`, ties
to even. -/
def roundF64 (n : Nat) (sticky : Bool) : Nat := roundToMultiple n (2 ^ ulpExp n) sticky

/-- `y / d` in `f64`, for integers `y` and `d` held exactly, at scale `60`: the
quotient `y * 2 ^ 60 / d` rounded with its remainder as the sticky flag.  The
rounding is the one of `f64` whenever `y = 0` or `d ≤ 128 * y`, where the quotient
has more than 53 bits before the point. -/
def divF64 (y d : Nat) : Nat := roundF64 (y * 2 ^ 60 / d) (y * 2 ^ 60 % d != 0)

/-- `x as u64` for the non-negative `f64` `x = z / 2 ^ k`: truncation toward zero,
saturating at `u64::MAX`. -/
def f64AsU64 (z k : Nat) : Nat := min (z / 2 ^ k) (2 ^ 64 - 1)

section Exponent

variable {n m : Nat}

theorem lt_two_pow_ulpExp (n : Nat) : n < 2 ^ ulpExp n * 2 ^ 53 := by
  rw [← Nat.pow_add]
  exact Nat.lt_of_lt_of_le (lt_two_pow_bitLength n)
    (Nat.pow_le_pow_right (by decide) (by unfold ulpExp; omega))

theorem two_pow_ulpExp_le (h : 0 < ulpExp n) : 2 ^ ulpExp n * 2 ^ 52 ≤ n := by
  have hn : 0 < n := Nat.pos_of_ne_zero fun h0 => by simp [h0, ulpExp, bitLength, bitLengthAux] at h
  have hexp : bitLength n - 1 = ulpExp n + 52 := by unfold ulpExp at h ⊢; omega
  rw [← Nat.pow_add, ← hexp]
  exact two_pow_pred_bitLength_le hn

theorem ulpExp_le_of_lt {k : Nat} (h : n < 2 ^ (k + 53)) : ulpExp n ≤ k := by
  have := bitLength_le_iff.2 h
  unfold ulpExp
  omega

theorem ulpExp_eq_zero (h : n < 2 ^ 53) : ulpExp n = 0 := Nat.le_zero.1 (ulpExp_le_of_lt h)

theorem ulpExp_mono (h : n ≤ m) : ulpExp n ≤ ulpExp m :=
  Nat.sub_le_sub_right (bitLength_le_iff.2 (Nat.lt_of_le_of_lt h (lt_two_pow_bitLength m))) 53

end Exponent

section Multiple

variable {n m u k : Nat} {b b' : Bool}

theorem div_mul_le_roundToMultiple (n u : Nat) (b : Bool) : n / u * u ≤ roundToMultiple n u b := by
  unfold roundToMultiple
  split_ifs
  · exact Nat.mul_le_mul_right u (Nat.le_succ _)
  · exact Nat.le_refl _

theorem roundToMultiple_le_succ (n u : Nat) (b : Bool) :
    roundToMultiple n u b ≤ (n / u + 1) * u := by
  unfold roundToMultiple
  split_ifs
  · exact Nat.le_refl _
  · exact Nat.mul_le_mul_right u (Nat.le_succ _)

/-- Rounding to a multiple of `u` moves `n` by at most `u / 2`. -/
theorem roundToMultiple_near (hu : 0 < u) :
    2 * roundToMultiple n u b ≤ 2 * n + u ∧ 2 * n ≤ 2 * roundToMultiple n u b + u := by
  have hdm := Nat.div_add_mod' n u
  have hr := Nat.mod_lt n hu
  unfold roundToMultiple
  split_ifs with h
  · rw [Nat.add_one_mul (n / u)]
    omega
  · omega

/-- A multiple of `u` at most `n`, or above `n` by less than `u / 2`, is at most the
rounded value. -/
theorem le_roundToMultiple (hu : 0 < u) (h : k * u ≤ n ∨ 2 * (k * u - n) < u) :
    k * u ≤ roundToMultiple n u b := by
  have hdm := Nat.div_add_mod' n u
  have hr := Nat.mod_lt n hu
  have hlow := div_mul_le_roundToMultiple n u b
  rcases Nat.lt_or_ge (n / u) k with hq | hq
  · rcases Nat.eq_or_lt_of_le hq with hq | hq
    · have hk : k * u = n / u * u + u := by rw [← hq, Nat.succ_mul]
      have hup : u < 2 * (n % u) := by omega
      simp only [roundToMultiple, hup, true_or, if_true, ← hq, Nat.le_refl]
    · have := Nat.mul_le_mul_right u hq
      rw [Nat.succ_mul, Nat.succ_mul] at this
      omega
  · exact Nat.le_trans (Nat.mul_le_mul_right u hq) hlow

/-- A multiple of `u` above `n` by more than `u / 2` is above the rounded value. -/
theorem roundToMultiple_lt (hu : 0 < u) (h : n < k * u) (h2 : u < 2 * (k * u - n)) :
    roundToMultiple n u b < k * u := by
  have hdm := Nat.div_add_mod' n u
  have hq : n / u < k := (Nat.div_lt_iff_lt_mul hu).2 h
  rcases Nat.eq_or_lt_of_le hq with hq | hq
  · have hk : k * u = n / u * u + u := by rw [← hq, Nat.succ_mul]
    have hdown : ¬ (u < 2 * (n % u) ∨ 2 * (n % u) = u ∧ (b = true ∨ n / u % 2 = 1)) := by omega
    simp only [roundToMultiple, hdown, if_false]
    omega
  · exact Nat.lt_of_le_of_lt (roundToMultiple_le_succ n u b) (Nat.mul_lt_mul_of_pos_right hq hu)

/-- Rounding to multiples of one `u` is monotone, whatever the sticky flags. -/
theorem roundToMultiple_mono (h : n < m) :
    roundToMultiple n u b ≤ roundToMultiple m u b' := by
  rcases Nat.lt_or_eq_of_le (Nat.div_le_div_right (c := u) (Nat.le_of_lt h)) with hq | hq
  · calc roundToMultiple n u b ≤ (n / u + 1) * u := roundToMultiple_le_succ n u b
      _ ≤ m / u * u := Nat.mul_le_mul_right u hq
      _ ≤ roundToMultiple m u b' := div_mul_le_roundToMultiple m u b'
  · have hr : n % u < m % u := by
      have := Nat.div_add_mod' n u
      have := Nat.div_add_mod' m u
      rw [hq] at *
      omega
    unfold roundToMultiple
    rw [hq]
    split_ifs with hn hm
    · exact Nat.le_refl _
    · omega
    · exact Nat.mul_le_mul_right u (Nat.le_succ _)
    · exact Nat.le_refl _

end Multiple

section Round

variable {n m v : Nat} {b b' : Bool}

/-- **Below `2 ^ 53` every integer is an `f64`.** -/
theorem roundF64_of_lt (h : n < 2 ^ 53) : roundF64 n b = n := by
  simp [roundF64, roundToMultiple, ulpExp_eq_zero h, Nat.mod_one]

theorem roundF64_zero (b : Bool) : roundF64 0 b = 0 := roundF64_of_lt (by decide)

/-- **The rounding error**: rounding moves `n` by at most `n / 2 ^ 53`. -/
theorem roundF64_near (n : Nat) (b : Bool) :
    roundF64 n b ≤ n + n / 2 ^ 53 ∧ n ≤ roundF64 n b + n / 2 ^ 53 := by
  have hnear := roundToMultiple_near (n := n) (b := b) (Nat.two_pow_pos (ulpExp n))
  rw [← roundF64] at hnear
  rcases Nat.eq_zero_or_pos (ulpExp n) with hs | hs
  · rw [hs, Nat.pow_zero] at hnear
    omega
  · have hle := two_pow_ulpExp_le hs
    obtain ⟨w, hw⟩ : ∃ w, ulpExp n = w + 1 := ⟨ulpExp n - 1, by omega⟩
    rw [hw, Nat.pow_succ] at hnear hle
    have : 2 ^ w ≤ n / 2 ^ 53 := (Nat.le_div_iff_mul_le (Nat.two_pow_pos 53)).2 (by omega)
    omega

/-- **Rounding is monotone**, whatever the sticky flags. -/
theorem roundF64_mono_of_lt (h : n < m) : roundF64 n b ≤ roundF64 m b' := by
  rcases Nat.lt_or_eq_of_le (ulpExp_mono (Nat.le_of_lt h)) with hs | hs
  · have hm := two_pow_ulpExp_le (Nat.lt_of_le_of_lt (Nat.zero_le _) hs)
    have hqn : n / 2 ^ ulpExp n < 2 ^ 53 :=
      (Nat.div_lt_iff_lt_mul (Nat.two_pow_pos _)).2 (by rw [Nat.mul_comm]; exact lt_two_pow_ulpExp n)
    have hqm : 2 ^ 52 ≤ m / 2 ^ ulpExp m :=
      (Nat.le_div_iff_mul_le (Nat.two_pow_pos _)).2 (by rw [Nat.mul_comm]; exact hm)
    calc roundF64 n b ≤ (n / 2 ^ ulpExp n + 1) * 2 ^ ulpExp n := roundToMultiple_le_succ _ _ _
      _ ≤ 2 ^ 53 * 2 ^ ulpExp n := Nat.mul_le_mul_right _ hqn
      _ = 2 ^ 52 * 2 ^ (ulpExp n + 1) := by
        rw [← Nat.pow_add, ← Nat.pow_add, Nat.add_comm 53, Nat.add_comm 52, Nat.add_assoc]
      _ ≤ 2 ^ 52 * 2 ^ ulpExp m := Nat.mul_le_mul_left _ (Nat.pow_le_pow_right (by decide) hs)
      _ ≤ m / 2 ^ ulpExp m * 2 ^ ulpExp m := Nat.mul_le_mul_right _ hqm
      _ ≤ roundF64 m b' := div_mul_le_roundToMultiple _ _ _
  · unfold roundF64
    rw [hs]
    exact roundToMultiple_mono h

theorem roundF64_mono (h : n ≤ m) (b : Bool) : roundF64 n b ≤ roundF64 m b := by
  rcases Nat.eq_or_lt_of_le h with rfl | h
  · exact Nat.le_refl _
  · exact roundF64_mono_of_lt h

/-- **Truncating a rounded value.**  Read at scale `k`, a value at most `2 ^ -54` of
itself below `m`, and more than `2 ^ -53` of itself below `m + 1`, rounds to an `f64`
whose integer part is `m`. -/
theorem roundF64_div_two_pow {m : Nat} (k : Nat) (hv : v < 2 ^ (k + 53))
    (hlo : m * 2 ^ k * 2 ^ 54 ≤ v * (2 ^ 54 + 1)) (hhi : v * (2 ^ 53 + 1) < (m + 1) * 2 ^ k * 2 ^ 53) :
    roundF64 v b / 2 ^ k = m := by
  have hs := ulpExp_le_of_lt hv
  have hu := Nat.two_pow_pos (ulpExp v)
  have hv53 := lt_two_pow_ulpExp v
  have hsplit : 2 ^ k = 2 ^ (k - ulpExp v) * 2 ^ ulpExp v := by rw [← Nat.pow_add, Nat.sub_add_cancel hs]
  have hpos : 0 < 2 ^ k := Nat.two_pow_pos k
  refine Nat.div_eq_of_lt_le ?_ ?_
  · have := le_roundToMultiple (k := m * 2 ^ (k - ulpExp v)) (n := v) (b := b) hu (by
      rw [Nat.mul_assoc, ← hsplit]
      omega)
    rwa [Nat.mul_assoc, ← hsplit] at this
  · have hup : 2 ^ ulpExp v < 2 * ((m + 1) * 2 ^ k - v) := by
      rcases Nat.eq_zero_or_pos (ulpExp v) with h0 | h0
      · rw [h0]
        omega
      · have := two_pow_ulpExp_le h0
        omega
    have := roundToMultiple_lt (k := (m + 1) * 2 ^ (k - ulpExp v)) (n := v) (b := b) hu
      (by rw [Nat.mul_assoc, ← hsplit]; omega) (by rw [Nat.mul_assoc, ← hsplit]; exact hup)
    rwa [Nat.mul_assoc, ← hsplit] at this

end Round

/-- Division by `d ≤ 2 ^ 60` is monotone in the dividend. -/
theorem divF64_mono {y y' d : Nat} (hd : 0 < d) (hd' : d ≤ 2 ^ 60) (h : y ≤ y') :
    divF64 y d ≤ divF64 y' d := by
  rcases Nat.eq_or_lt_of_le h with rfl | h
  · exact Nat.le_refl _
  · refine roundF64_mono_of_lt (Nat.lt_of_lt_of_le (Nat.lt_succ_self _) ?_)
    calc y * 2 ^ 60 / d + 1 = (y * 2 ^ 60 + d) / d := (Nat.add_div_right _ hd).symm
      _ ≤ y' * 2 ^ 60 / d :=
        Nat.div_le_div_right (by have := Nat.mul_le_mul_right (2 ^ 60) h; rw [Nat.succ_mul] at this; omega)

theorem f64AsU64_mono {z z' : Nat} (h : z ≤ z') (k : Nat) : f64AsU64 z k ≤ f64AsU64 z' k := by
  have := Nat.div_le_div_right (c := 2 ^ k) h
  unfold f64AsU64
  omega

theorem f64AsU64_le_div (z k : Nat) : f64AsU64 z k ≤ z / 2 ^ k := Nat.min_le_left _ _

end LiteRpc
