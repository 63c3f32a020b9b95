import SqlPredicates.Binary64.Decimal
import Mathlib.Tactic.Ring

/-!
# Printed numbers read back

The printed text of a number is found by a search over decimal grids, from the coarsest one on, for
a decimal that is rounded to the number. Here the search is shown to succeed for every finite
number, so that reading the printed decimal gives the number back.

## Why the search cannot fail

On the grid of `10 ^ -1074` every finite number lies exactly, since it is a multiple of `2 ^ -1074`.
So all that has to be known about rounding is that it leaves numbers of the format alone
(`roundedBits_units`); nothing is needed about how a decimal between two of them is rounded.

One bound is needed besides. A decimal that has no fraction is printed as an integer, which is read
as one only if it is small enough; `le_one_of_ofNat_le_one` bounds it for the numbers up to one.

## Main results

* `Binary64.readsAs_shortest` — the shortest decimal of a finite number is rounded to that number
* `Binary64.digitsValue_append` — the value of digits that follow each other
* `Binary64.le_one_of_ofNat_le_one` — the integers that are rounded to at most one
-/

namespace SqlPredicates

namespace Binary64

/-! ### Rounding numbers of the format -/

/-- An exact quotient is not rounded. -/
theorem roundDiv_mul_left (q : ℕ) {d : ℕ} (hd : 0 < d) : roundDiv (q * d) d = q := by
  have hmod : q * d % d = 0 := Nat.mul_mod_left q d
  have hdiv : q * d / d = q := Nat.mul_div_cancel q hd
  rw [roundDiv, hmod, hdiv]
  simp [hd]

/-- The binary digits of a significand with its leading one, moved by `s` places. -/
theorem log2_mul_two_pow {m : ℕ} (s : ℕ) (hlow : 2 ^ 52 ≤ m) (hhigh : m < 2 ^ 53) :
    (m * 2 ^ s).log2 = 52 + s := by
  have hpos : 0 < m * 2 ^ s := Nat.mul_pos (by omega) (Nat.two_pow_pos s)
  rw [Nat.log2_eq_iff (by omega)]
  constructor
  · rw [Nat.pow_add]
    exact Nat.mul_le_mul_right _ hlow
  · rw [show 52 + s + 1 = 53 + s by omega, Nat.pow_add]
    exact Nat.mul_lt_mul_of_pos_right hhigh (Nat.two_pow_pos s)

/-- A count of units with at most 53 binary digits before `s` zeros keeps its bits. -/
theorem roundedBits_of_scale {m s d : ℕ} (hd : 0 < d) (hhigh : m < 2 ^ 53)
    (hlow : s = 0 ∨ 2 ^ 52 ≤ m) : roundedBits (m * 2 ^ s * d) d = s * 2 ^ 52 + m := by
  have hwhole : m * 2 ^ s * d / d = m * 2 ^ s := Nat.mul_div_cancel _ hd
  have hscale : (if m * 2 ^ s < 2 ^ 53 then 0 else (m * 2 ^ s).log2 - 52) = s := by
    rcases hlow with rfl | hlow
    · rw [Nat.pow_zero, Nat.mul_one, if_pos hhigh]
    · by_cases hs : s = 0
      · subst hs
        rw [Nat.pow_zero, Nat.mul_one, if_pos hhigh]
      · have hge : 2 ^ 53 ≤ m * 2 ^ s := by
          calc 2 ^ 53 = 2 ^ 52 * 2 ^ 1 := by norm_num
            _ ≤ m * 2 ^ s := Nat.mul_le_mul hlow (Nat.pow_le_pow_right (by norm_num) (by omega))
        rw [if_neg (by omega), log2_mul_two_pow s hlow hhigh]
        omega
  have hround : roundDiv (m * 2 ^ s * d) (d * 2 ^ s) = m := by
    rw [show m * 2 ^ s * d = m * (d * 2 ^ s) by ring]
    exact roundDiv_mul_left m (Nat.mul_pos hd (Nat.two_pow_pos s))
  rw [roundedBits]
  simp only [Nat.pow_eq, hwhole, hscale, hround]

theorem significand_lt (x : Binary64) : x.significand < 2 ^ 53 := by
  rw [significand]
  simp only [Nat.pow_eq]
  split
  · omega
  · have := Nat.mod_lt x.bits (show 0 < 2 ^ 52 by norm_num)
    omega

/-- The bits of a number are those of its significand and its scale. -/
theorem scale_add_significand (x : Binary64) : x.scale * 2 ^ 52 + x.significand = x.bits := by
  have hdivmod := Nat.div_add_mod x.bits (2 ^ 52)
  rw [scale, significand]
  simp only [Nat.pow_eq]
  split
  · next h =>
    rw [Nat.div_eq_of_lt h]
    simp
  · next h =>
    have hpos : 0 < x.bits / 2 ^ 52 := Nat.div_pos (by omega) (by norm_num)
    omega

/-- **Numbers of the format are not rounded.** -/
theorem roundedBits_units (x : Binary64) {d : ℕ} (hd : 0 < d) :
    roundedBits (x.units * d) d = x.bits := by
  have hlow : x.scale = 0 ∨ 2 ^ 52 ≤ x.significand := by
    rw [scale, significand]
    simp only [Nat.pow_eq]
    split
    · next h => exact .inl (by rw [Nat.div_eq_of_lt h])
    · exact .inr (by omega)
  rw [units, Nat.pow_eq, roundedBits_of_scale hd x.significand_lt hlow, scale_add_significand]

/-! ### The search over the grids -/

/-- What is found on a grid belongs to that grid and reads back. -/
theorem onGrid_eq_some {x : Binary64} {exponent : ℤ} {d : Decimal}
    (h : x.onGrid exponent = some d) : d.readsAs x = true := by
  rw [onGrid] at h
  dsimp only at h
  split at h
  · next hbelow =>
    split at h
    · next habove =>
      cases h
      exact (Bool.and_eq_true _ _ ▸ habove).1
    · cases h
      exact hbelow
  · split at h
    · next habove =>
      cases h
      exact habove
    · cases h

/-- The count of units as a decimal with `n` places, if units are `2 ^ -n`. -/
theorem mul_ten_pow_div (u n : ℕ) : u * 10 ^ n / (1 * 2 ^ n) = u * 5 ^ n := by
  have hpow : (10 : ℕ) ^ n = 5 ^ n * 2 ^ n := by rw [← Nat.mul_pow]
  rw [hpow, Nat.one_mul, ← Nat.mul_assoc]
  exact Nat.mul_div_cancel _ (Nat.two_pow_pos n)

theorem roundedBits_five_pow (x : Binary64) (n : ℕ) :
    roundedBits (x.units * 5 ^ n * 2 ^ n) (10 ^ n) = x.bits := by
  have hpow : x.units * 5 ^ n * 2 ^ n = x.units * 10 ^ n := by
    rw [Nat.mul_assoc, ← Nat.mul_pow]
  rw [hpow]
  exact x.roundedBits_units (Nat.pow_pos (by norm_num))

/-- A grid on which the lower neighbour reads back has a decimal for the number. -/
theorem isSome_onGrid {x : Binary64} {exponent : ℤ}
    (h : Decimal.readsAs ⟨x.units * (powerOfTen exponent).2 /
      ((powerOfTen exponent).1 * Nat.pow 2 1074), exponent⟩ x = true) :
    (x.onGrid exponent).isSome = true := by
  rw [onGrid]
  simp only [h, if_true]
  split
  · rfl
  · rfl

/-- On the finest grid every number lies exactly. -/
theorem isSome_onGrid_finest (x : Binary64) {n : ℕ} (hn : n + 1 = 1074) :
    (x.onGrid (.negSucc n)).isSome = true := by
  refine isSome_onGrid ?_
  have hgrid : x.units * Nat.pow 10 (n + 1) / (1 * Nat.pow 2 1074) = x.units * 5 ^ (n + 1) := by
    rw [← hn, Nat.pow_eq, Nat.pow_eq, mul_ten_pow_div]
  have hratio : ofRatio (x.units * 5 ^ (n + 1)) (10 ^ (n + 1)) = x := by
    rw [ofRatio, ← hn, Nat.pow_eq]
    simp only [x.roundedBits_five_pow (n + 1), x.bits_le, dite_true]
  simp only [powerOfTen, hgrid]
  exact decide_eq_true hratio

/-- The finest grid is the last one that is tried. -/
theorem finest_mem_grids (top : ℕ) :
    Int.negSucc 1073 ∈ (List.range (top + 1075)).map fun i : ℕ => (top : ℤ) - i := by
  refine List.mem_map.mpr ⟨top + 1074, List.mem_range.mpr (by omega), ?_⟩
  omega

/-- **The shortest decimal of a number is rounded to that number.** Infinity has one as well, but is
printed in another way. -/
theorem readsAs_shortest (x : Binary64) : x.shortest.readsAs x = true := by
  have hfound := List.findSome?_isSome_iff.mpr
    ⟨_, finest_mem_grids (digitCount (x.units / Nat.pow 2 1074)), x.isSome_onGrid_finest rfl⟩
  obtain ⟨d, hd⟩ := Option.isSome_iff_exists.mp hfound
  obtain ⟨exponent, -, hgrid⟩ := List.exists_of_findSome?_eq_some hd
  simp only [shortest, hd, Option.getD_some]
  exact onGrid_eq_some hgrid

/-! ### Digits -/

theorem foldl_digits (n : ℕ) (ds : List Char) :
    ds.foldl (fun n c => 10 * n + (c.toNat - '0'.toNat)) n =
      n * 10 ^ ds.length + digitsValue ds := by
  induction ds generalizing n with
  | nil => simp [digitsValue]
  | cons d ds ih =>
    rw [digitsValue, List.foldl_cons, List.foldl_cons, ih, ih (10 * 0 + _), List.length_cons]
    ring

/-- The value of digits that follow each other. -/
theorem digitsValue_append (xs ys : List Char) :
    digitsValue (xs ++ ys) = digitsValue xs * 10 ^ ys.length + digitsValue ys := by
  rw [digitsValue, List.foldl_append, foldl_digits]
  rfl

theorem digitsValue_zeros (n : ℕ) : digitsValue (List.replicate n '0') = 0 := by
  induction n with
  | zero => rfl
  | succ n ih =>
    rw [List.replicate_succ, ← List.singleton_append, digitsValue_append, ih]
    simp [digitsValue]

theorem digitsValue_toDigits (n : ℕ) : digitsValue (Nat.toDigits 10 n) = n :=
  Nat.ofDigitChars_ten_toDigits

/-! ### Small integers -/

theorem le_roundDiv (n d : ℕ) : n / d ≤ roundDiv n d := by
  rw [roundDiv]
  split
  · exact Nat.le_refl _
  split
  · exact Nat.le_succ _
  split
  · exact Nat.le_refl _
  · exact Nat.le_succ _

/-- The bits of `2 ^ 1075` units or more: the leading digit and the 52 after it leave a scale of at
least 1023. -/
theorem two_pow_le_roundedBits {whole k : ℕ} (hk : 1075 ≤ k) (hge : 2 ^ k ≤ whole) :
    2 ^ 62 ≤ roundedBits whole 1 := by
  have hne : whole ≠ 0 := Nat.ne_of_gt (Nat.lt_of_lt_of_le (Nat.two_pow_pos k) hge)
  have hlog : k ≤ whole.log2 := (Nat.le_log2 hne).mpr hge
  have hbig : ¬ whole < 2 ^ 53 :=
    Nat.not_lt.mpr (Nat.le_trans (Nat.pow_le_pow_right (by norm_num) (by omega)) hge)
  obtain ⟨s, hs⟩ : ∃ s, whole.log2 = 52 + s := ⟨whole.log2 - 52, by omega⟩
  have hround : 2 ^ 52 ≤ roundDiv whole (1 * 2 ^ s) := by
    refine Nat.le_trans ?_ (le_roundDiv _ _)
    rw [Nat.one_mul, Nat.le_div_iff_mul_le (Nat.two_pow_pos s), ← Nat.pow_add, ← hs]
    exact Nat.log2_self_le hne
  have hbits : roundedBits whole 1 = s * 2 ^ 52 + roundDiv whole (1 * 2 ^ s) := by
    rw [roundedBits]
    simp only [Nat.pow_eq, Nat.div_one, if_neg hbig, hs, Nat.add_sub_cancel_left]
  rw [hbits]
  have hscale : 1023 * 2 ^ 52 ≤ s * 2 ^ 52 := Nat.mul_le_mul_right _ (by omega)
  omega

/-- Cutting off at infinity keeps a lower bound. -/
theorem le_bits_ofRatio {bits num den : ℕ} (h : bits ≤ roundedBits (num * 2 ^ 1074) den)
    (hfinite : bits ≤ infinityBits) : bits ≤ (ofRatio num den).bits := by
  obtain ⟨rounded, hrounded⟩ : ∃ r, roundedBits (num * 2 ^ 1074) den = r := ⟨_, rfl⟩
  rw [hrounded] at h
  simp only [ofRatio, Nat.pow_eq, hrounded]
  split
  · exact h
  · exact hfinite

theorem ofNat_zero : ofNat 0 = zero := by
  have hbits : roundedBits (0 * 2 ^ 1074) 1 = 0 := by
    rw [Nat.zero_mul]
    rfl
  simp only [ofNat, ofRatio, Nat.pow_eq, hbits]
  rfl

/-- Only zero and one are rounded to at most one. -/
theorem le_one_of_ofNat_le_one {n : ℕ} (h : (ofNat n).le one = true) : n ≤ 1 := by
  by_contra hn
  have hge : ∀ k, 2 ^ (k + 1) ≤ n * 2 ^ k := by
    intro k
    rw [Nat.pow_succ, Nat.mul_comm]
    exact Nat.mul_le_mul_right _ (by omega)
  have hbits : 2 ^ 62 ≤ (ofNat n).bits :=
    le_bits_ofRatio (two_pow_le_roundedBits (k := 1074 + 1) (Nat.le_refl _) (hge 1074)) (by decide)
  have hle : (ofNat n).bits ≤ one.bits := of_decide_eq_true h
  exact absurd (Nat.le_trans hbits hle) (by decide)

end Binary64

end SqlPredicates
