import Mathlib.Data.Int.Log
import Mathlib.Data.Nat.Sqrt
import Mathlib.Data.Rat.Floor
import Mathlib.Algebra.Order.Field.Power
import Mathlib.Algebra.Order.Ring.Nat

/-!
# Nonnegative `f32` arithmetic

Host code computes launch sizes with `f32` operations on nonnegative counts: the conversion of an
integer (`as f32`), division, multiplication, `ceil`, `max` and `sqrt`, and the saturating cast
`as u32`. Each arithmetic operation is IEEE 754 binary32, rounded to nearest with ties to even: a
finite value is its rational value here, rounded by `round` to a 24-bit significand (with
subnormals below `2 ^ -126`), and a result that rounds to `2 ^ 128` or more is `+∞`.

What launch sizes need of it: every `m * 2 ^ e` with `m < 2 ^ 24` is exact (`round_mul_zpow`),
and so is every integer up to `2 ^ 24` (`ofNat_of_le`); above `2 ^ 24` an integer rounds to even,
so `2 ^ (24 + i) + r` rounds down to `2 ^ (24 + i)` for `r ≤ 2 ^ i` (`round_two_pow_add`); a
rounded quotient `n / d` of integers with `n ≤ 2 ^ 24` never rounds below an integer under it
(`le_ceil_round_div`);
and `sqrt` is exact on even powers of two (`sqrtRound_two_pow_two_mul`) and keeps counts up to
`2 ^ 25` between `1` and `2 ^ 13` (`sqrtRound_bounds`).
-/

namespace CubeCl.Core

set_option autoImplicit false

/-- A nonnegative `f32`: a finite value, `+∞`, or NaN. -/
inductive F32
  | fin (q : ℚ)
  | inf
  | nan
deriving DecidableEq

namespace F32

/-- The integer nearest to a nonnegative rational, ties to even. -/
def roundHalfEven (x : ℚ) : ℕ :=
  let f := ⌊x⌋₊
  if x - f < 1 / 2 then f
  else if 1 / 2 < x - f then f + 1
  else if f % 2 = 0 then f else f + 1

/-- The exponent of the last place of the 24-bit significand a positive rational rounds to:
`⌊log₂ q⌋ - 23`, and `-149` for the subnormals. -/
def ulpExp (q : ℚ) : ℤ := max (Int.log 2 q - 23) (-149)

/-- The binary32 value nearest to a nonnegative rational, ties to even; `+∞` where it rounds to
`2 ^ 128` or more. -/
def round (q : ℚ) : F32 :=
  let e := ulpExp q
  let r : ℚ := roundHalfEven (q / 2 ^ e) * 2 ^ e
  if (2 : ℚ) ^ 128 ≤ r then inf else fin r

/-- `n as f32`, from `usize` or `u32`. -/
def ofNat (n : ℕ) : F32 := round n

/-- `a / b`. -/
def div : F32 → F32 → F32
  | nan, _ => nan
  | _, nan => nan
  | fin a, fin b => if b = 0 then (if a = 0 then nan else inf) else round (a / b)
  | fin _, inf => fin 0
  | inf, fin _ => inf
  | inf, inf => nan

/-- `a * b`. -/
def mul : F32 → F32 → F32
  | nan, _ => nan
  | _, nan => nan
  | fin a, fin b => round (a * b)
  | fin a, inf => if a = 0 then nan else inf
  | inf, fin b => if b = 0 then nan else inf
  | inf, inf => inf

/-- `f32::ceil`, exact. -/
def ceil : F32 → F32
  | fin q => fin ⌈q⌉₊
  | inf => inf
  | nan => nan

/-- `f32::max`: the greater value, and the other operand where one is NaN. -/
def max : F32 → F32 → F32
  | nan, b => b
  | a, nan => a
  | fin a, fin b => fin (Max.max a b)
  | inf, _ => inf
  | _, inf => inf

/-- The binary32 value nearest to `√q`, ties to even: with `e = ⌊log₂ √q⌋ - 23`, the integer
nearest to `√(q / 4 ^ e)`, from the integer square root of its floor and one comparison of
squares. -/
def sqrtRound (q : ℚ) : ℚ :=
  let e := Int.log 2 q / 2 - 23
  let t := q / 2 ^ (2 * e)
  let m₀ := Nat.sqrt ⌊t⌋₊
  let m : ℕ := if t < (m₀ + 1 / 2) ^ 2 then m₀
    else if (m₀ + 1 / 2) ^ 2 < t then m₀ + 1
    else if m₀ % 2 = 0 then m₀ else m₀ + 1
  m * 2 ^ e

/-- `f32::sqrt`, correctly rounded. -/
def sqrt : F32 → F32
  | fin q => fin (sqrtRound q)
  | inf => inf
  | nan => nan

/-- `as u32`: truncation toward zero, saturating at `u32::MAX`; NaN is `0`. -/
def toU32 : F32 → ℕ
  | fin q => Min.min ⌊q⌋₊ (2 ^ 32 - 1)
  | inf => 2 ^ 32 - 1
  | nan => 0

/-! ## The nearest integer -/

@[simp] theorem roundHalfEven_natCast (n : ℕ) : roundHalfEven n = n := by
  simp [roundHalfEven]

/-- The nearest integer is within one half. -/
theorem abs_roundHalfEven_sub {x : ℚ} (hx : 0 ≤ x) : |(roundHalfEven x : ℚ) - x| ≤ 1 / 2 := by
  have h₁ := Nat.floor_le hx
  have h₂ := Nat.lt_floor_add_one x
  -- the floor where the fraction is at most a half, the next integer where it is at least a half
  have hdown : x - ⌊x⌋₊ ≤ 1 / 2 → |(⌊x⌋₊ : ℚ) - x| ≤ 1 / 2 := fun h => by
    rwa [abs_sub_comm, abs_of_nonneg (sub_nonneg.2 h₁)]
  have hup : 1 / 2 ≤ x - ⌊x⌋₊ → |((⌊x⌋₊ + 1 : ℕ) : ℚ) - x| ≤ 1 / 2 := fun h => by
    push_cast
    rw [abs_of_nonneg (by linarith)]
    linarith
  unfold roundHalfEven
  dsimp only
  split_ifs with a b
  · exact hdown a.le
  · exact hup b.le
  · exact hdown (not_lt.1 b)
  · exact hup (not_lt.1 a)

/-- Up to a half above an even integer the nearest integer is that integer, the tie included. -/
theorem roundHalfEven_add_of_le_half {m : ℕ} (hm : m % 2 = 0) {v : ℚ} (h₀ : 0 ≤ v)
    (h : v ≤ 1 / 2) : roundHalfEven (m + v) = m := by
  have hf : ⌊(m : ℚ) + v⌋₊ = m := by
    rw [Nat.floor_eq_iff (by positivity)]
    constructor <;> linarith
  unfold roundHalfEven
  dsimp only
  rw [hf, add_sub_cancel_left]
  split_ifs with a b
  · rfl
  · exact absurd b (not_lt.2 h)
  · rfl

/-! ## Binary logarithms -/

/-- A rational between two consecutive powers of two has the lower exponent as logarithm. -/
theorem log_eq_of_bounds {q : ℚ} {z : ℤ} (h₁ : (2 : ℚ) ^ z ≤ q) (h₂ : q < 2 ^ (z + 1)) :
    Int.log 2 q = z := by
  have hq : 0 < q := lt_of_lt_of_le (zpow_pos two_pos z) h₁
  have a := (Int.zpow_le_iff_le_log (b := 2) one_lt_two hq).1 (by exact_mod_cast h₁)
  have b := (Int.lt_zpow_iff_log_lt (b := 2) one_lt_two hq).1 (by exact_mod_cast h₂)
  omega

theorem log_mul_zpow {m : ℕ} (hm : 0 < m) (e : ℤ) :
    Int.log 2 ((m : ℚ) * 2 ^ e) = Nat.log 2 m + e := by
  have h₁ : ((2 ^ Nat.log 2 m : ℕ) : ℚ) ≤ m := by exact_mod_cast Nat.pow_log_le_self 2 hm.ne'
  have h₂ : (m : ℚ) < ((2 ^ (Nat.log 2 m + 1) : ℕ) : ℚ) := by
    exact_mod_cast Nat.lt_pow_succ_log_self one_lt_two m
  have he := zpow_pos (two_pos (α := ℚ)) e
  push_cast at h₁ h₂
  apply log_eq_of_bounds
  · rw [zpow_add₀ two_ne_zero, zpow_natCast]
    exact mul_le_mul_of_nonneg_right h₁ he.le
  · rw [add_right_comm, zpow_add₀ two_ne_zero, ← Nat.cast_succ, zpow_natCast]
    exact mul_lt_mul_of_pos_right h₂ he

/-! ## Exact values -/

/-- `m * 2 ^ e` with a significand below `2 ^ 24`, and an exponent in the range of the normal and
subnormal values, is a binary32 value: it rounds to itself. -/
theorem round_mul_zpow {m : ℕ} (hm : m < 2 ^ 24) {e : ℤ} (he : -149 ≤ e) (he' : e ≤ 104) :
    round ((m : ℚ) * 2 ^ e) = fin ((m : ℚ) * 2 ^ e) := by
  obtain rfl | hm0 := Nat.eq_zero_or_pos m
  · simp [round, roundHalfEven]
  have hL : Nat.log 2 m < 24 := Nat.log_lt_of_lt_pow hm0.ne' hm
  set u := ulpExp ((m : ℚ) * 2 ^ e) with hu
  have hle : u ≤ e := by
    rw [hu, ulpExp, log_mul_zpow hm0]
    omega
  obtain ⟨d, hd⟩ : ∃ d : ℕ, e = u + d := ⟨(e - u).toNat, by omega⟩
  have hq : (m : ℚ) * 2 ^ e / 2 ^ u = ((m * 2 ^ d : ℕ) : ℚ) := by
    rw [hd, zpow_add₀ two_ne_zero, zpow_natCast, mul_left_comm,
      mul_div_cancel_left₀ _ (zpow_ne_zero _ two_ne_zero), Nat.cast_mul, Nat.cast_pow,
      Nat.cast_ofNat]
  have hval : ((m * 2 ^ d : ℕ) : ℚ) * 2 ^ u = m * 2 ^ e := by
    conv_rhs => rw [hd, zpow_add₀ two_ne_zero, zpow_natCast]
    push_cast
    ring
  have hsmall : (m : ℚ) * 2 ^ e < 2 ^ 128 := by
    have hm' : (m : ℚ) < 2 ^ 24 := by exact_mod_cast hm
    have he2 : (2 : ℚ) ^ e ≤ 2 ^ (104 : ℤ) := zpow_le_zpow_right₀ one_le_two he'
    calc (m : ℚ) * 2 ^ e < 2 ^ 24 * 2 ^ (104 : ℤ) :=
          mul_lt_mul hm' he2 (zpow_pos two_pos e) (by norm_num)
      _ ≤ 2 ^ 128 := by norm_num
  simp only [round, hq, roundHalfEven_natCast, hval, not_le.2 hsmall, if_false]

/-- Integers up to `2 ^ 24` convert exactly. -/
theorem ofNat_of_le {n : ℕ} (hn : n ≤ 2 ^ 24) : ofNat n = fin n := by
  obtain hlt | rfl := hn.lt_or_eq
  · simpa using round_mul_zpow hlt (e := 0) (by norm_num) (by norm_num)
  · have h := round_mul_zpow (m := 1) (by norm_num) (e := 24) (by norm_num) (by norm_num)
    norm_num at h
    rw [ofNat]
    norm_num
    exact h

/-- Powers of two up to `2 ^ 104` are exact. -/
theorem round_two_pow {e : ℕ} (he : e ≤ 104) : round ((2 : ℚ) ^ e) = fin (2 ^ e) := by
  simpa using round_mul_zpow (m := 1) (by norm_num) (e := e) (by omega) (by omega)

/-! ## Operations on finite values -/

theorem div_fin_fin {a b : ℚ} (hb : b ≠ 0) : div (fin a) (fin b) = round (a / b) := by
  simp [div, hb]

@[simp] theorem ceil_fin_natCast (m : ℕ) : ceil (fin m) = fin m := by
  simp [ceil]

theorem toU32_fin_natCast {m : ℕ} (hm : m < 2 ^ 32) : toU32 (fin m) = m := by
  simp only [toU32, Nat.floor_natCast]
  omega

/-! ## Rounding above `2 ^ 24` -/

/-- Above `2 ^ 24` the spacing of binary32 values is `2 ^ (i + 1)`: `2 ^ (24 + i) + r` with
`r ≤ 2 ^ i` is at most half a spacing above `2 ^ (24 + i)` and rounds down to it (at `r = 2 ^ i`,
a tie, to the even significand `2 ^ 23`). -/
theorem round_two_pow_add {i r : ℕ} (hr : r ≤ 2 ^ i) (hi : i ≤ 100) :
    round ((2 ^ (24 + i) + r : ℕ) : ℚ) = fin (2 ^ (24 + i)) := by
  set q : ℚ := ((2 ^ (24 + i) + r : ℕ) : ℚ) with hq
  have hr' : (r : ℚ) ≤ 2 ^ i := by exact_mod_cast hr
  have hspace : (2 : ℚ) ^ (24 + i) = 2 ^ 23 * 2 ^ (i + 1) := by ring
  have hlog : Int.log 2 q = (24 + i : ℕ) := by
    apply log_eq_of_bounds
    · rw [zpow_natCast, hq]
      push_cast
      exact le_add_of_nonneg_right r.cast_nonneg
    · rw [← Nat.cast_succ, zpow_natCast, hq]
      push_cast
      rw [pow_succ (2 : ℚ) (24 + i), hspace, pow_succ (2 : ℚ) i]
      linarith [pow_pos (two_pos (α := ℚ)) i]
  have hu : ulpExp q = (i + 1 : ℕ) := by
    rw [ulpExp, hlog]
    omega
  have hx : q / 2 ^ (i + 1) = ((2 ^ 23 : ℕ) : ℚ) + r / 2 ^ (i + 1) := by
    rw [hq, Nat.cast_add, Nat.cast_pow, Nat.cast_pow, Nat.cast_ofNat, hspace, add_div,
      mul_div_cancel_right₀ _ (by positivity)]
  have hhalf : (r : ℚ) / 2 ^ (i + 1) ≤ 1 / 2 := by
    rw [div_le_iff₀ (by positivity), pow_succ]
    linarith
  have hsmall : ¬ (2 : ℚ) ^ 128 ≤ ((2 ^ 23 : ℕ) : ℚ) * 2 ^ (i + 1) := by
    rw [Nat.cast_pow, Nat.cast_ofNat, ← hspace]
    exact not_le.2 (pow_lt_pow_right₀ one_lt_two (by omega))
  unfold round
  dsimp only
  rw [hu, zpow_natCast, hx, roundHalfEven_add_of_le_half (by norm_num) (by positivity) hhalf,
    if_neg hsmall, Nat.cast_pow, Nat.cast_ofNat, ← hspace]

/-! ## Quotients -/

/-- In the normal range, up to `2 ^ 24`, a positive rational rounds to a finite value within half
a last place `2 ^ (⌊log₂ q⌋ - 23)` of it, and exactly where it is a power of two. -/
theorem round_near {q : ℚ} (hq : 0 < q) (hlog : -126 ≤ Int.log 2 q) (hq' : q ≤ 2 ^ 24) :
    ∃ r, round q = fin r ∧ 2 ^ 24 * |r - q| ≤ 2 ^ Int.log 2 q ∧
      (q = 2 ^ Int.log 2 q → r = q) := by
  set L := Int.log 2 q
  set u : ℚ := 2 ^ (L - 23)
  have hu : ulpExp q = L - 23 := by
    rw [ulpExp]
    omega
  have hu0 : 0 < u := zpow_pos two_pos _
  have hL : (2 : ℚ) ^ L = 2 ^ 23 * u := by
    rw [← zpow_natCast, ← zpow_add₀ two_ne_zero]
    congr 1
    push_cast
    ring
  have hlow : (2 : ℚ) ^ L ≤ q := Int.zpow_log_le_self one_lt_two hq
  have hnear : |(roundHalfEven (q / u) : ℚ) * u - q| ≤ u / 2 := by
    have h := abs_roundHalfEven_sub (div_nonneg hq.le hu0.le)
    calc |(roundHalfEven (q / u) : ℚ) * u - q| = |(roundHalfEven (q / u) : ℚ) - q / u| * u := by
          rw [← abs_of_pos hu0, ← abs_mul, abs_of_pos hu0, sub_mul, div_mul_cancel₀ _ hu0.ne']
      _ ≤ 1 / 2 * u := mul_le_mul_of_nonneg_right h hu0.le
      _ = u / 2 := by ring
  have hfin : ¬ (2 : ℚ) ^ 128 ≤ roundHalfEven (q / u) * u := by
    rw [abs_le] at hnear
    linarith
  refine ⟨(roundHalfEven (q / u) : ℚ) * u, ?_, ?_, fun hpow => ?_⟩
  · unfold round
    dsimp only
    rw [hu]
    exact if_neg hfin
  · rw [hL]
    linarith
  · have hx : q / u = ((2 ^ 23 : ℕ) : ℚ) := by
      rw [div_eq_iff hu0.ne', hpow, hL]
      push_cast
      ring
    rw [hx, roundHalfEven_natCast, hpow, hL]
    push_cast
    ring

/-- The rounded quotient of integers `n / d` with `n ≤ 2 ^ 24` is finite, and its ceiling times
`d` is at least `n`: rounding can take the quotient below itself, but never to an integer below
it. The ceiling is at most `2 ^ 24 + 1`. -/
theorem le_ceil_round_div {n d : ℕ} (hn : n ≤ 2 ^ 24) (hd : 0 < d) (hd' : d ≤ 2 ^ 100) :
    ∃ r, round ((n : ℚ) / d) = fin r ∧ n ≤ ⌈r⌉₊ * d ∧ ⌈r⌉₊ ≤ 2 ^ 24 + 1 := by
  obtain rfl | hn0 := Nat.eq_zero_or_pos n
  · exact ⟨0, by simp [round, roundHalfEven], by simp, by simp⟩
  set q : ℚ := (n : ℚ) / d with hq
  have hd0 : (0 : ℚ) < d := by exact_mod_cast hd
  have hn1 : (1 : ℚ) ≤ n := by exact_mod_cast hn0
  have hn' : (n : ℚ) ≤ 2 ^ 24 := by exact_mod_cast hn
  have hqd : q * d = n := div_mul_cancel₀ _ hd0.ne'
  have hq0 : 0 < q := by positivity
  have hlog : -126 ≤ Int.log 2 q := by
    have h : (2 : ℚ) ^ (-126 : ℤ) ≤ q := by
      rw [hq, le_div_iff₀ hd0]
      have : (d : ℚ) ≤ 2 ^ 100 := by exact_mod_cast hd'
      calc (2 : ℚ) ^ (-126 : ℤ) * d ≤ 2 ^ (-126 : ℤ) * 2 ^ 100 :=
            mul_le_mul_of_nonneg_left this (zpow_pos two_pos _).le
        _ ≤ 1 := by norm_num
        _ ≤ n := hn1
    exact (Int.zpow_le_iff_le_log one_lt_two hq0).1 (by exact_mod_cast h)
  have hqle : q ≤ 2 ^ 24 := le_trans (div_le_self n.cast_nonneg (by exact_mod_cast hd)) hn'
  obtain ⟨r, hr, hnear, hexact⟩ := round_near hq0 hlog hqle
  have hpow : (2 : ℚ) ^ Int.log 2 q ≤ q := Int.zpow_log_le_self one_lt_two hq0
  have hupper : ⌈r⌉₊ ≤ 2 ^ 24 + 1 := by
    have := le_abs_self (r - q)
    exact Nat.ceil_le.2 (by push_cast; linarith)
  refine ⟨r, hr, ?_, hupper⟩
  by_contra hlt
  -- `⌈r⌉ * d ≤ n - 1` puts `r` at least `1 / d` below `q`
  have hgap : 1 ≤ (q - r) * d := by
    have h₁ : ((⌈r⌉₊ * d + 1 : ℕ) : ℚ) ≤ n := by exact_mod_cast not_le.1 hlt
    have h₂ : r * d ≤ ⌈r⌉₊ * d := mul_le_mul_of_nonneg_right (Nat.le_ceil r) hd0.le
    push_cast at h₁
    rw [sub_mul, hqd]
    linarith
  have hne : r ≠ q := fun h => by rw [h, sub_self, zero_mul] at hgap; linarith
  have hlow : (2 : ℚ) ^ Int.log 2 q < q := lt_of_le_of_ne hpow (fun h => hne (hexact h.symm))
  have habs : q - r ≤ |r - q| := by
    rw [abs_sub_comm]
    exact le_abs_self _
  have : (2 : ℚ) ^ 24 < n := by
    calc (2 : ℚ) ^ 24 ≤ 2 ^ 24 * ((q - r) * d) := le_mul_of_one_le_right (by norm_num) hgap
      _ ≤ 2 ^ Int.log 2 q * d := by
          rw [← mul_assoc]
          exact mul_le_mul_of_nonneg_right
            (le_trans (mul_le_mul_of_nonneg_left habs (by norm_num)) hnear) hd0.le
      _ < q * d := mul_lt_mul_of_pos_right hlow hd0
      _ = n := hqd
  linarith

/-! ## Square roots -/

/-- `sqrt` is exact on even powers of two. -/
theorem sqrtRound_two_pow_two_mul (k : ℕ) : sqrtRound (2 ^ (2 * k)) = 2 ^ k := by
  have hlog : Int.log 2 ((2 : ℚ) ^ (2 * k)) = (2 * k : ℕ) := by
    have h := log_mul_zpow (m := 1) one_pos ((2 * k : ℕ) : ℤ)
    rwa [Nat.cast_one, one_mul, zpow_natCast, Nat.log_one_right, Nat.cast_zero, zero_add] at h
  have he : ((2 * k : ℕ) : ℤ) / 2 - 23 = (k : ℤ) - 23 := by omega
  -- the significand `2 ^ 23` is kept opaque: the kernel would unfold its cast
  obtain ⟨N, hN⟩ : ∃ N : ℕ, N = 2 ^ 23 := ⟨_, rfl⟩
  have ht : (2 : ℚ) ^ (2 * k) / 2 ^ (2 * ((k : ℤ) - 23)) = ((N ^ 2 : ℕ) : ℚ) := by
    rw [← zpow_natCast, ← zpow_sub₀ two_ne_zero,
      show ((2 * k : ℕ) : ℤ) - 2 * ((k : ℤ) - 23) = (23 * 2 : ℕ) by push_cast; ring, zpow_natCast,
      hN, Nat.cast_pow, Nat.cast_pow, Nat.cast_ofNat, pow_mul]
  have hhalf : ((N ^ 2 : ℕ) : ℚ) < (N + 1 / 2) ^ 2 := by
    push_cast
    rw [add_sq]
    linarith [N.cast_nonneg (α := ℚ)]
  unfold sqrtRound
  dsimp only
  rw [hlog, he, ht, Nat.floor_natCast, Nat.sqrt_eq', if_pos hhalf, hN, Nat.cast_pow,
    Nat.cast_ofNat, ← zpow_natCast, ← zpow_natCast, ← zpow_add₀ two_ne_zero]
  congr 1
  omega

/-- Counts between `1` and `2 ^ 25` have a rounded square root between `1` and `2 ^ 13`: the
significand is the integer square root of `c * 4 ^ k`, between `2 ^ 23` and `2 ^ 24`, scaled by
`2 ^ -k` with `11 ≤ k ≤ 23`. -/
theorem sqrtRound_bounds {c : ℕ} (h₁ : 1 ≤ c) (h₂ : c < 2 ^ 25) :
    1 ≤ sqrtRound c ∧ sqrtRound c ≤ 2 ^ 13 := by
  set L := Nat.log 2 c
  have hL : L < 25 := Nat.log_lt_of_lt_pow (by omega) (by omega)
  set k := 23 - L / 2
  have hc₁ : 2 ^ L ≤ c := Nat.pow_log_le_self 2 (by omega)
  have hc₂ : c < 2 ^ (L + 1) := Nat.lt_pow_succ_log_self one_lt_two c
  have he : (L : ℤ) / 2 - 23 = -(k : ℤ) := by omega
  have ht : (c : ℚ) / 2 ^ (2 * -(k : ℤ)) = ((c * 2 ^ (2 * k) : ℕ) : ℚ) := by
    rw [show 2 * -(k : ℤ) = -((2 * k : ℕ) : ℤ) by push_cast; ring, zpow_neg, zpow_natCast,
      div_inv_eq_mul, Nat.cast_mul, Nat.cast_pow, Nat.cast_ofNat]
  have hT₁ : (2 ^ 23) ^ 2 ≤ c * 2 ^ (2 * k) :=
    calc (2 ^ 23) ^ 2 = 2 ^ (2 * (L / 2) + 2 * k) := by rw [← pow_mul]; congr 1; omega
      _ ≤ 2 ^ L * 2 ^ (2 * k) := by
        rw [pow_add]
        exact Nat.mul_le_mul_right _ (Nat.pow_le_pow_right two_pos (by omega))
      _ ≤ c * 2 ^ (2 * k) := Nat.mul_le_mul_right _ hc₁
  have hT₂ : c * 2 ^ (2 * k) < (2 ^ 24) ^ 2 :=
    calc c * 2 ^ (2 * k) < 2 ^ (L + 1) * 2 ^ (2 * k) :=
          Nat.mul_lt_mul_of_pos_right hc₂ (by positivity)
      _ ≤ (2 ^ 24) ^ 2 := by
        rw [← pow_add, ← pow_mul]
        exact Nat.pow_le_pow_right two_pos (by omega)
  have hm₁ := Nat.le_sqrt'.2 hT₁
  have hm₂ := Nat.sqrt_lt'.2 hT₂
  have hscale : ∀ m : ℕ, 2 ^ 23 ≤ m → m ≤ 2 ^ 24 →
      1 ≤ (m : ℚ) * 2 ^ (-(k : ℤ)) ∧ (m : ℚ) * 2 ^ (-(k : ℤ)) ≤ 2 ^ 13 := by
    intro m hm hm'
    have hk₁ : 2 ^ k ≤ m := le_trans (Nat.pow_le_pow_right two_pos (by omega)) hm
    have hk₂ : m ≤ 2 ^ 13 * 2 ^ k := by
      rw [← pow_add]
      exact le_trans hm' (Nat.pow_le_pow_right two_pos (by omega))
    rw [zpow_neg, zpow_natCast, ← div_eq_mul_inv, le_div_iff₀ (by positivity),
      div_le_iff₀ (by positivity)]
    constructor
    · rw [one_mul]
      exact_mod_cast hk₁
    · exact_mod_cast hk₂
  -- the significand is the integer square root or the next integer
  have hdown := hscale _ hm₁ hm₂.le
  have hup := hscale (Nat.sqrt (c * 2 ^ (2 * k)) + 1) (by omega) (by omega)
  unfold sqrtRound
  dsimp only
  rw [Int.log_natCast, he, ht, Nat.floor_natCast]
  split_ifs <;> assumption

end F32

end CubeCl.Core
