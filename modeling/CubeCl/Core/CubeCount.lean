import CubeCl.Core.F32

/-!
# Element-wise cube counts

`calculate_cube_count_elemwise` sizes a launch with one unit per element: `c = max(1, ⌈n / p⌉)`
cubes of `p` units, laid out as `x = ⌈√c⌉` by `y = ⌈n / (x * p)⌉`, all in `f32`. Over exact
arithmetic `x * y * p ≥ n` always. In `f32` this holds for every count up to `2 ^ 24` and every
cube of up to `2 ^ 11` units (`cubeCountElemwise_covers`): the conversions and the product
`x * p` are exact there, and the ceilings absorb the rounding of the two quotients. Above
`2 ^ 24` the conversion of `n` itself rounds: `n = 2 ^ (24 + i) + r` with `r ≤ 2 ^ i` is sized as
`2 ^ (24 + i)`, and where that is a square number of cubes the grid has exactly `2 ^ (24 + i)`
units, `r` fewer than the elements (`cubeCountElemwise_misses`).
-/

namespace CubeCl.Core

set_option autoImplicit false

open F32

/-- `calculate_cube_count_elemwise(num_elems, cube_dim)`, returning the three counts of
`CubeCount::Static`. `CubeDim` and `CubeCount` are not in the source; the function reads
`cube_dim` only through `cube_dim.num_elems()`, which is `numElemsPerCube` here. -/
def calculateCubeCountElemwise (numElems numElemsPerCube : ℕ) : ℕ × ℕ × ℕ :=
  let cubeCounts := F32.max (fin 1) (F32.ceil (F32.div (ofNat numElems) (ofNat numElemsPerCube)))
  let cubeCountX := F32.ceil (F32.sqrt cubeCounts)
  let cubeCountY :=
    F32.ceil (F32.div (ofNat numElems) (F32.mul cubeCountX (ofNat numElemsPerCube)))
  (toU32 cubeCountX, toU32 cubeCountY, 1)

/-- Every element up to `2 ^ 24` gets a unit, for cubes of `1` to `2 ^ 11` units: the grid is
`x` by `y` by `1` cubes with `x ≤ 2 ^ 13` and `x * y * p ≥ n`. -/
theorem cubeCountElemwise_covers {n p : ℕ} (hn : n ≤ 2 ^ 24) (hp : 0 < p) (hp' : p ≤ 2 ^ 11) :
    ∃ x y, calculateCubeCountElemwise n p = (x, y, 1) ∧ x ≤ 2 ^ 13 ∧ n ≤ x * y * p := by
  have hp24 : p ≤ 2 ^ 24 := le_trans hp' (by norm_num)
  have hp0 : (p : ℚ) ≠ 0 := by positivity
  -- the cube count `c = max(1, ⌈n / p⌉)`
  obtain ⟨r, hr, -, hr'⟩ := le_ceil_round_div hn hp (by omega)
  obtain ⟨hs₁, hs₂⟩ := sqrtRound_bounds (le_max_left 1 ⌈r⌉₊) (max_lt (by norm_num) (by omega))
  -- the row length `x = ⌈√c⌉`
  set x := ⌈sqrtRound (Max.max 1 ⌈r⌉₊ : ℕ)⌉₊
  have hx₁ : 1 ≤ x := Nat.one_le_cast.1 (le_trans hs₁ (Nat.le_ceil _))
  have hx₂ : x ≤ 2 ^ 13 := Nat.ceil_le.2 (by exact_mod_cast hs₂)
  have hxp : x * p ≤ 2 ^ 24 :=
    le_trans (Nat.mul_le_mul hx₂ hp') (by norm_num)
  -- the column count `y = ⌈n / (x * p)⌉`
  obtain ⟨r', hr'', hcov, hy⟩ := le_ceil_round_div hn (d := x * p) (by positivity) (by omega)
  refine ⟨x, ⌈r'⌉₊, ?_, hx₂, by linarith [hcov, Nat.mul_comm ⌈r'⌉₊ (x * p)]⟩
  have hX : F32.ceil (F32.sqrt (F32.max (fin 1) (F32.ceil (fin r)))) = fin x := by
    simp only [F32.ceil, F32.sqrt, F32.max, ← Nat.cast_one (R := ℚ), ← Nat.cast_max]
  have hXp : F32.mul (fin x) (fin p) = fin ((x * p : ℕ) : ℚ) := by
    rw [← ofNat_of_le hxp, ofNat, Nat.cast_mul]
    rfl
  simp only [calculateCubeCountElemwise]
  rw [ofNat_of_le hn, ofNat_of_le hp24, div_fin_fin hp0, hr, hX, hXp,
    div_fin_fin (by positivity), hr'', F32.ceil, toU32_fin_natCast (by omega),
    toU32_fin_natCast (by omega)]

/-- A thousand elements in cubes of `256` units. -/
theorem cubeCountElemwise_covers_thousand :
    ∃ x y, calculateCubeCountElemwise 1000 256 = (x, y, 1) ∧ x ≤ 2 ^ 13 ∧ 1000 ≤ x * y * 256 :=
  cubeCountElemwise_covers (by decide) (by decide) (by decide)

/-- Above `2 ^ 24` elements are dropped: `n = 2 ^ (24 + i) + r` with `0 < r ≤ 2 ^ i` converts to
`2 ^ (24 + i)`, and for cubes of `2 ^ j` units with `24 + i = j + 2 * k` the grid is `2 ^ k` by
`2 ^ k` cubes, `2 ^ (24 + i)` units, fewer than `n`. -/
theorem cubeCountElemwise_misses {i r j k : ℕ} (hr : 0 < r) (hr' : r ≤ 2 ^ i) (hj : j ≤ 24)
    (hk : k ≤ 31) (hijk : 24 + i = j + 2 * k) :
    calculateCubeCountElemwise (2 ^ (24 + i) + r) (2 ^ j) = (2 ^ k, 2 ^ k, 1) ∧
      2 ^ k * 2 ^ k * 2 ^ j < 2 ^ (24 + i) + r := by
  have hn : ofNat (2 ^ (24 + i) + r) = fin (2 ^ (24 + i)) := round_two_pow_add hr' (by omega)
  have hp : ofNat (2 ^ j) = fin (2 ^ j) := by
    rw [ofNat_of_le (Nat.pow_le_pow_right two_pos hj), Nat.cast_pow, Nat.cast_ofNat]
  have hquot : ∀ a b : ℕ, b ≤ a → a - b ≤ 104 →
      F32.div (fin (2 ^ a)) (fin (2 ^ b)) = fin (2 ^ (a - b)) := fun a b hab h => by
    rw [div_fin_fin (by positivity), ← round_two_pow h]
    congr 1
    rw [div_eq_iff (by positivity), ← pow_add, Nat.sub_add_cancel hab]
  have hceil : ∀ e : ℕ, F32.ceil (fin (2 ^ e)) = fin (2 ^ e) := fun e => by
    have h := ceil_fin_natCast (2 ^ e)
    rwa [Nat.cast_pow, Nat.cast_ofNat] at h
  have hcount : F32.max (fin 1) (fin (2 ^ (2 * k))) = fin (2 ^ (2 * k)) := by
    simp only [F32.max, max_eq_right (one_le_pow₀ (one_le_two (α := ℚ)))]
  have hrow : F32.mul (fin (2 ^ k)) (fin (2 ^ j)) = fin (2 ^ (k + j)) := by
    rw [F32.mul, ← pow_add, round_two_pow (by omega)]
  have hu32 : toU32 (fin (2 ^ k)) = 2 ^ k := by
    have h := toU32_fin_natCast (m := 2 ^ k)
      (lt_of_le_of_lt (Nat.pow_le_pow_right two_pos hk) (by norm_num))
    rwa [Nat.cast_pow, Nat.cast_ofNat] at h
  refine ⟨?_, ?_⟩
  · simp only [calculateCubeCountElemwise]
    rw [hn, hp, hquot _ _ (by omega) (by omega), show 24 + i - j = 2 * k by omega, hceil, hcount,
      F32.sqrt, sqrtRound_two_pow_two_mul, hceil, hrow, hquot _ _ (by omega) (by omega),
      show 24 + i - (k + j) = k by omega, hceil, hu32]
  · rw [← pow_add, ← pow_add, show k + k + j = 24 + i by omega]
    omega

/-- The smallest miss: `2 ^ 24 + 1` elements in cubes of `256` units get `256 × 256` cubes. -/
theorem cubeCountElemwise_misses_two_pow_24_succ :
    calculateCubeCountElemwise (2 ^ 24 + 1) 256 = (256, 256, 1) ∧
      256 * 256 * 256 < 2 ^ 24 + 1 :=
  cubeCountElemwise_misses (i := 0) (r := 1) (j := 8) (k := 8) (by decide) (by decide) (by decide)
    (by decide) (by decide)

end CubeCl.Core
