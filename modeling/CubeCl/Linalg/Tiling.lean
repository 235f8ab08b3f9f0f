import Mathlib.Data.Nat.Defs
import Mathlib.Algebra.Order.Ring.Nat

/-!
# Stage tiling and the host arithmetic of the matmul loaders

What the global loading strategies (`matmul/components/global/load/strategy`) read from
their configuration, and the `u32` arithmetic they do at kernel expansion. That
arithmetic runs on the host, where a zero divisor, an underflow or an overflow past
`u32::MAX` panics (in a debug build): it returns `none` here (`checkedDiv`, `checkedRem`,
`checkedSub`, `checkedMul`, `checkedAdd`). The products of `TilingDimensions`, which is not
in the source, are exact; the theorems that read them bound them.

Arithmetic on runtime values runs on the device, where `u32` arithmetic wraps:
`wrappingAdd`, `wrappingSub` and `wrappingMul`, and `cubecl-std`'s `div_ceil` built from them.
-/

namespace CubeCl.Linalg

set_option autoImplicit false

/-- `InputIdent` (`matmul/components/config.rs`). -/
inductive InputIdent
  | lhs
  | rhs
deriving DecidableEq, Repr

/-- `Ident` (`matmul/components/config.rs`). -/
inductive Ident
  | lhs
  | rhs
  | out
deriving DecidableEq, Repr

/-- Modelled from the spec: `TilingDimensions` is not in the source. A stage buffer is a grid
of `tile_count_row * tile_count_col` tiles of `tile_size` elements each. -/
structure TilingDimensions where
  tileSize : Nat
  tileCountRow : Nat
  tileCountCol : Nat
deriving DecidableEq, Repr

/-- `TilingDimensions::tile_count`. -/
def TilingDimensions.tileCount (t : TilingDimensions) : Nat := t.tileCountRow * t.tileCountCol

/-- `TilingDimensions::total_size`: the elements of one buffer. -/
def TilingDimensions.totalSize (t : TilingDimensions) : Nat := t.tileCount * t.tileSize

/-- Modelled from the spec: `GlobalConfig` is not in the source. What a loading strategy reads
from it for its input: `tiling_dimensions`, `global_line_size`, `plane_dim`, `num_planes` and
`num_stages`. -/
structure LoadConfig where
  tiling : TilingDimensions
  lineSize : Nat
  planeDim : Nat
  numPlanes : Nat
  numStages : Nat
deriving DecidableEq, Repr

/-- `a / b` in `u32`; `none` where `b` is zero. -/
def checkedDiv (a b : Nat) : Option Nat := if b = 0 then none else some (a / b)

/-- `a % b` in `u32`; `none` where `b` is zero. -/
def checkedRem (a b : Nat) : Option Nat := if b = 0 then none else some (a % b)

/-- `a - b` in `u32`; `none` where it underflows. -/
def checkedSub (a b : Nat) : Option Nat := if b ≤ a then some (a - b) else none

/-- `a * b` in `u32`; `none` where it overflows. -/
def checkedMul (a b : Nat) : Option Nat := if a * b < 2 ^ 32 then some (a * b) else none

/-- `a + b` in `u32`; `none` where it overflows. -/
def checkedAdd (a b : Nat) : Option Nat := if a + b < 2 ^ 32 then some (a + b) else none

/-- `u32::div_ceil`; `none` where `b` is zero. -/
def divCeil (a b : Nat) : Option Nat :=
  if b = 0 then none else some (a / b + if a % b = 0 then 0 else 1)

@[simp] theorem checkedDiv_eq_some {a b c : Nat} : checkedDiv a b = some c ↔ 0 < b ∧ c = a / b := by
  unfold checkedDiv; split <;> simp [*, Nat.pos_iff_ne_zero, eq_comm]

@[simp] theorem checkedSub_eq_some {a b c : Nat} : checkedSub a b = some c ↔ b ≤ a ∧ c = a - b := by
  unfold checkedSub; split <;> simp [*, eq_comm]

@[simp] theorem checkedMul_eq_some {a b c : Nat} :
    checkedMul a b = some c ↔ a * b < 2 ^ 32 ∧ c = a * b := by
  unfold checkedMul
  split <;> simp only [Option.some.injEq, reduceCtorEq, false_iff, not_and, eq_comm] <;> omega

@[simp] theorem checkedAdd_eq_some {a b c : Nat} :
    checkedAdd a b = some c ↔ a + b < 2 ^ 32 ∧ c = a + b := by
  unfold checkedAdd
  split <;> simp only [Option.some.injEq, reduceCtorEq, false_iff, not_and, eq_comm] <;> omega

theorem checkedMul_of_lt {a b : Nat} (h : a * b < 2 ^ 32) : checkedMul a b = some (a * b) :=
  checkedMul_eq_some.2 ⟨h, rfl⟩

theorem checkedAdd_of_lt {a b : Nat} (h : a + b < 2 ^ 32) : checkedAdd a b = some (a + b) :=
  checkedAdd_eq_some.2 ⟨h, rfl⟩

theorem checkedDiv_of_pos {a b : Nat} (hb : 0 < b) : checkedDiv a b = some (a / b) :=
  checkedDiv_eq_some.2 ⟨hb, rfl⟩

theorem checkedSub_of_le {a b : Nat} (h : b ≤ a) : checkedSub a b = some (a - b) :=
  checkedSub_eq_some.2 ⟨h, rfl⟩

@[simp] theorem checkedSub_eq_none {a b : Nat} : checkedSub a b = none ↔ a < b := by
  unfold checkedSub; split <;> simp_all

/-- The value of `div_ceil` on a nonzero divisor: the least multiple of `b` at least `a`,
over `b`. -/
theorem divCeil_spec {a b : Nat} (hb : 0 < b) :
    ∃ q, divCeil a b = some q ∧ a ≤ q * b ∧ q * b < a + b := by
  refine ⟨_, if_neg (Nat.pos_iff_ne_zero.1 hb), ?_⟩
  have hdiv := Nat.div_add_mod' a b
  have hmod := Nat.mod_lt a hb
  split
  · rw [Nat.add_zero]; omega
  · rw [Nat.add_mul, Nat.one_mul]; omega

theorem divCeil_eq_some {a b q : Nat} : divCeil a b = some q ↔
    0 < b ∧ a ≤ q * b ∧ q * b < a + b := by
  by_cases hb : b = 0
  · simp [divCeil, hb]
  obtain ⟨q', hq', h₁, h₂⟩ := divCeil_spec (a := a) (Nat.pos_of_ne_zero hb)
  rw [hq', Option.some_inj]
  constructor
  · rintro rfl
    exact ⟨Nat.pos_of_ne_zero hb, h₁, h₂⟩
  · rintro ⟨-, h₁', h₂'⟩
    have := Nat.lt_of_mul_lt_mul_right (a := b) (show q' * b < (q + 1) * b by rw [Nat.succ_mul]; omega)
    have := Nat.lt_of_mul_lt_mul_right (a := b) (show q * b < (q' + 1) * b by rw [Nat.succ_mul]; omega)
    omega

/-- `(a + b - 1) / b` is the least multiple of `b` at least `a`, over `b`. -/
theorem ceil_bounds {a b : Nat} (hb : 0 < b) :
    a ≤ b * ((a + b - 1) / b) ∧ b * ((a + b - 1) / b) < a + b := by
  have := Nat.div_add_mod (a + b - 1) b
  have := Nat.mod_lt (a + b - 1) hb
  omega

/-- Two indices in mixed radix `n` are equal only digit by digit. -/
theorem mixedRadix_inj {n a a' b b' : Nat} (ha : a < n) (ha' : a' < n)
    (h : a + b * n = a' + b' * n) : a = a' ∧ b = b' := by
  have hn : 0 < n := Nat.lt_of_le_of_lt (Nat.zero_le _) ha
  have hmod := congrArg (· % n) h
  have hdiv := congrArg (· / n) h
  simp only [Nat.add_mul_mod_self_right, Nat.mod_eq_of_lt ha, Nat.mod_eq_of_lt ha'] at hmod
  simp only [Nat.add_mul_div_right _ _ hn, Nat.div_eq_of_lt ha, Nat.div_eq_of_lt ha',
    Nat.zero_add] at hdiv
  exact ⟨hmod, hdiv⟩

end CubeCl.Linalg

namespace CubeCl

/-! ## Device arithmetic -/

/-- `a + b` in `u32` on the device, where it wraps. -/
def wrappingAdd (a b : Nat) : Nat := (a + b) % 2 ^ 32

/-- `a - b` in `u32` on the device, where it wraps. -/
def wrappingSub (a b : Nat) : Nat := (a + (2 ^ 32 - b % 2 ^ 32)) % 2 ^ 32

/-- `a * b` in `u32` on the device, where it wraps. -/
def wrappingMul (a b : Nat) : Nat := a * b % 2 ^ 32

theorem wrappingAdd_of_lt {a b : Nat} (h : a + b < 2 ^ 32) : wrappingAdd a b = a + b :=
  Nat.mod_eq_of_lt h

theorem wrappingMul_of_lt {a b : Nat} (h : a * b < 2 ^ 32) : wrappingMul a b = a * b :=
  Nat.mod_eq_of_lt h

theorem wrappingSub_of_le {a b : Nat} (ha : a < 2 ^ 32) (h : b ≤ a) : wrappingSub a b = a - b := by
  rw [wrappingSub, Nat.mod_eq_of_lt (by omega : b < 2 ^ 32)]
  rw [show a + (2 ^ 32 - b) = a - b + 2 ^ 32 by omega, Nat.add_mod_right, Nat.mod_eq_of_lt (by omega)]

/-- Below its subtrahend, a `u32` subtraction wraps to `2 ^ 32` less the difference. -/
theorem wrappingSub_of_lt {a b : Nat} (hb : b < 2 ^ 32) (h : a < b) :
    wrappingSub a b = 2 ^ 32 - (b - a) := by
  rw [wrappingSub, Nat.mod_eq_of_lt hb, Nat.mod_eq_of_lt (by omega)]
  omega

namespace Std

/-- `div_ceil` (`cubecl-std`): `(a + b - 1) / b`, in `u32` on the device. -/
def divCeil (a b : Nat) : Nat := wrappingSub (wrappingAdd a b) 1 / b

/-- Where `a + b - 1` fits in `u32`, `div_ceil` is the ceiling of `a / b`, even when `a + b`
itself wraps to `0`. -/
theorem divCeil_eq {a b : Nat} (hb : 0 < b) (h : a + b - 1 < 2 ^ 32) :
    divCeil a b = (a + b - 1) / b := by
  have hsub : wrappingSub (wrappingAdd a b) 1 = a + b - 1 := by
    by_cases hab : a + b < 2 ^ 32
    · rw [wrappingAdd_of_lt hab, wrappingSub_of_le hab (by omega)]
    · rw [wrappingAdd, show a + b = 2 ^ 32 by omega, Nat.mod_self,
        wrappingSub_of_lt (by decide) (by decide)]
  rw [divCeil, hsub]

end Std

end CubeCl
