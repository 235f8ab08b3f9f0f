import CubeCl.Linalg.Tiling
import Mathlib.Algebra.BigOperators.Group.Finset
import Mathlib.Algebra.Ring.Defs

/-!
# The Cmma matmul computes the matrix product (`kernels/matmul/algorithm/cmma.rs`,
`components/batch/one_to_one.rs`, `components/global/homogeneous.rs`,
`components/stage/row_accumulate.rs`, `components/tile/base.rs`)

The Cmma algorithm launches a grid of `ceil(m / M) × ceil(n / N) × batches` cubes of
`(32, NUM_M, 1)` units, for a stage of `M × N` outputs (`M = NUM_M * TM`, `N = NUM_N * TN`);
`cube_count` computes it on the host, in checked `u32` after `as u32` casts. `one_to_one` gives
cube `(x, y, z)` the stage at rows `x * M` and columns `y * N` of batch `z`, products in
wrapping `u32` on the device, and the `k` range `(0, k)`. The `homogeneous` global matmul runs `(k + K - 1) / K` loops
(`K = NUM_K * TK`), in `u32` on the device: it fills the two stages from the views of the
inputs, runs the stage matmul and moves the views `K` further along `k`. The `row_accumulate`
stage matmul gives plane `UNIT_POS_Y` the row of tiles of that index: for each of the `NUM_K`
tiles along `k`, it adds the product of its lhs tile and each rhs tile of the column to the
`NUM_N` accumulators. `acc_read` then writes accumulator `a` of plane `p` to tile `(p, a)` of
the stage of the output.

The tile matmul, the loaders, the stage readers and the unloader are not in the source; they
are modelled from the documentation of `tile::Matmul`: a tile matmul adds the product of its
tiles to the accumulator, and the tiles it is given are padded with zeros past the input.
Elements are one exact semiring here, where the kernel casts between `f16`, `f32` and the
input type.

Where `m + M`, `n + N`, the batches and `k + K - 1` fit in `u32` and the sizes are positive,
`cube_count` does not panic, no offset wraps, every element of the output is written by
exactly one unit of work of the grid, and what it writes is the sum over `k` of the
products of the lhs row and the rhs column (`matmul_computes_product`): the kernel refines the
batched matrix product.
-/

namespace CubeCl.Linalg

set_option autoImplicit false

open Finset

namespace Cmma

variable {R : Type} [NonUnitalNonAssocSemiring R]

/-- A matrix, or a tile of one, indexed by row and column. -/
abbrev Tile (R : Type) := Nat → Nat → R

/-- Modelled from the spec: `StageSize` (`S4x4x2` for Cmma) and the tile matmul's `M`, `N` and
`K` (`16` each for `Accelerated16x16x16`) are not in the source; the tile sizes and the number
of tiles of a stage along each dimension. -/
structure StageShape where
  tileM : Nat
  tileN : Nat
  tileK : Nat
  numM : Nat
  numN : Nat
  numK : Nat
deriving DecidableEq, Repr

/-- `row_accumulate::Matmul::M = SS::NUM_M * TMM::M`. -/
def StageShape.stageM (s : StageShape) : Nat := s.numM * s.tileM

/-- `row_accumulate::Matmul::N = SS::NUM_N * TMM::N`. -/
def StageShape.stageN (s : StageShape) : Nat := s.numN * s.tileN

/-- `row_accumulate::Matmul::K = SS::NUM_K * TMM::K`. -/
def StageShape.stageK (s : StageShape) : Nat := s.numK * s.tileK

/-- Every size of the shape is positive. -/
def StageShape.Positive (s : StageShape) : Prop :=
  0 < s.tileM ∧ 0 < s.tileN ∧ 0 < s.tileK ∧ 0 < s.numM ∧ 0 < s.numN ∧ 0 < s.numK

instance (s : StageShape) : Decidable s.Positive := inferInstanceAs (Decidable (_ ∧ _))

/-- Modelled from the spec: `MatmulProblem` is not in the source; the sizes the Cmma kernel
reads from it. -/
structure MatmulProblem where
  m : Nat
  n : Nat
  k : Nat
  numBatches : Nat
deriving DecidableEq, Repr

/-! ## The tile and stage levels -/

/-- Modelled from the spec: the tile matmul is not in the source. `tile::Matmul::execute` adds
the product of an `(M, K)` and a `(K, N)` tile to the accumulator, as the trait's documentation
says. -/
def tileExecute (tileK : Nat) (lhs rhs acc : Tile R) : Tile R :=
  fun i j => acc i j + ∑ l ∈ range tileK, lhs i l * rhs l j

/-- Modelled from the spec: the stage readers are not in the source. `read_tile` gives tile
`(row, col)` of a stage of `tileRows × tileCols` tiles: the lhs reader the tile `(plane,
buffer)`, the rhs reader the tile `(buffer, accumulator)`. -/
def readTile (tileRows tileCols : Nat) (stage : Tile R) (row col : Nat) : Tile R :=
  fun i j => stage (row * tileRows + i) (col * tileCols + j)

/-- Modelled from the spec: the tile matmul's `init_output` is not in the source; the
accumulators start at zero. -/
def accInitZeros : Nat → Tile R := fun _ _ _ => 0

/-- `row_accumulate::Matmul::execute` for the plane at `UNIT_POS_Y = planeId`: for each tile
along `k`, the lhs tile of the plane's row, then for each of the `acc.len() = NUM_N`
accumulators the rhs tile of its column and one tile matmul. -/
def RowAccumulate.execute (s : StageShape) (lhs rhs : Tile R) (planeId : Nat)
    (acc : Nat → Tile R) : Nat → Tile R :=
  (List.range s.numK).foldl (fun acc bufferIter =>
    let tileLhs := readTile s.tileM s.tileK lhs planeId bufferIter
    (List.range s.numN).foldl (fun acc accumulatorIter =>
      let tileRhs := readTile s.tileK s.tileN rhs bufferIter accumulatorIter
      Function.update acc accumulatorIter
        (tileExecute s.tileK tileLhs tileRhs (acc accumulatorIter))) acc) acc

/-- `check_num_planes`, the check of `row_accumulate`'s `check_config`: the planes are the
stage's tiles along `m`; `none` where its assertion panics. -/
def RowAccumulate.checkNumPlanes (expectedNumPlanes actualNumPlanes : Nat) : Option Unit :=
  if expectedNumPlanes = actualNumPlanes then some () else none

/-! ## The global and batch levels -/

/-- Modelled from the spec: a matrix read past its end is zero, as the tile matmul requires of
its inputs. -/
def padded (rows cols : Nat) (tensor : Tile R) : Tile R :=
  fun r c => if r < rows ∧ c < cols then tensor r c else 0

/-- Modelled from the spec: the loaders are not in the source. `fill_stage` copies into the
stage the window of the input at the view's offsets, padded with zeros. -/
def window (rows cols : Nat) (tensor : Tile R) (rowOffset colOffset : Nat) : Tile R :=
  fun i j => padded rows cols tensor (rowOffset + i) (colOffset + j)

/-- The loop of `homogeneous::Matmul::execute`, by the number of loops left: fill both stages
from the views (the lhs view at `(xOffset, kOffset)`, the rhs view at `(kOffset, yOffset)`), run
the stage matmul, and advance both views by `k_step`. -/
def Homogeneous.loop (s : StageShape) (m n k : Nat) (lhs rhs : Tile R)
    (xOffset yOffset planeId kStep : Nat) : Nat → (Nat → Tile R) → Nat → Nat → Tile R
  | 0, acc, _ => acc
  | numLoops + 1, acc, kOffset =>
    let lhsStage := window m k lhs xOffset kOffset
    let rhsStage := window k n rhs kOffset yOffset
    Homogeneous.loop s m n k lhs rhs xOffset yOffset planeId kStep numLoops
      (RowAccumulate.execute s lhsStage rhsStage planeId acc) (kOffset + kStep)

/-- `homogeneous::Matmul::execute` for one plane: `num_loops = (range + k_step - 1) / k_step`
loops, computed in `u32` on the device, from zero accumulators and the views at the start of
the `k` range. -/
def Homogeneous.execute (s : StageShape) (m n k : Nat) (lhs rhs : Tile R)
    (xOffset yOffset : Nat) (kRange : Nat × Nat) (planeId : Nat) : Nat → Tile R :=
  let kStep := s.stageK
  let range := wrappingSub kRange.2 kRange.1
  let numLoops := wrappingSub (wrappingAdd range kStep) 1 / kStep
  Homogeneous.loop s m n k lhs rhs xOffset yOffset planeId kStep numLoops accInitZeros kRange.1

/-- `one_to_one::Matmul::execute` for the plane `planeId` of cube `(cubePosX, cubePosY,
cubePosZ)`: the stage at rows `CUBE_POS_X * M` and columns `CUBE_POS_Y * N` of batch
`CUBE_POS_Z`, over the `k` range `(0, k)`; the offsets are `u32` products on the device. -/
def OneToOne.execute (s : StageShape) (problem : MatmulProblem) (lhs rhs : Nat → Tile R)
    (cubePosX cubePosY cubePosZ planeId : Nat) : Nat → Tile R :=
  let xOffset := wrappingMul cubePosX s.stageM
  let yOffset := wrappingMul cubePosY s.stageN
  let nthBatch := cubePosZ
  let kRange := (0, problem.k)
  Homogeneous.execute s problem.m problem.n problem.k (lhs nthBatch) (rhs nthBatch) xOffset yOffset
    kRange planeId

/-- `Cmma::cube_count`, with the stage of shape `s`: enough cubes to cover `m` and `n`, and one
per batch. It runs on the host: `as u32` truncates the sizes, and the `u32` arithmetic panics
(`none`) where it overflows, underflows or divides by zero. -/
def cubeCount (s : StageShape) (problem : MatmulProblem) : Option (Nat × Nat × Nat) := do
  let mStage ← checkedMul s.numM s.tileM
  let nStage ← checkedMul s.numN s.tileN
  let cubesNeededM ← checkedDiv (← checkedSub (← checkedAdd (problem.m % 2 ^ 32) mStage) 1) mStage
  let cubesNeededN ← checkedDiv (← checkedSub (← checkedAdd (problem.n % 2 ^ 32) nStage) 1) nStage
  some (cubesNeededM, cubesNeededN, problem.numBatches % 2 ^ 32)

/-- `Cmma::cube_dim`: a plane of `PLANE_DIM = 32` units per row of tiles. -/
def cubeDim (s : StageShape) : Nat × Nat × Nat := (32, s.numM, 1)

/-- `S4x4x2` with `Accelerated16x16x16`, the Cmma algorithm's stage. -/
def cmmaShape : StageShape := ⟨16, 16, 16, 4, 4, 2⟩

/-! ## The kernel's writes -/

/-- A unit of work of the launch: element `(i, j)` of accumulator `accumulator` of plane `plane`
in cube `(cubeX, cubeY, cubeZ)`. -/
structure Writer where
  cubeX : Nat
  cubeY : Nat
  cubeZ : Nat
  plane : Nat
  accumulator : Nat
  i : Nat
  j : Nat
deriving DecidableEq, Repr

/-- The output row a writer writes: row `plane * TM + i` of the cube's stage. -/
def Writer.row (s : StageShape) (w : Writer) : Nat := w.cubeX * s.stageM + (w.plane * s.tileM + w.i)

/-- The output column a writer writes: column `accumulator * TN + j` of the cube's stage. -/
def Writer.col (s : StageShape) (w : Writer) : Nat :=
  w.cubeY * s.stageN + (w.accumulator * s.tileN + w.j)

/-- What a writer writes: the element of its accumulator after the plane's global matmul. -/
def Writer.value (s : StageShape) (problem : MatmulProblem) (lhs rhs : Nat → Tile R)
    (w : Writer) : R :=
  OneToOne.execute s problem lhs rhs w.cubeX w.cubeY w.cubeZ w.plane w.accumulator w.i w.j

/-- Modelled from the spec: the unloader is not in the source. A writer of the launched grid (a
cube of `cube_count`, a plane of `cube_dim`, an accumulator and an element of its tile) writes
where its element lies in the output. Where `cube_count` panics, nothing is launched. -/
def Writer.Writes (s : StageShape) (problem : MatmulProblem) (w : Writer) : Prop :=
  ∃ count, cubeCount s problem = some count ∧ w.cubeX < count.1 ∧ w.cubeY < count.2.1 ∧
    w.cubeZ < count.2.2 ∧ w.plane < (cubeDim s).2.1 ∧ w.accumulator < s.numN ∧
    w.i < s.tileM ∧ w.j < s.tileN ∧ w.row s < problem.m ∧ w.col s < problem.n

/-! ## The stage matmul -/

/-- A run of `Function.update`s at the indices `0 .. n`, each from the value before. -/
theorem foldl_update_range {β : Type} (n : Nat) (f : Nat → β → β) (acc : Nat → β) :
    (List.range n).foldl (fun acc a => Function.update acc a (f a (acc a))) acc =
      fun a => if a < n then f a (acc a) else acc a := by
  induction n generalizing acc with
  | zero => simp
  | succ n ih =>
    rw [List.range_succ, List.foldl_append, ih]
    funext a
    by_cases h : a = n
    · simp [h]
    · simp only [List.foldl_cons, List.foldl_nil, Function.update_noteq h]
      split <;> split <;> first | rfl | omega

/-- A `range (c * n)` sum is the sum of its `c` windows of `n`. -/
theorem sum_range_mul_windows {M : Type} [AddCommMonoid M] (f : Nat → M) (c n : Nat) :
    ∑ q ∈ range (c * n), f q = ∑ b ∈ range c, ∑ l ∈ range n, f (b * n + l) := by
  induction c with
  | zero => simp
  | succ c ih => rw [Nat.succ_mul, sum_range_add, ih, sum_range_succ]

/-- **The stage matmul.** Plane `p` adds to accumulator `a < NUM_N` the product of its row of
lhs tiles and the column `a` of rhs tiles, over the `K` of the stage; the other accumulators
are left as they were. -/
theorem rowAccumulate_execute (s : StageShape) (lhs rhs : Tile R) (p : Nat) (acc : Nat → Tile R)
    (a : Nat) : RowAccumulate.execute s lhs rhs p acc a =
      if a < s.numN then fun i j => acc a i j +
        ∑ q ∈ range s.stageK, lhs (p * s.tileM + i) q * rhs q (a * s.tileN + j)
      else acc a := by
  have hstep : ∀ (nb : Nat) (acc : Nat → Tile R), (List.range nb).foldl (fun acc bufferIter =>
      (List.range s.numN).foldl (fun acc accumulatorIter =>
        Function.update acc accumulatorIter (tileExecute s.tileK
          (readTile s.tileM s.tileK lhs p bufferIter)
          (readTile s.tileK s.tileN rhs bufferIter accumulatorIter) (acc accumulatorIter))) acc)
        acc =
      fun a => if a < s.numN then fun i j => acc a i j + ∑ b ∈ range nb, ∑ l ∈ range s.tileK,
        lhs (p * s.tileM + i) (b * s.tileK + l) * rhs (b * s.tileK + l) (a * s.tileN + j)
        else acc a := by
    intro nb
    induction nb with
    | zero => intro acc; funext a; split <;> simp
    | succ nb ih =>
      intro acc
      rw [List.range_succ, List.foldl_append, ih, List.foldl_cons, List.foldl_nil,
        foldl_update_range]
      funext a
      split
      · funext i j
        simp only [tileExecute, readTile, sum_range_succ, add_assoc]
      · rfl
  simp only [RowAccumulate.execute, hstep, StageShape.stageK, sum_range_mul_windows]

/-! ## The global matmul -/

section Global

variable (s : StageShape) (m n k : Nat) (lhs rhs : Tile R) (xOffset yOffset p : Nat)

/-- The products a plane's accumulator `a` sums, at `k` index `r`: element `(i, j)` of tile
`(p, a)` of the cube's stage, read from the padded inputs. -/
def product (a i j r : Nat) : R :=
  padded m k lhs (xOffset + (p * s.tileM + i)) r * padded k n rhs r (yOffset + (a * s.tileN + j))

/-- After `L` loops from the `k` offset `k₀`, accumulator `a < NUM_N` has added the products at
`k₀ .. k₀ + L * K`; the others are as they were. -/
theorem homogeneous_loop (L : Nat) (acc : Nat → Tile R) (k₀ a : Nat) :
    Homogeneous.loop s m n k lhs rhs xOffset yOffset p s.stageK L acc k₀ a =
      if a < s.numN then fun i j => acc a i j +
        ∑ r ∈ range (L * s.stageK), product s m n k lhs rhs xOffset yOffset p a i j (k₀ + r)
      else acc a := by
  induction L generalizing acc k₀ with
  | zero => split <;> simp [Homogeneous.loop]
  | succ L ih =>
    rw [Homogeneous.loop, ih, rowAccumulate_execute]
    split
    · funext i j
      simp only [if_pos ‹a < s.numN›, Nat.succ_mul, Nat.add_comm (L * s.stageK), sum_range_add,
        add_assoc, window, product]
    · simp only [if_neg ‹¬a < s.numN›]

/-- The padded products past the end of `k` are zero, so a sum of `N` of them is the sum of the
products of the inputs' entries up to `N` or `k`, whichever comes first. -/
theorem sum_product_eq (a i j : Nat) (hrow : xOffset + (p * s.tileM + i) < m)
    (hcol : yOffset + (a * s.tileN + j) < n) (N : Nat) :
    ∑ r ∈ range N, product s m n k lhs rhs xOffset yOffset p a i j r =
      ∑ r ∈ range (min N k),
        lhs (xOffset + (p * s.tileM + i)) r * rhs r (yOffset + (a * s.tileN + j)) := by
  have hin : ∀ r < min N k, product s m n k lhs rhs xOffset yOffset p a i j r =
      lhs (xOffset + (p * s.tileM + i)) r * rhs r (yOffset + (a * s.tileN + j)) := fun r hr => by
    simp [product, padded, hrow, hcol, (lt_min_iff.1 hr).2]
  obtain ⟨e, he⟩ := Nat.exists_eq_add_of_le (min_le_left N k)
  have hpast : ∑ r ∈ range e, product s m n k lhs rhs xOffset yOffset p a i j (min N k + r) = 0 :=
    sum_eq_zero fun r hr => by
      have : k ≤ min N k + r := by have := mem_range.1 hr; omega
      simp [product, padded, Nat.not_lt.2 this]
  rw [show range N = range (min N k + e) from congrArg range he, sum_range_add,
    sum_congr rfl fun r hr => hin r (mem_range.1 hr), hpast, add_zero]

/-- Over the `k` range `(0, k)` of a `u32` length, accumulator `a < NUM_N` of plane `p` ends as the
sum of the products of the inputs' entries over the `num_loops * K` first indices of `k`, or
over all of `k` if the loops reach past it. -/
theorem homogeneous_execute_eq (hk : k < 2 ^ 32) (a i j : Nat) (ha : a < s.numN)
    (hrow : xOffset + (p * s.tileM + i) < m) (hcol : yOffset + (a * s.tileN + j) < n) :
    Homogeneous.execute s m n k lhs rhs xOffset yOffset (0, k) p a i j =
      ∑ r ∈ range (min (wrappingSub (wrappingAdd k s.stageK) 1 / s.stageK * s.stageK) k),
        lhs (xOffset + (p * s.tileM + i)) r * rhs r (yOffset + (a * s.tileN + j)) := by
  simp only [Homogeneous.execute, wrappingSub_of_le hk (Nat.zero_le k), Nat.sub_zero,
    homogeneous_loop, if_pos ha, accInitZeros, zero_add]
  exact sum_product_eq s m n k lhs rhs xOffset yOffset p a i j hrow hcol _

end Global

/-- **The global matmul.** Where `k + K - 1` fits in `u32`, accumulator `a < NUM_N` of plane `p`
ends as the sum over `k` of the products of the inputs' entries, at every element of its tile
inside the output. -/
theorem homogeneous_execute (s : StageShape) (hK : 0 < s.stageK) (m n k : Nat) (lhs rhs : Tile R)
    (xOffset yOffset p a i j : Nat) (hk : k + s.stageK - 1 < 2 ^ 32) (ha : a < s.numN)
    (hrow : xOffset + (p * s.tileM + i) < m) (hcol : yOffset + (a * s.tileN + j) < n) :
    Homogeneous.execute s m n k lhs rhs xOffset yOffset (0, k) p a i j =
      ∑ r ∈ range k, lhs (xOffset + (p * s.tileM + i)) r * rhs r (yOffset + (a * s.tileN + j)) := by
  have hloops : wrappingSub (wrappingAdd k s.stageK) 1 / s.stageK = (k + s.stageK - 1) / s.stageK :=
    Std.divCeil_eq hK hk
  rw [homogeneous_execute_eq s m n k lhs rhs xOffset yOffset p (by omega) a i j ha hrow hcol,
    hloops, Nat.mul_comm, min_eq_right (ceil_bounds hK).1]

/-- **Too few loops at the top of `u32`.** Where `k + K - 1` passes `2 ^ 32`, the device's
`num_loops` wraps: the loops cover fewer than `k` indices of the `k` range, and accumulator
`a < NUM_N` ends as the sum of the products over those indices alone. -/
theorem matmul_loop_count_wraps (s : StageShape) (hK : 0 < s.stageK) (hK32 : s.stageK ≤ 2 ^ 32)
    (m n k : Nat) (lhs rhs : Tile R) (xOffset yOffset p a i j : Nat) (hk : k < 2 ^ 32)
    (hwrap : 2 ^ 32 ≤ k + s.stageK - 1) (ha : a < s.numN)
    (hrow : xOffset + (p * s.tileM + i) < m) (hcol : yOffset + (a * s.tileN + j) < n) :
    ∃ L, L * s.stageK < k ∧ Homogeneous.execute s m n k lhs rhs xOffset yOffset (0, k) p a i j =
      ∑ r ∈ range (L * s.stageK), lhs (xOffset + (p * s.tileM + i)) r *
        rhs r (yOffset + (a * s.tileN + j)) := by
  have hadd : wrappingAdd k s.stageK = k + s.stageK - 2 ^ 32 := by
    rw [wrappingAdd, Nat.mod_eq_sub_mod (by omega), Nat.mod_eq_of_lt (by omega)]
  have hsub : wrappingSub (wrappingAdd k s.stageK) 1 = k + s.stageK - 1 - 2 ^ 32 := by
    rw [hadd, wrappingSub_of_le (by omega) (by omega)]
    omega
  have hlt : wrappingSub (wrappingAdd k s.stageK) 1 / s.stageK * s.stageK < k := by
    have := Nat.div_mul_le_self (k + s.stageK - 1 - 2 ^ 32) s.stageK
    rw [hsub]
    omega
  exact ⟨_, hlt, by
    rw [homogeneous_execute_eq s m n k lhs rhs xOffset yOffset p hk a i j ha hrow hcol,
      min_eq_left hlt.le]⟩

/-- The Cmma stage (`K = 32`) on a `k` range of `2 ^ 32 - 1`: the loops stop short of `k`. -/
theorem cmma_loop_count_wraps_at_top :
    0 < cmmaShape.stageK ∧ cmmaShape.stageK ≤ 2 ^ 32 ∧ 2 ^ 32 - 1 < 2 ^ 32 ∧
    2 ^ 32 ≤ 2 ^ 32 - 1 + cmmaShape.stageK - 1 ∧ 0 < cmmaShape.numN ∧ 0 + (0 * cmmaShape.tileM + 0) < 1 ∧
    0 + (0 * cmmaShape.tileN + 0) < 1 ∧
    ∃ L, L * cmmaShape.stageK < 2 ^ 32 - 1 ∧
      Homogeneous.execute cmmaShape 1 1 (2 ^ 32 - 1) (fun _ _ => (1 : Nat)) (fun _ _ => 1) 0 0
        (0, 2 ^ 32 - 1) 0 0 0 0 =
      ∑ r ∈ range (L * cmmaShape.stageK), (fun _ _ => (1 : Nat)) (0 + (0 * cmmaShape.tileM + 0)) r *
        (fun _ _ => (1 : Nat)) r (0 + (0 * cmmaShape.tileN + 0)) :=
  ⟨by decide, by decide, by decide, by decide, by decide, by decide, by decide,
    matmul_loop_count_wraps cmmaShape (by decide) (by decide) 1 1 (2 ^ 32 - 1) _ _ 0 0 0 0 0 0
      (by decide) (by decide) (by decide) (by decide) (by decide)⟩

/-! ## The grid -/

/-- A row of the output splits into a cube, a plane and a row of the plane's tile. -/
theorem row_digits {M T c p i : Nat} (hT : 0 < T) (hp : p < M) (hi : i < T) :
    (c * (M * T) + (p * T + i)) / (M * T) = c ∧ (c * (M * T) + (p * T + i)) % (M * T) / T = p ∧
      (c * (M * T) + (p * T + i)) % (M * T) % T = i := by
  have hin : p * T + i < M * T :=
    calc p * T + i < (p + 1) * T := by rw [Nat.succ_mul]; omega
      _ ≤ M * T := Nat.mul_le_mul_right _ hp
  have hMT : 0 < M * T := Nat.lt_of_le_of_lt (Nat.zero_le _) hin
  rw [Nat.mul_comm c, Nat.mul_add_div hMT, Nat.div_eq_of_lt hin, Nat.add_zero, Nat.mul_add_mod,
    Nat.mod_eq_of_lt hin, Nat.mul_comm p, Nat.mul_add_div hT, Nat.div_eq_of_lt hi, Nat.add_zero,
    Nat.mul_add_mod, Nat.mod_eq_of_lt hi]
  exact ⟨rfl, rfl, rfl⟩

/-- A row inside the output lies in a cube of the grid. -/
theorem div_lt_cubes {x m S : Nat} (hS : 0 < S) (hx : x < m) : x / S < (m + S - 1) / S := by
  have := (ceil_bounds (a := m) hS).1
  rw [Nat.div_lt_iff_lt_mul hS, Nat.mul_comm]
  omega

/-- Where `m + M` and `n + N` fit in `u32`, `cube_count` is `ceil(m / M) × ceil(n / N)`, and the
batches as a `u32`. -/
theorem cubeCount_eq (s : StageShape) (hs : s.Positive) (problem : MatmulProblem)
    (hm : problem.m + s.stageM < 2 ^ 32) (hn : problem.n + s.stageN < 2 ^ 32) :
    cubeCount s problem = some ((problem.m + s.stageM - 1) / s.stageM,
      (problem.n + s.stageN - 1) / s.stageN, problem.numBatches % 2 ^ 32) := by
  obtain ⟨htm, htn, -, hnm, hnn, -⟩ := hs
  have hM : 0 < s.numM * s.tileM := Nat.mul_pos hnm htm
  have hN : 0 < s.numN * s.tileN := Nat.mul_pos hnn htn
  have hm' : problem.m + s.numM * s.tileM < 2 ^ 32 := hm
  have hn' : problem.n + s.numN * s.tileN < 2 ^ 32 := hn
  simp only [cubeCount, Option.bind_eq_bind, Nat.mod_eq_of_lt (lt_of_le_of_lt (Nat.le_add_right _ _) hm),
    Nat.mod_eq_of_lt (lt_of_le_of_lt (Nat.le_add_right _ _) hn),
    checkedMul_of_lt (lt_of_le_of_lt (Nat.le_add_left _ _) hm'),
    checkedMul_of_lt (lt_of_le_of_lt (Nat.le_add_left _ _) hn'), Option.some_bind,
    checkedAdd_of_lt hm', checkedAdd_of_lt hn', checkedSub_of_le (by omega : 1 ≤ problem.m + s.numM * s.tileM),
    checkedSub_of_le (by omega : 1 ≤ problem.n + s.numN * s.tileN), checkedDiv_of_pos hM, checkedDiv_of_pos hN]
  rfl

/-- The writer of an element of the output. -/
def Writer.ofTarget (s : StageShape) (b row col : Nat) : Writer :=
  ⟨row / s.stageM, col / s.stageN, b, row % s.stageM / s.tileM, col % s.stageN / s.tileN,
    row % s.stageM % s.tileM, col % s.stageN % s.tileN⟩

/-- **One writer per element.** Where `cube_count` does not panic or truncate, every element of
the output is written by exactly one writer of the grid. -/
theorem existsUnique_writer (s : StageShape) (hs : s.Positive) (problem : MatmulProblem)
    (hm : problem.m + s.stageM < 2 ^ 32) (hn : problem.n + s.stageN < 2 ^ 32)
    (hbatches : problem.numBatches < 2 ^ 32) {b row col : Nat} (hb : b < problem.numBatches)
    (hrow : row < problem.m) (hcol : col < problem.n) :
    ∃! w : Writer, w.Writes s problem ∧ w.cubeZ = b ∧ w.row s = row ∧ w.col s = col := by
  have hcount := cubeCount_eq s hs problem hm hn
  rw [Nat.mod_eq_of_lt hbatches] at hcount
  obtain ⟨htm, htn, -, hnm, hnn, -⟩ := hs
  have hSM : 0 < s.stageM := Nat.mul_pos hnm htm
  have hSN : 0 < s.stageN := Nat.mul_pos hnn htn
  have hdecomp : ∀ {x S T : Nat}, 0 < T → x = x / S * S + (x % S / T * T + x % S % T) :=
    fun {x S T} _ => by rw [Nat.div_add_mod' (x % S) T, Nat.div_add_mod']
  refine ⟨Writer.ofTarget s b row col, ⟨⟨_, hcount, div_lt_cubes hSM hrow, div_lt_cubes hSN hcol, hb,
    (Nat.div_lt_iff_lt_mul htm).2 (Nat.mod_lt _ hSM),
    (Nat.div_lt_iff_lt_mul htn).2 (Nat.mod_lt _ hSN), Nat.mod_lt _ htm, Nat.mod_lt _ htn, ?_, ?_⟩,
    rfl, ?_, ?_⟩, ?_⟩
  · rwa [Writer.row, Writer.ofTarget, ← hdecomp htm]
  · rwa [Writer.col, Writer.ofTarget, ← hdecomp htn]
  · exact (hdecomp htm).symm
  · exact (hdecomp htn).symm
  · rintro ⟨cx, cy, cz, p, a, i, j⟩ ⟨⟨-, -, -, -, -, hp, ha, hi, hj, -, -⟩, rfl, rfl, rfl⟩
    simp only [cubeDim] at hp ha hi hj
    obtain ⟨hx, hp', hi'⟩ := row_digits (c := cx) htm hp hi
    obtain ⟨hy, ha', hj'⟩ := row_digits (c := cy) htn ha hj
    simp only [Writer.ofTarget, Writer.row, Writer.col, StageShape.stageM, StageShape.stageN, hx,
      hp', hi', hy, ha', hj']

/-- A writer inside the output gets its stage's offsets without a wrap, and writes the sum over
`k` of the products of its row and column. -/
theorem Writer.value_eq (s : StageShape) (hs : s.Positive) (problem : MatmulProblem)
    (lhs rhs : Nat → Tile R) (hm : problem.m < 2 ^ 32) (hn : problem.n < 2 ^ 32)
    (hk : problem.k + s.stageK - 1 < 2 ^ 32) {w : Writer} (hw : w.Writes s problem) :
    w.value s problem lhs rhs =
      ∑ r ∈ range problem.k, lhs w.cubeZ (w.row s) r * rhs w.cubeZ r (w.col s) := by
  obtain ⟨_, -, -, -, -, -, ha, -, -, hrow, hcol⟩ := hw
  obtain ⟨-, -, htk, -, -, hnk⟩ := hs
  have hx : wrappingMul w.cubeX s.stageM = w.cubeX * s.stageM := wrappingMul_of_lt (by
    simp only [Writer.row] at hrow; omega)
  have hy : wrappingMul w.cubeY s.stageN = w.cubeY * s.stageN := wrappingMul_of_lt (by
    simp only [Writer.col] at hcol; omega)
  simp only [Writer.value, OneToOne.execute, hx, hy]
  exact homogeneous_execute s (Nat.mul_pos hnk htk) problem.m problem.n problem.k _ _ _ _ w.plane
    w.accumulator w.i w.j hk ha hrow hcol

/-- **The Cmma matmul computes the matrix product.** For every stage shape with positive sizes,
every problem whose `m + M`, `n + N`, batches and `k + K - 1` fit in `u32`, and all inputs:
`cube_count` launches `ceil(m / M) × ceil(n / N) × batches` cubes, every element of every batch
of the output is written by exactly one writer of the grid, and every write is the sum over `k`
of the products of the lhs row and the rhs column at its element. -/
theorem matmul_computes_product (s : StageShape) (hs : s.Positive) (problem : MatmulProblem)
    (lhs rhs : Nat → Tile R) (hm : problem.m + s.stageM < 2 ^ 32)
    (hn : problem.n + s.stageN < 2 ^ 32) (hb : problem.numBatches < 2 ^ 32)
    (hk : problem.k + s.stageK - 1 < 2 ^ 32) :
    cubeCount s problem = some ((problem.m + s.stageM - 1) / s.stageM,
      (problem.n + s.stageN - 1) / s.stageN, problem.numBatches) ∧
    (∀ b < problem.numBatches, ∀ row < problem.m, ∀ col < problem.n,
      ∃! w : Writer, w.Writes s problem ∧ w.cubeZ = b ∧ w.row s = row ∧ w.col s = col) ∧
    ∀ w : Writer, w.Writes s problem →
      w.value s problem lhs rhs =
        ∑ r ∈ range problem.k, lhs w.cubeZ (w.row s) r * rhs w.cubeZ r (w.col s) :=
  ⟨Nat.mod_eq_of_lt hb ▸ cubeCount_eq s hs problem hm hn,
    fun _ hb' _ hrow _ hcol => existsUnique_writer s hs problem hm hn hb hb' hrow hcol,
    fun _ hw => Writer.value_eq s hs problem lhs rhs (by omega) (by omega) hk hw⟩

/-- The Cmma algorithm's own stage, on a `100 × 70` by `70 × 50` product of two batches of
ones: the stage shape is positive, the sizes fit, and the theorem's conclusion holds there. -/
theorem cmma_computes_product_ones :
    cmmaShape.Positive ∧ 100 + cmmaShape.stageM < 2 ^ 32 ∧ 50 + cmmaShape.stageN < 2 ^ 32 ∧
    2 < 2 ^ 32 ∧ 70 + cmmaShape.stageK - 1 < 2 ^ 32 ∧
    cubeCount cmmaShape ⟨100, 50, 70, 2⟩ = some ((100 + cmmaShape.stageM - 1) / cmmaShape.stageM,
      (50 + cmmaShape.stageN - 1) / cmmaShape.stageN, 2) ∧
    ((∀ b < 2, ∀ row < 100, ∀ col < 50,
      ∃! w : Writer, w.Writes cmmaShape ⟨100, 50, 70, 2⟩ ∧ w.cubeZ = b ∧ w.row cmmaShape = row ∧
        w.col cmmaShape = col) ∧
    ∀ w : Writer, w.Writes cmmaShape ⟨100, 50, 70, 2⟩ →
      w.value cmmaShape ⟨100, 50, 70, 2⟩ (fun _ _ _ => (1 : Nat)) (fun _ _ _ => 1) =
        ∑ r ∈ range 70, (fun _ _ _ => (1 : Nat)) w.cubeZ (w.row cmmaShape) r *
          (fun _ _ _ => (1 : Nat)) w.cubeZ r (w.col cmmaShape)) :=
  ⟨by decide, by decide, by decide, by decide, by decide,
    matmul_computes_product cmmaShape (by decide) ⟨100, 50, 70, 2⟩ _ _ (by decide) (by decide)
      (by decide) (by decide)⟩

end Cmma

end CubeCl.Linalg
