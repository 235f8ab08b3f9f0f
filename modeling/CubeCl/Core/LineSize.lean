import Mathlib.Algebra.BigOperators.Group.List
import Mathlib.Algebra.Order.Ring.Nat

/-!
# Line sizes of a strided tensor (`cubecl-core/src/lib.rs`)

`tensor_line_size_parallel` and `tensor_line_size_perpendicular` pick the widest supported line
size for vectorized access along an axis, from the tensor's shape and strides. The element at
`index` sits at `offset strides index`, in elements; a vectorized access at line index `l` with
line size `v` reads the `v` elements at offsets `v * l, ..., v * l + v - 1`.

The host arithmetic is in `usize`, where `%` by a zero line size and an overflowing product
panic: `none` here. With positive line sizes both functions return (`tensorLineSizeParallel_isSome`,
`tensorLineSizePerpendicular_isSome`); above 1, what they return is a supported size that
divides the axis' extent or stride (`tensorLineSizeParallel_spec`,
`tensorLineSizePerpendicular_spec`). Neither check looks at every stride: a padded layout gets a
parallel line size whose lines start off the line grid, and a layout whose smaller strides do not
tile the axis' stride gets a perpendicular line size whose lines mix coordinates of the axis.
-/

namespace CubeCl.Core

set_option autoImplicit false

/-- The memory offset of the element at `index`, in elements. -/
def offset (strides index : List Nat) : Nat := (List.zipWith (· * ·) index strides).sum

/-- The in-bounds indices of a tensor of `shape`, last axis fastest. -/
def indices : List Nat → List (List Nat)
  | [] => [[]]
  | n :: shape => (List.range n).flatMap fun i => (indices shape).map (i :: ·)

/-- The offsets of the elements of a tensor of `shape` and `strides`; no two elements share one
where this list has no duplicate. -/
def offsets (shape strides : List Nat) : List Nat := (indices shape).map (offset strides)

/-- `iter.product::<usize>()`: `none` where a partial product overflows `usize`. -/
def productUsize (xs : List Nat) : Option Nat :=
  xs.foldlM (fun acc x => if acc * x < 2 ^ 64 then some (acc * x) else none) 1

/-- `supported_line_sizes.filter(|line_size| n % *line_size as usize == 0).max().unwrap_or(1)`:
`none` where a line size is zero, on which `%` panics. -/
def maxLineSizeDividing (supportedLineSizes : List Nat) (n : Nat) : Option Nat :=
  if 0 ∈ supportedLineSizes then none
  else some ((supportedLineSizes.filter fun lineSize => n % lineSize = 0).max?.getD 1)

/-- `tensor_line_size_parallel`. -/
def tensorLineSizeParallel (supportedLineSizes shape strides : List Nat) (axis : Nat) :
    Option Nat :=
  match strides[axis]? with
  | none => some 1
  | some val =>
    if val ≠ 1 then some 1
    else
      match shape[axis]? with
      | none => some 1
      | some axisShape =>
        match (strides.filter fun stride => stride > 1).min? with
        | some nextStride =>
          if nextStride ≠ axisShape then some 1
          else maxLineSizeDividing supportedLineSizes axisShape
        | none => maxLineSizeDividing supportedLineSizes axisShape

/-- The shapes of the axes whose strides are below `axisStride`. -/
def shapesOfSmallerStrides (shape strides : List Nat) (axisStride : Nat) : List Nat :=
  ((strides.zip shape).filter fun (stride, _) => stride < axisStride).map Prod.snd

/-- `tensor_line_size_perpendicular`. -/
def tensorLineSizePerpendicular (supportedLineSizes shape strides : List Nat) (axis : Nat) :
    Option Nat :=
  match strides[axis]? with
  | none => some 1
  | some axisStride => do
    let prodShapeAxesSmallerStrides ← productUsize (shapesOfSmallerStrides shape strides axisStride)
    if axisStride ≠ prodShapeAxesSmallerStrides then some 1
    else maxLineSizeDividing supportedLineSizes axisStride

/-! ## What the checks guarantee -/

theorem foldlM_productUsize {acc p : Nat} :
    ∀ {xs : List Nat},
      xs.foldlM (fun acc x => if acc * x < 2 ^ 64 then some (acc * x) else none) acc = some p →
        p = acc * xs.prod
  | [], h => by simpa using h.symm
  | x :: xs, h => by
    rw [List.foldlM_cons] at h
    split at h
    · rw [Option.bind_eq_bind, Option.some_bind] at h
      rw [foldlM_productUsize h, List.prod_cons, Nat.mul_assoc]
    · cases h

/-- A product that does not overflow is the exact product. -/
theorem productUsize_eq_some {xs : List Nat} {p : Nat} (h : productUsize xs = some p) :
    p = xs.prod := by
  rw [foldlM_productUsize h, Nat.one_mul]

theorem maxLineSizeDividing_isSome {sizes : List Nat} (hpos : ∀ s ∈ sizes, 0 < s) (n : Nat) :
    (maxLineSizeDividing sizes n).isSome := by
  rw [maxLineSizeDividing, if_neg fun h => Nat.lt_irrefl 0 (hpos 0 h)]
  rfl

/-- Above 1, the line size chosen is the largest supported size dividing `n`. -/
theorem maxLineSizeDividing_spec {sizes : List Nat} {n v : Nat}
    (h : maxLineSizeDividing sizes n = some v) (hv : 1 < v) :
    v ∈ sizes ∧ n % v = 0 ∧ ∀ s ∈ sizes, n % s = 0 → s ≤ v := by
  unfold maxLineSizeDividing at h
  split at h
  · cases h
  · rw [Option.some.injEq] at h
    cases hm : (sizes.filter fun s => n % s = 0).max? with
    | none => rw [hm, Option.getD_none] at h; omega
    | some m =>
      rw [hm, Option.getD_some] at h
      subst h
      obtain ⟨hmem, hmax⟩ := List.max?_eq_some_iff'.1 hm
      rw [List.mem_filter, decide_eq_true_eq] at hmem
      exact ⟨hmem.1, hmem.2, fun s hs hd => hmax s (List.mem_filter.2 ⟨hs, decide_eq_true hd⟩)⟩

/-- With positive line sizes, `tensor_line_size_parallel` returns. -/
theorem tensorLineSizeParallel_isSome {sizes : List Nat} (hpos : ∀ s ∈ sizes, 0 < s)
    (shape strides : List Nat) (axis : Nat) :
    (tensorLineSizeParallel sizes shape strides axis).isSome := by
  unfold tensorLineSizeParallel
  repeat' split
  all_goals first | rfl | exact maxLineSizeDividing_isSome hpos _

/-- Above 1, `tensor_line_size_parallel` returns the largest supported size dividing the
extent of an axis of stride 1, and every stride above 1 is at least that extent. -/
theorem tensorLineSizeParallel_spec {sizes shape strides : List Nat} {axis v : Nat}
    (h : tensorLineSizeParallel sizes shape strides axis = some v) (hv : 1 < v) :
    strides[axis]? = some 1 ∧ ∃ axisShape, shape[axis]? = some axisShape ∧
      (∀ stride ∈ strides, 1 < stride → axisShape ≤ stride) ∧
      v ∈ sizes ∧ axisShape % v = 0 ∧ ∀ s ∈ sizes, axisShape % s = 0 → s ≤ v := by
  have hne : ∀ {o : Option Nat}, o = some 1 → o ≠ some v := by
    rintro _ rfl hv'
    exact absurd (Option.some.inj hv') (Nat.ne_of_lt hv)
  unfold tensorLineSizeParallel at h
  split at h
  · exact absurd h (hne rfl)
  · next val hval =>
    split_ifs at h with hval1
    · exact absurd h (hne rfl)
    rw [not_not] at hval1
    subst hval1
    split at h
    · exact absurd h (hne rfl)
    · next axisShape hshape =>
      refine ⟨hval, axisShape, hshape, ?_⟩
      split at h
      · next nextStride hmin =>
        split_ifs at h with hnext
        · exact absurd h (hne rfl)
        rw [not_not] at hnext
        subst hnext
        refine ⟨fun stride hs h1 => (List.min?_eq_some_iff'.1 hmin).2 stride ?_,
          maxLineSizeDividing_spec h hv⟩
        exact List.mem_filter.2 ⟨hs, decide_eq_true h1⟩
      · next hmin =>
        refine ⟨fun stride hs h1 => ?_, maxLineSizeDividing_spec h hv⟩
        rw [List.min?_eq_none_iff, List.filter_eq_nil_iff] at hmin
        exact absurd (decide_eq_true h1) (hmin stride hs)

/-- The parallel line size along axis 0 of a padded layout, shape `[2, 2, 2]` and strides
`[1, 2, 5]`, with one element of padding at offset 4: the eight elements sit at distinct
offsets, and the line size is 2. Axis 2, of extent 2, has the odd stride 5, so the element at
`[0, 0, 1]`, at axis coordinate 0, sits at the odd offset 5: the line `5 / 2` covers offsets 4
and 5, and no element sits at offset 4. -/
theorem tensor_line_size_parallel_misaligned :
    (offsets [2, 2, 2] [1, 2, 5]).Nodup ∧
    tensorLineSizeParallel [4, 2, 1] [2, 2, 2] [1, 2, 5] 0 = some 2 ∧
    [0, 0, 1] ∈ indices [2, 2, 2] ∧ offset [1, 2, 5] [0, 0, 1] = 5 ∧ 2 * (5 / 2) = 4 ∧
    4 ∉ offsets [2, 2, 2] [1, 2, 5] := by
  decide

/-- With positive line sizes, `tensor_line_size_perpendicular` returns unless the product of
the shapes below the axis' stride overflows `usize`. -/
theorem tensorLineSizePerpendicular_isSome {sizes : List Nat} (hpos : ∀ s ∈ sizes, 0 < s)
    (shape strides : List Nat) (axis : Nat)
    (hprod : ∀ axisStride, strides[axis]? = some axisStride →
      (productUsize (shapesOfSmallerStrides shape strides axisStride)).isSome) :
    (tensorLineSizePerpendicular sizes shape strides axis).isSome := by
  unfold tensorLineSizePerpendicular
  split
  · rfl
  · next axisStride hstride =>
    obtain ⟨p, hp⟩ := Option.isSome_iff_exists.1 (hprod axisStride hstride)
    rw [hp, Option.bind_eq_bind, Option.some_bind]
    split
    · rfl
    · exact maxLineSizeDividing_isSome hpos _

/-- Above 1, `tensor_line_size_perpendicular` returns the largest supported size dividing the
axis' stride, which is the product of the shapes of the axes with smaller strides. -/
theorem tensorLineSizePerpendicular_spec {sizes shape strides : List Nat} {axis v : Nat}
    (h : tensorLineSizePerpendicular sizes shape strides axis = some v) (hv : 1 < v) :
    ∃ axisStride, strides[axis]? = some axisStride ∧
      axisStride = (shapesOfSmallerStrides shape strides axisStride).prod ∧
      v ∈ sizes ∧ axisStride % v = 0 ∧ ∀ s ∈ sizes, axisStride % s = 0 → s ≤ v := by
  unfold tensorLineSizePerpendicular at h
  split at h
  · exact absurd (Option.some.inj h) (Nat.ne_of_lt hv)
  · next axisStride hstride =>
    cases hp : productUsize (shapesOfSmallerStrides shape strides axisStride) with
    | none => rw [hp] at h; cases h
    | some p =>
      rw [hp, Option.bind_eq_bind, Option.some_bind] at h
      split_ifs at h with hne
      · exact absurd (Option.some.inj h) (Nat.ne_of_lt hv)
      rw [not_not] at hne
      exact ⟨axisStride, hstride, hne.trans (productUsize_eq_some hp), maxLineSizeDividing_spec h hv⟩

/-- The perpendicular line size along axis 1 of shape `[4, 2]` with strides `[3, 4]`: the
eight elements sit at distinct offsets, and the line size is 4, since the one smaller stride
has extent 4. But axis 0 addresses the offsets 0, 3, 6, 9, not `[0, 4)`: no element sits at
offset 1, and the line 1, offsets 4 to 7, holds `[0, 1]` at 4 and `[2, 0]` at 6, at two
coordinates of axis 1. -/
theorem tensor_line_size_perpendicular_mixes_axis :
    (offsets [4, 2] [3, 4]).Nodup ∧
    tensorLineSizePerpendicular [4, 2, 1] [4, 2] [3, 4] 1 = some 4 ∧
    offsets [4] [3] = [0, 3, 6, 9] ∧
    [0, 1] ∈ indices [4, 2] ∧ [2, 0] ∈ indices [4, 2] ∧
    offset [3, 4] [0, 1] / 4 = 1 ∧ offset [3, 4] [2, 0] / 4 = 1 := by
  decide

end CubeCl.Core
