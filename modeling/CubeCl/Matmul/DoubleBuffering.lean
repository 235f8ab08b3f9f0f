import CubeCl.Linalg.DoubleBuffering
import CubeCl.Matmul.TilingScheme

/-!
# The loop count of the double-buffering global matmul, in both crates

`DoubleBufferingMatmul::execute` of `cubecl-linalg` and of `cubecl-matmul`
(`components/global/multi_stage/double_buffering/matmul.rs`) run the same loop over the
`k` range, `Linalg.DoubleBuffering.stageMatmuls`; they differ only in where `buffer_step`
comes from: `total_col` of the lhs tiling, or `elements_in_stage_k` of the tiling scheme.

On every nonempty range both run the stage matmuls the range needs
(`double_buffering_covers_k_range`). On an empty range `num_stage_matmuls` is `0`, and
`num_stage_matmuls - 2` wraps in `u32`: both run `2 ^ 32` stage matmuls.
-/

namespace CubeCl.Matmul

set_option autoImplicit false

open CubeCl.Linalg.DoubleBuffering (StageMatmul stageMatmuls numStageMatmuls CoversRange)

/-- `DoubleBufferingMatmul::execute` (`cubecl-matmul`), with
`buffer_step = config.tiling_scheme().elements_in_stage_k()`; `none` where that count panics. -/
def DoubleBufferingMatmul.execute (scheme : TilingScheme) (kRange : Nat × Nat) :
    Option (List StageMatmul) :=
  scheme.elementsInStageK.map fun bufferStep => stageMatmuls bufferStep kRange

/-- An empty `k` range: `num_stage_matmuls` is `0`, so `num_stage_matmuls - 2` wraps, and both
implementations run `2 ^ 32` stage matmuls where the range needs none. -/
theorem double_buffering_empty_k_range_wraps {bufferStep k : Nat} (hb : 0 < bufferStep)
    (hb32 : bufferStep < 2 ^ 32) (hk : k < 2 ^ 32) :
    numStageMatmuls bufferStep (k, k) = 0 ∧
    (Linalg.DoubleBuffering.DoubleBufferingMatmul.execute bufferStep (k, k)).length = 2 ^ 32 ∧
    ¬ CoversRange (Linalg.DoubleBuffering.DoubleBufferingMatmul.execute bufferStep (k, k))
      bufferStep 0 ∧
    ∀ scheme : TilingScheme, scheme.elementsInStageK = some bufferStep →
      (DoubleBufferingMatmul.execute scheme (k, k)).map List.length = some (2 ^ 32) := by
  obtain ⟨hnsm, hlen⟩ := Linalg.DoubleBuffering.stageMatmuls_empty hb hb32 hk
  refine ⟨hnsm, hlen, fun hc => ?_, fun scheme hs => ?_⟩
  · have := hc.least.2 0 rfl (by simp [Nat.div_eq_of_lt (Nat.sub_one_lt_of_lt hb)])
    simp [Linalg.DoubleBuffering.DoubleBufferingMatmul.execute, hlen] at this
  · rw [DoubleBufferingMatmul.execute, hs]
    exact congrArg some hlen

/-- The empty range at `k = 0`, in chunks of `32`. -/
theorem double_buffering_empty_k_range_at_zero :
    0 < 32 ∧ 32 < 2 ^ 32 ∧ 0 < 2 ^ 32 ∧
    (numStageMatmuls 32 (0, 0) = 0 ∧
    (Linalg.DoubleBuffering.DoubleBufferingMatmul.execute 32 (0, 0)).length = 2 ^ 32 ∧
    ¬ CoversRange (Linalg.DoubleBuffering.DoubleBufferingMatmul.execute 32 (0, 0)) 32 0 ∧
    ∀ scheme : TilingScheme, scheme.elementsInStageK = some 32 →
      (DoubleBufferingMatmul.execute scheme (0, 0)).map List.length = some (2 ^ 32)) :=
  ⟨by decide, by decide, by decide,
    double_buffering_empty_k_range_wraps (by decide) (by decide) (by decide)⟩

end CubeCl.Matmul
