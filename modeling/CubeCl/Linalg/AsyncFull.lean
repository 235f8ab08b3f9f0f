import CubeCl.Linalg.Tiling
import Mathlib.Data.List.Nodup

/-!
# Asynchronous full loading, one copy per slice
(`global/load/strategy/async_full_maximize_slice_length.rs`, `load/loader/async_full_loader.rs`)

The strategy copies a stage as `num_slices` contiguous slices: its rows where the input is
row-major, its columns where it is column-major. Each of the `unit_count = plane_dim *
num_planes` units of the cube runs `num_tasks_per_unit = div_ceil(num_slices, unit_count)`
tasks, and task `t` of the unit at `UNIT_POS` copies slice `unit_count * t + UNIT_POS`: behind
the bound `nth_slice < num_slices`, unless `unit_count` divides `num_slices`. `unit_count` and
`div_ceil`, which runs inside `comptime!`, are computed on the host, in checked `u32`; the
slice index is computed on the device, in wrapping `u32`.

On every configuration, `new_job` succeeds exactly without quantization, with units, and with
`num_slices + unit_count` inside `u32`; then the slice indices do not wrap, and a `fill_stage`
of the cube copies each slice of the stage exactly once and nothing past it, leaving fewer than
`unit_count` task slots idle (`async_full_copies_each_slice_once`).

`AsyncLoader::new` clears the stage when the view of the input lies past `shape - total`
along its outer dimension, a `u32` subtraction on the device: the test is exact where the
tensor holds a whole stage, and on a tensor shorter than one stage it fails at every offset
below the wrap (`async_loader_clear_test`).
-/

namespace CubeCl.Linalg

set_option autoImplicit false

/-- `MatrixLayout` (`matmul/components/config.rs`). -/
inductive MatrixLayout
  | rowMajor
  | colMajor
deriving DecidableEq, Repr

namespace AsyncFull

/-- Modelled from the spec: `GlobalConfig` is not in the source. What the asynchronous loader
and its strategy read from it for an input: its `matrix_layout`, the `total_row` and
`total_col` of its `tiling_dimensions`, whether it checks row and column bounds, `plane_dim`
and `num_planes`. -/
structure AsyncLoadConfig where
  matrixLayout : InputIdent → MatrixLayout
  totalRow : InputIdent → Nat
  totalCol : InputIdent → Nat
  checkRowBounds : InputIdent → Bool
  checkColBounds : InputIdent → Bool
  planeDim : Nat
  numPlanes : Nat

/-- `num_slices` in `new_job`: the rows of the stage for a row-major input, its columns for a
column-major one. -/
def AsyncLoadConfig.numSlices (config : AsyncLoadConfig) (inputIdent : InputIdent) : Nat :=
  match config.matrixLayout inputIdent with
  | .rowMajor => config.totalRow inputIdent
  | .colMajor => config.totalCol inputIdent

/-- `div_ceil` (`cubecl-std`) called inside `comptime!`: `(a + b - 1) / b` in `u32` on the host,
where the addition, the subtraction and the division panic. -/
def divCeilComptime (a b : Nat) : Option Nat := do
  let n ← checkedSub (← checkedAdd a b) 1
  checkedDiv n b

/-- `Job`. -/
structure Job where
  numTasksPerUnit : Nat
  unitCount : Nat
  numSlices : Nat
  inputIdent : InputIdent
deriving DecidableEq, Repr

/-- `new_job`; `none` where it panics: on a quantized input, or in `div_ceil`. -/
def newJob {Q : Type} (quantization : Option Q) (inputIdent : InputIdent)
    (config : AsyncLoadConfig) : Option Job :=
  if quantization.isSome then none else do
    let numSlices := config.numSlices inputIdent
    let unitCount ← checkedMul config.planeDim config.numPlanes
    let numTasksPerUnit ← divCeilComptime numSlices unitCount
    some ⟨numTasksPerUnit, unitCount, numSlices, inputIdent⟩

/-- `len`: the tasks of each unit. -/
def Job.len (job : Job) : Nat := job.numTasksPerUnit

/-- `execute_task` for the unit at `UNIT_POS`: the slice `load_nth_slice` copies (the window of
that slice of the input into the same slice of the stage), if it copies. -/
def Job.executeTask (job : Job) (unitPos taskId : Nat) : Option Nat :=
  let nthSlice := wrappingAdd (wrappingMul job.unitCount taskId) unitPos
  if job.numSlices % job.unitCount = 0 then some nthSlice
  else if nthSlice < job.numSlices then some nthSlice
  else none

/-- `fill_stage` for the unit at `UNIT_POS`: the slices its tasks `0 .. len` copy, in order. -/
def Job.fillStage (job : Job) (unitPos : Nat) : List Nat :=
  (List.range job.len).filterMap (job.executeTask unitPos)

/-- The slices the cube copies in one `fill_stage`: each unit `UNIT_POS < unit_count` of the
cube runs its own loop. -/
def Job.cubeFill (job : Job) : List Nat :=
  (List.range job.unitCount).flatMap job.fillStage

theorem divCeilComptime_eq_some {a b q : Nat} :
    divCeilComptime a b = some q ↔ 0 < b ∧ a + b < 2 ^ 32 ∧ q = (a + b - 1) / b := by
  simp only [divCeilComptime, Option.bind_eq_bind, Option.bind_eq_some, checkedAdd_eq_some,
    checkedSub_eq_some, checkedDiv_eq_some]
  constructor
  · rintro ⟨_, ⟨hab, rfl⟩, _, ⟨-, rfl⟩, hb, rfl⟩
    exact ⟨hb, hab, rfl⟩
  · rintro ⟨hb, hab, rfl⟩
    exact ⟨_, ⟨hab, rfl⟩, _, ⟨by omega, rfl⟩, hb, rfl⟩

theorem newJob_eq_some {Q : Type} {quantization : Option Q} {inputIdent : InputIdent}
    {config : AsyncLoadConfig} {job : Job} :
    newJob quantization inputIdent config = some job ↔ quantization = none ∧
      0 < config.planeDim * config.numPlanes ∧
      config.numSlices inputIdent + config.planeDim * config.numPlanes < 2 ^ 32 ∧
      job = ⟨(config.numSlices inputIdent + config.planeDim * config.numPlanes - 1) /
          (config.planeDim * config.numPlanes),
        config.planeDim * config.numPlanes, config.numSlices inputIdent, inputIdent⟩ := by
  cases quantization with
  | some _ => simp [newJob]
  | none =>
    simp only [newJob, Option.isSome_none, Bool.false_eq_true, if_false, Option.bind_eq_bind,
      Option.bind_eq_some, checkedMul_eq_some, divCeilComptime_eq_some, Option.some_inj, true_and]
    constructor
    · rintro ⟨_, ⟨-, rfl⟩, _, ⟨hU, hfit, rfl⟩, rfl⟩
      exact ⟨hU, hfit, rfl⟩
    · rintro ⟨hU, hfit, rfl⟩
      exact ⟨_, ⟨by omega, rfl⟩, _, ⟨hU, hfit, rfl⟩, rfl⟩

theorem executeTask_eq_some {job : Job} {u t s : Nat} : job.executeTask u t = some s ↔
    s = wrappingAdd (wrappingMul job.unitCount t) u ∧
      (job.numSlices % job.unitCount = 0 ∨ s < job.numSlices) := by
  unfold Job.executeTask
  by_cases h : job.numSlices % job.unitCount = 0
  · simp [h, eq_comm]
  · by_cases hs : wrappingAdd (wrappingMul job.unitCount t) u < job.numSlices
    · simp only [h, hs, if_false, if_true, false_or, Option.some_inj, @eq_comm _ _ s]
      exact ⟨fun he => ⟨he, he ▸ hs⟩, And.left⟩
    · simp only [h, hs, if_false, false_or, reduceCtorEq, false_iff, not_and]
      rintro rfl
      exact hs

/-- The job `new_job` builds for `S` slices and `U` units. -/
abbrev sliceJob (U S : Nat) (inputIdent : InputIdent) : Job := ⟨(S + U - 1) / U, U, S, inputIdent⟩

/-- With `T = div_ceil(S, U)` tasks, task `t` of unit `u` copies slice `U * t + u`, which does not
wrap, and it does exactly when that slice is in the stage: unguarded, `U` divides `S` and no
task reaches past it. -/
theorem executeTask_eq_of_lt {U S u t : Nat} {inputIdent : InputIdent} (hU : 0 < U)
    (hfit : S + U < 2 ^ 32) (hu : u < U) (ht : t < (S + U - 1) / U) :
    (sliceJob U S inputIdent).executeTask u t = if U * t + u < S then some (U * t + u) else none := by
  obtain ⟨hge, hlt⟩ := ceil_bounds (a := S) hU
  have hslot : U * t + u < U * ((S + U - 1) / U) :=
    calc U * t + u < U * (t + 1) := by rw [Nat.mul_succ]; omega
      _ ≤ U * ((S + U - 1) / U) := Nat.mul_le_mul_left _ ht
  have hwrap : wrappingAdd (wrappingMul U t) u = U * t + u := by
    rw [wrappingMul_of_lt (by omega), wrappingAdd_of_lt (by omega)]
  simp only [Job.executeTask, hwrap]
  split
  · next hdvd =>
    obtain ⟨q, rfl⟩ := Nat.dvd_of_mod_eq_zero hdvd
    have hT : (U * q + U - 1) / U = q := by
      have h1 := Nat.le_of_mul_le_mul_left hge hU
      have h2 := Nat.lt_of_mul_lt_mul_left (a := U)
        (show U * ((U * q + U - 1) / U) < U * (q + 1) by rwa [Nat.mul_succ])
      omega
    rw [hT] at hslot
    rw [if_pos hslot]
  · rfl

section Fill

variable {U S : Nat} {inputIdent : InputIdent}

/-- Unit `u` copies, over its loop, exactly the slices of the stage it is congruent to. -/
theorem mem_fillStage (hU : 0 < U) (hfit : S + U < 2 ^ 32) {u s : Nat} (hu : u < U) :
    s ∈ (sliceJob U S inputIdent).fillStage u ↔ s % U = u ∧ s < S := by
  simp only [Job.fillStage, Job.len, List.mem_filterMap, List.mem_range]
  constructor
  · rintro ⟨t, ht, hs⟩
    rw [executeTask_eq_of_lt hU hfit hu ht] at hs
    split at hs
    · obtain rfl := Option.some_inj.1 hs
      exact ⟨by rw [Nat.mul_add_mod, Nat.mod_eq_of_lt hu], ‹_›⟩
    · cases hs
  · rintro ⟨rfl, hs⟩
    have ht : s / U < (S + U - 1) / U := by
      have := (ceil_bounds (a := S) hU).1
      have := Nat.div_add_mod s U
      exact Nat.lt_of_mul_lt_mul_left (a := U) (by omega)
    refine ⟨s / U, ht, ?_⟩
    rw [executeTask_eq_of_lt hU hfit hu ht, Nat.div_add_mod, if_pos hs]

/-- No unit copies a slice twice: its tasks copy distinct slices. -/
theorem nodup_fillStage (hU : 0 < U) (hfit : S + U < 2 ^ 32) {u : Nat} (hu : u < U) :
    ((sliceJob U S inputIdent).fillStage u).Nodup := by
  have hslots : ((List.range (sliceJob U S inputIdent).len).filterMap
      ((sliceJob U S inputIdent).executeTask u)) = (List.range (sliceJob U S inputIdent).len).filterMap
        fun t => if U * t + u < S then some (U * t + u) else none :=
    List.filterMap_congr fun t ht => executeTask_eq_of_lt hU hfit hu (List.mem_range.1 ht)
  rw [Job.fillStage, hslots]
  refine List.Nodup.filterMap (fun t t' s hs hs' => ?_) (List.nodup_range _)
  simp only [Option.mem_def, Option.ite_none_right_eq_some, Option.some_inj] at hs hs'
  exact Nat.eq_of_mul_eq_mul_left hU (Nat.add_right_cancel (hs.2.trans hs'.2.symm))

/-- The cube copies every slice of the stage once, and nothing else. -/
theorem cubeFill_perm (hU : 0 < U) (hfit : S + U < 2 ^ 32) :
    (sliceJob U S inputIdent).cubeFill.Perm (List.range S) := by
  have hmem : ∀ s, s ∈ (sliceJob U S inputIdent).cubeFill ↔ s < S := fun s => by
    simp only [Job.cubeFill, List.mem_flatMap, List.mem_range]
    constructor
    · rintro ⟨u, hu, hs⟩
      exact ((mem_fillStage hU hfit hu).1 hs).2
    · exact fun hs => ⟨s % U, Nat.mod_lt _ hU, (mem_fillStage hU hfit (Nat.mod_lt _ hU)).2 ⟨rfl, hs⟩⟩
  refine (List.perm_ext_iff_of_nodup ?_ (List.nodup_range S)).2 fun s => by
    rw [hmem, List.mem_range]
  refine List.nodup_flatMap.2 ⟨fun u hu => nodup_fillStage hU hfit (List.mem_range.1 hu), ?_⟩
  refine (List.nodup_range U).imp_of_mem fun {u u'} hu hu' hne s hs hs' => hne ?_
  rw [List.mem_range] at hu hu'
  exact ((mem_fillStage hU hfit hu).1 hs).1.symm.trans ((mem_fillStage hU hfit hu').1 hs').1

end Fill

/-- **Every slice once.** `new_job` succeeds exactly without quantization, with units, and with
`num_slices + unit_count` inside `u32`; then the cube's `fill_stage` copies each slice of the
stage exactly once and nothing past it, and fewer than `unit_count` of its task slots copy
nothing. -/
theorem async_full_copies_each_slice_once {Q : Type} (quantization : Option Q)
    (inputIdent : InputIdent) (config : AsyncLoadConfig) :
    ((∃ job, newJob quantization inputIdent config = some job) ↔
      quantization = none ∧ 0 < config.planeDim * config.numPlanes ∧
        config.numSlices inputIdent + config.planeDim * config.numPlanes < 2 ^ 32) ∧
    ∀ job, newJob quantization inputIdent config = some job →
      job.cubeFill.Perm (List.range (config.numSlices inputIdent)) ∧
      job.unitCount * job.len < config.numSlices inputIdent + job.unitCount := by
  refine ⟨⟨fun ⟨_, hj⟩ => (newJob_eq_some.1 hj).imp_right fun h => ⟨h.1, h.2.1⟩,
    fun ⟨hq, hU, hfit⟩ => ⟨_, newJob_eq_some.2 ⟨hq, hU, hfit, rfl⟩⟩⟩, fun job hj => ?_⟩
  obtain ⟨-, hU, hfit, rfl⟩ := newJob_eq_some.1 hj
  exact ⟨cubeFill_perm hU hfit, (ceil_bounds hU).2⟩

/-! ## Clearing the stage -/

/-- Modelled from the spec: `TensorReader` is not in the source. What `AsyncLoader::new` reads
from it: the offsets of the view and the shape of the input. -/
structure TensorReader where
  xOffset : Nat
  yOffset : Nat
  shapeX : Nat
  shapeY : Nat
deriving DecidableEq, Repr

/-- The test `AsyncLoader::new` makes along one dimension: where the config checks the bounds,
the stage is cleared when the view's offset is past `shape - total`, subtracted in `u32` on the
device. -/
def clearsAlong (checkBounds : Bool) (offset shape total : Nat) : Bool :=
  checkBounds && decide (wrappingSub shape total < offset)

/-- Whether `AsyncLoader::new` clears the stage: along the rows for lhs, along the columns for
rhs. -/
def clearsStage (config : AsyncLoadConfig) (reader : TensorReader) : InputIdent → Bool
  | .lhs => clearsAlong (config.checkRowBounds .lhs) reader.xOffset reader.shapeX
      (config.totalRow .lhs)
  | .rhs => clearsAlong (config.checkColBounds .rhs) reader.yOffset reader.shapeY
      (config.totalCol .rhs)

/-- **The clear test.** On `u32` values, the test clears exactly when the stage passes the end
of the tensor where the tensor holds a whole stage; where it holds less, the subtraction wraps
and the test clears only at offsets past `2 ^ 32 - (total - shape)`. -/
theorem async_loader_clear_test (checkBounds : Bool) (offset shape total : Nat)
    (hshape : shape < 2 ^ 32) (htotal : total < 2 ^ 32) :
    clearsAlong checkBounds offset shape total = true ↔ checkBounds = true ∧
      if total ≤ shape then shape < offset + total else 2 ^ 32 + shape < offset + total := by
  unfold clearsAlong
  cases checkBounds
  · simp
  · simp only [Bool.true_and, decide_eq_true_eq, true_and]
    split
    · rw [wrappingSub_of_le hshape ‹_›]; omega
    · rw [wrappingSub_of_lt htotal (by omega)]; omega

/-- A `4`-row tensor under an `8`-row stage, viewed from its first row: the stage passes the
end of the tensor, and the test does not clear it. -/
theorem async_loader_short_tensor_not_cleared : clearsAlong true 0 4 8 = false :=
  Bool.eq_false_iff.2 fun h =>
    absurd ((async_loader_clear_test true 0 4 8 (by decide) (by decide)).1 h).2 (by decide)

end AsyncFull

end CubeCl.Linalg
