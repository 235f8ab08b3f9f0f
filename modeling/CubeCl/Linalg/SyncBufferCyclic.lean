import CubeCl.Linalg.Tiling

/-!
# Cyclic loading of a stage buffer (`global/load/strategy/sync_buffer_cyclic.rs`)

The `U = plane_dim * num_planes` units of the cube load the `NL` lines of one buffer in
turn: unit `u`, in its task `t`, stores the line at element position
`u * line_size + t * U * line_size`. Each unit has `T = div_ceil(NL, U)` tasks, so the
positions cover `T * U` lines, which may pass `NL`. `execute_task` guards the store by
`position < total_size` only at the `Runtime` check level when `balanced_workload` is
false; at the `Comptime` level, `check` rejects a configuration whose last position lies
past `total_size`.

`check` and `new_job` compute their values on the host, in checked `u32`; the unit's position
is computed on the device, in wrapping `u32`. Where the `T * U` lines of the load span fewer
than `2 ^ 32` elements, neither overflows. There the stores hit each of the lines
`0 .. storedLines - 1` once and nothing else (`stores_exactly_once`): `NL` lines when the store
is guarded, `T * U` lines when it is not. `check` accepts exactly when `T * U <= NL + 1`
(`check_comptime_eq_ok_iff`), and `balanced_workload` tests `T % U = 0` where the lines fit only
when `T * U = NL`; so both check levels let a store at position `total_size` through.

`load_and_store_line` places a position in tile `position / tile_size` of the buffer,
at line `position % tile_size / line_size` of the tile (`tileLine`). Where the tile lies
in the stage is the `TilingOrder`'s, which is not in the source.
-/

namespace CubeCl.Linalg

set_option autoImplicit false

/-- Modelled from the spec: `LoaderCheckLevel` is not in the source. `Comptime`: the
configuration is checked when the kernel is expanded; `Runtime`: stores are guarded. -/
inductive LoaderCheckLevel
  | comptime
  | runtime
deriving DecidableEq, Repr

namespace SyncBufferCyclic

/-- `LoadingValidation::check`; `none` where the host arithmetic panics. Written with
`let some .. | none` rather than `←`: the same function, which the code generator compiles in
linear rather than exponential time in the length of the chain. -/
def check (level : LoaderCheckLevel) (config : LoadConfig) : Option (Except String Unit) :=
  match level with
  | .comptime => do
    let lineSize := config.lineSize
    let tilingDimensions := config.tiling
    let some numLinesPerTile := checkedDiv tilingDimensions.tileSize lineSize | none
    let numTilesInBuffer := tilingDimensions.tileCount
    let some totalNumLines := checkedMul numTilesInBuffer numLinesPerTile | none
    let some totalUnits := checkedMul config.planeDim config.numPlanes | none
    let some jumpLength := checkedMul totalUnits lineSize | none
    let some numTasksPerUnit := divCeil totalNumLines totalUnits | none
    let some maxId := checkedSub totalUnits 1 | none
    let some maxTaskId := checkedSub numTasksPerUnit 1 | none
    let some maxPositionBase := checkedMul maxId lineSize | none
    let some maxPosition := checkedAdd maxPositionBase (← checkedMul maxTaskId jumpLength) | none
    let numStageElements := tilingDimensions.totalSize
    if maxPosition > numStageElements then
      some (.error "Too many data will be loaded, resulting in out-of-bounds")
    else some (.ok ())
  | .runtime => some (.ok ())

/-- `Job`, without `input_ident`, which only the `TilingOrder` reads. -/
structure Job where
  unitPositionBase : Nat
  numTasksPerUnit : Nat
  bufferIndex : Nat
  jumpLength : Nat
  numLinesPerTile : Nat
  balancedWorkload : Bool
  numStageElements : Nat
  loaderCheckLevel : LoaderCheckLevel
deriving DecidableEq, Repr

/-- `new_job` for the unit at `(UNIT_POS_X, UNIT_POS_Y)`; `none` where the host arithmetic
panics. -/
def newJob (level : LoaderCheckLevel) (config : LoadConfig) (bufferIndex unitPosX unitPosY : Nat) :
    Option Job := do
  let tilingDimensions := config.tiling
  let lineSize := config.lineSize
  let numStageElements := tilingDimensions.totalSize
  let tileSize := tilingDimensions.tileSize
  let tileCountRow := tilingDimensions.tileCountRow
  let tileCountCol := tilingDimensions.tileCountCol
  let numLinesPerTile ← checkedDiv tileSize lineSize
  let totalUnits ← checkedMul config.planeDim config.numPlanes
  let jumpLength ← checkedMul totalUnits lineSize
  let numTilesInBuffer ← checkedMul tileCountRow tileCountCol
  let totalNumLines ← checkedMul numTilesInBuffer numLinesPerTile
  let numTasksPerUnit ← divCeil totalNumLines totalUnits
  let balancedWorkload := numTasksPerUnit % totalUnits == 0
  let unitId := wrappingAdd (wrappingMul unitPosY config.planeDim) unitPosX
  let unitPositionBase := wrappingMul unitId lineSize
  some ⟨unitPositionBase, numTasksPerUnit, bufferIndex, jumpLength, numLinesPerTile,
    balancedWorkload, numStageElements, level⟩

/-- `execute_task`: the position it hands to `load_and_store_line`, if it stores. -/
def executeTask (job : Job) (taskId : Nat) : Option Nat :=
  let unitPosition := wrappingAdd job.unitPositionBase (wrappingMul taskId job.jumpLength)
  if job.loaderCheckLevel == .comptime || job.balancedWorkload then some unitPosition
  else if unitPosition < job.numStageElements then some unitPosition
  else none

/-- The tile of the buffer, and the line within the tile, where `load_and_store_line`
stores the line at `unitPosition`. -/
def tileLine (tileSize lineSize unitPosition : Nat) : Nat × Nat :=
  (unitPosition / tileSize, unitPosition % tileSize / lineSize)

/-! ## The stores of a whole load -/

/-- `U`: the units of the cube. -/
def totalUnits (config : LoadConfig) : Nat := config.planeDim * config.numPlanes

/-- `NL`: the lines of one buffer. -/
def totalNumLines (config : LoadConfig) : Nat :=
  config.tiling.tileCount * (config.tiling.tileSize / config.lineSize)

/-- The store is unguarded: the level is `Comptime`, or `T % U = 0` (`balanced_workload`). -/
def Unguarded (level : LoaderCheckLevel) (config : LoadConfig) (numTasks : Nat) : Prop :=
  level = .comptime ∨ numTasks % totalUnits config = 0

instance (level : LoaderCheckLevel) (config : LoadConfig) (numTasks : Nat) :
    Decidable (Unguarded level config numTasks) :=
  inferInstanceAs (Decidable (_ ∨ _))

/-- The lines a whole load stores: `T * U` unguarded, `NL` guarded. -/
def storedLines (level : LoaderCheckLevel) (config : LoadConfig) (numTasks : Nat) : Nat :=
  if Unguarded level config numTasks then numTasks * totalUnits config else totalNumLines config

/-- Unit `(x, y)` of the cube stores, in its task `t`, at position `p`. -/
def Stores (level : LoaderCheckLevel) (config : LoadConfig) (bufferIndex x y t p : Nat) : Prop :=
  x < config.planeDim ∧ y < config.numPlanes ∧
    ∃ job, newJob level config bufferIndex x y = some job ∧ t < job.numTasksPerUnit ∧
      executeTask job t = some p

variable {level : LoaderCheckLevel} {config : LoadConfig} {bufferIndex numTasks : Nat}

theorem newJob_eq_some {x y : Nat} {job : Job} :
    newJob level config bufferIndex x y = some job ↔ 0 < config.lineSize ∧
      totalUnits config * config.lineSize < 2 ^ 32 ∧ config.tiling.tileCount < 2 ^ 32 ∧
      totalNumLines config < 2 ^ 32 ∧
      ∃ numTasks, divCeil (totalNumLines config) (totalUnits config) = some numTasks ∧
        job = ⟨wrappingMul (wrappingAdd (wrappingMul y config.planeDim) x) config.lineSize, numTasks,
          bufferIndex, totalUnits config * config.lineSize, config.tiling.tileSize / config.lineSize,
          numTasks % totalUnits config == 0, config.tiling.totalSize, level⟩ := by
  simp only [newJob, Option.bind_eq_bind, Option.bind_eq_some, checkedDiv_eq_some,
    checkedMul_eq_some, Option.some_inj]
  constructor
  · rintro ⟨_, ⟨hL, rfl⟩, _, ⟨-, rfl⟩, _, ⟨hJ, rfl⟩, _, ⟨hC, rfl⟩, _, ⟨hN, rfl⟩, numTasks, hT, rfl⟩
    exact ⟨hL, hJ, hC, hN, numTasks, hT, rfl⟩
  · rintro ⟨hL, hJ, hC, hN, numTasks, hT, rfl⟩
    exact ⟨_, ⟨hL, rfl⟩, _, ⟨lt_of_le_of_lt (Nat.le_mul_of_pos_right _ hL) hJ, rfl⟩, _, ⟨hJ, rfl⟩,
      _, ⟨hC, rfl⟩, _, ⟨hN, rfl⟩, numTasks, hT, rfl⟩

theorem executeTask_eq_some {job : Job} {t p : Nat} : executeTask job t = some p ↔
    p = wrappingAdd job.unitPositionBase (wrappingMul t job.jumpLength) ∧
      (job.loaderCheckLevel = .comptime ∨ job.balancedWorkload = true ∨ p < job.numStageElements) := by
  unfold executeTask
  by_cases hc : job.loaderCheckLevel = .comptime <;> by_cases hb : job.balancedWorkload = true <;>
    simp [hc, hb, Option.ite_none_right_eq_some, @eq_comm _ p, and_comm]
  rintro rfl
  exact Iff.rfl

theorem unit_lt {x y : Nat} (hx : x < config.planeDim) (hy : y < config.numPlanes) :
    y * config.planeDim + x < totalUnits config :=
  calc y * config.planeDim + x < (y + 1) * config.planeDim := by rw [Nat.succ_mul]; omega
    _ ≤ config.numPlanes * config.planeDim := Nat.mul_le_mul_right _ hy
    _ = totalUnits config := Nat.mul_comm _ _

theorem line_lt {u t : Nat} (hu : u < totalUnits config) (ht : t < numTasks) :
    u + t * totalUnits config < numTasks * totalUnits config :=
  calc u + t * totalUnits config < (t + 1) * totalUnits config := by rw [Nat.succ_mul]; omega
    _ ≤ numTasks * totalUnits config := Nat.mul_le_mul_right _ ht

/-- Where the load's lines span fewer than `2 ^ 32` elements, the host values `new_job` and
`check` compute fit in `u32`. -/
theorem host_fits (hT : divCeil (totalNumLines config) (totalUnits config) = some numTasks)
    (hL : 0 < config.lineSize) (hNL : 0 < totalNumLines config)
    (hfit : numTasks * totalUnits config * config.lineSize < 2 ^ 32) :
    totalUnits config * config.lineSize < 2 ^ 32 ∧ config.tiling.tileCount < 2 ^ 32 ∧
      totalNumLines config < 2 ^ 32 := by
  obtain ⟨-, hge, -⟩ := divCeil_eq_some.1 hT
  have hTpos : 0 < numTasks := Nat.pos_of_ne_zero fun h => by rw [h, Nat.zero_mul] at hge; omega
  have hlines : totalNumLines config ≤ numTasks * totalUnits config * config.lineSize :=
    hge.trans (Nat.le_mul_of_pos_right _ hL)
  have htiles : config.tiling.tileCount ≤ totalNumLines config :=
    Nat.le_mul_of_pos_right _ (Nat.pos_of_ne_zero fun h => by simp [totalNumLines, h] at hNL)
  have hjump : totalUnits config * config.lineSize ≤ numTasks * totalUnits config * config.lineSize := by
    rw [Nat.mul_assoc]; exact Nat.le_mul_of_pos_left _ hTpos
  omega

/-- Inside such a load the device's `u32` arithmetic does not wrap: task `t` of unit `(x, y)`
is at the start of the line `y * plane_dim + x + t * U`. -/
theorem position_eq (hL : 0 < config.lineSize)
    (hfit : numTasks * totalUnits config * config.lineSize < 2 ^ 32) {x y t : Nat}
    (hx : x < config.planeDim) (hy : y < config.numPlanes) (ht : t < numTasks) :
    wrappingAdd (wrappingMul (wrappingAdd (wrappingMul y config.planeDim) x) config.lineSize)
        (wrappingMul t (totalUnits config * config.lineSize)) =
      (y * config.planeDim + x + t * totalUnits config) * config.lineSize := by
  have hline : (y * config.planeDim + x + t * totalUnits config) * config.lineSize < 2 ^ 32 :=
    lt_of_lt_of_le (Nat.mul_lt_mul_of_pos_right (line_lt (unit_lt hx hy) ht) hL) hfit.le
  have hsplit : (y * config.planeDim + x + t * totalUnits config) * config.lineSize =
      (y * config.planeDim + x) * config.lineSize + t * (totalUnits config * config.lineSize) := by
    rw [Nat.add_mul _ (t * _), Nat.mul_assoc]
  have hunit := Nat.le_mul_of_pos_right (y * config.planeDim + x) hL
  rw [wrappingMul_of_lt (a := y) (by omega), wrappingAdd_of_lt (a := y * config.planeDim) (by omega),
    wrappingMul_of_lt (a := y * config.planeDim + x) (by omega), wrappingMul_of_lt (a := t) (by omega),
    wrappingAdd_of_lt (by omega), hsplit]

/-- The stores of a whole load, position by position. -/
theorem stores_iff (hT : divCeil (totalNumLines config) (totalUnits config) = some numTasks)
    (hL : 0 < config.lineSize) (hNL : 0 < totalNumLines config)
    (hfit : numTasks * totalUnits config * config.lineSize < 2 ^ 32) {x y t p : Nat} :
    Stores level config bufferIndex x y t p ↔ x < config.planeDim ∧ y < config.numPlanes ∧
      t < numTasks ∧ p = (y * config.planeDim + x + t * totalUnits config) * config.lineSize ∧
      (Unguarded level config numTasks ∨ p < config.tiling.totalSize) := by
  constructor
  · rintro ⟨hx, hy, job, hjob, ht, hp⟩
    obtain ⟨-, -, -, -, numTasks', hT', rfl⟩ := newJob_eq_some.1 hjob
    obtain rfl : numTasks' = numTasks := Option.some_inj.1 (hT'.symm.trans hT)
    obtain ⟨hp, hg⟩ := executeTask_eq_some.1 hp
    exact ⟨hx, hy, ht, hp.trans (position_eq hL hfit hx hy ht),
      by simpa [Unguarded, or_assoc] using hg⟩
  · rintro ⟨hx, hy, ht, hp, hg⟩
    obtain ⟨hJ, hC, hN⟩ := host_fits hT hL hNL hfit
    exact ⟨hx, hy, _, newJob_eq_some.2 ⟨hL, hJ, hC, hN, numTasks, hT, rfl⟩, ht,
      executeTask_eq_some.2 ⟨hp.trans (position_eq hL hfit hx hy ht).symm,
        by simpa [Unguarded, or_assoc] using hg⟩⟩

/-- With whole lines per tile, a buffer's elements are its lines'. -/
theorem totalSize_eq (hdvd : config.lineSize ∣ config.tiling.tileSize) :
    config.tiling.totalSize = totalNumLines config * config.lineSize := by
  rw [totalNumLines, Nat.mul_assoc, Nat.div_mul_cancel hdvd, TilingDimensions.totalSize]

/-- A store of a line the load reaches passes the guard exactly when it is one of the lines the
load stores. -/
theorem guard_iff (hL : 0 < config.lineSize) (hdvd : config.lineSize ∣ config.tiling.tileSize)
    {m : Nat} (hm : m < numTasks * totalUnits config) :
    (Unguarded level config numTasks ∨ m * config.lineSize < config.tiling.totalSize) ↔
      m < storedLines level config numTasks := by
  rw [totalSize_eq hdvd, Nat.mul_lt_mul_right hL, storedLines]
  split <;> simp [*]

section Load

variable (hT : divCeil (totalNumLines config) (totalUnits config) = some numTasks)
  (hL : 0 < config.lineSize) (hdvd : config.lineSize ∣ config.tiling.tileSize)
  (hNL : 0 < totalNumLines config) (hfit : numTasks * totalUnits config * config.lineSize < 2 ^ 32)
include hT hL hdvd hNL hfit

/-- **The lines the cyclic loader stores.** Every store is at a whole line; no two pairs of a
unit and a task store at one position; and line `m` is stored exactly when
`m < storedLines`: `NL` lines if the store is guarded, `T * U` if it is not. -/
theorem stores_exactly_once :
    (∀ x y t p, Stores level config bufferIndex x y t p → config.lineSize ∣ p) ∧
    (∀ x y t x' y' t' p, Stores level config bufferIndex x y t p →
      Stores level config bufferIndex x' y' t' p → x = x' ∧ y = y' ∧ t = t') ∧
    ∀ m, (∃ x y t, Stores level config bufferIndex x y t (m * config.lineSize)) ↔
      m < storedLines level config numTasks := by
  have hU := (divCeil_eq_some.1 hT).1
  refine ⟨fun x y t p h => ?_, fun x y t x' y' t' p h h' => ?_, fun m => ⟨?_, fun hm => ?_⟩⟩
  · obtain ⟨-, -, -, rfl, -⟩ := (stores_iff hT hL hNL hfit).1 h
    exact Nat.dvd_mul_left _ _
  · obtain ⟨hx, hy, -, rfl, -⟩ := (stores_iff hT hL hNL hfit).1 h
    obtain ⟨hx', hy', -, hp, -⟩ := (stores_iff hT hL hNL hfit).1 h'
    obtain ⟨hu, rfl⟩ := mixedRadix_inj (unit_lt hx hy) (unit_lt hx' hy')
      (Nat.eq_of_mul_eq_mul_right hL hp)
    rw [Nat.add_comm _ x, Nat.add_comm _ x'] at hu
    obtain ⟨rfl, rfl⟩ := mixedRadix_inj hx hx' hu
    exact ⟨rfl, rfl, rfl⟩
  · rintro ⟨x, y, t, h⟩
    obtain ⟨hx, hy, ht, hp, hg⟩ := (stores_iff hT hL hNL hfit).1 h
    have hm := Nat.eq_of_mul_eq_mul_right hL hp
    have hlt := line_lt (unit_lt hx hy) ht
    rw [← hm] at hlt
    exact (guard_iff hL hdvd hlt).1 hg
  · have hpd : 0 < config.planeDim := Nat.pos_of_ne_zero fun h => by simp [totalUnits, h] at hU
    have hlt : m < numTasks * totalUnits config := by
      have := (divCeil_eq_some.1 hT).2.1
      unfold storedLines at hm; split at hm <;> omega
    refine ⟨m % totalUnits config % config.planeDim, m % totalUnits config / config.planeDim,
      m / totalUnits config, (stores_iff hT hL hNL hfit).2 ⟨Nat.mod_lt _ hpd, ?_, ?_, ?_, ?_⟩⟩
    · rw [Nat.div_lt_iff_lt_mul hpd, Nat.mul_comm]; exact Nat.mod_lt _ hU
    · rwa [Nat.div_lt_iff_lt_mul hU]
    · rw [Nat.div_add_mod', Nat.mod_add_div']
    · exact (guard_iff hL hdvd hlt).2 hm

/-- **When the cyclic loader stays in the buffer.** All stores are below `total_size` exactly
when the load stores no more lines than the buffer has. -/
theorem stores_in_bounds_iff :
    (∀ x y t p, Stores level config bufferIndex x y t p → p < config.tiling.totalSize) ↔
      storedLines level config numTasks ≤ totalNumLines config := by
  obtain ⟨hdvdp, -, hlines⟩ := @stores_exactly_once level config bufferIndex numTasks hT hL hdvd hNL hfit
  rw [totalSize_eq hdvd]
  constructor
  · intro h
    refine Nat.le_of_not_lt fun hlt => ?_
    obtain ⟨x, y, t, hs⟩ := (hlines _).2 hlt
    exact Nat.lt_irrefl _ (h x y t _ hs)
  · intro h x y t p hs
    obtain ⟨m, rfl⟩ := hdvdp x y t p hs
    rw [Nat.mul_comm, Nat.mul_lt_mul_right hL]
    exact Nat.lt_of_lt_of_le ((hlines m).1 ⟨x, y, t, by rwa [Nat.mul_comm]⟩) h

end Load

/-- The last position `check` computes is the start of line `T * U - 1`. -/
theorem maxPosition_eq (hU : 0 < totalUnits config) (hTpos : 0 < numTasks) :
    (totalUnits config - 1) * config.lineSize + (numTasks - 1) * (totalUnits config * config.lineSize) =
      (numTasks * totalUnits config - 1) * config.lineSize := by
  have hsub : numTasks * totalUnits config - 1 =
      (numTasks - 1) * totalUnits config + (totalUnits config - 1) := by
    obtain ⟨T', rfl⟩ := Nat.exists_eq_succ_of_ne_zero (Nat.pos_iff_ne_zero.1 hTpos)
    rw [Nat.succ_mul, Nat.succ_sub_one]; omega
  rw [hsub, Nat.add_mul, Nat.mul_assoc, Nat.add_comm]

/-- Where the load spans fewer than `2 ^ 32` elements, `check` at `Comptime` does not panic: it
compares the start of line `T * U - 1` with `total_size`. -/
theorem check_comptime_eq
    (hT : divCeil (totalNumLines config) (totalUnits config) = some numTasks)
    (hL : 0 < config.lineSize) (hNL : 0 < totalNumLines config)
    (hfit : numTasks * totalUnits config * config.lineSize < 2 ^ 32) :
    check .comptime config = some
      (if (numTasks * totalUnits config - 1) * config.lineSize > config.tiling.totalSize then
        .error "Too many data will be loaded, resulting in out-of-bounds" else .ok ()) := by
  obtain ⟨hU, hge, -⟩ := divCeil_eq_some.1 hT
  obtain ⟨hJ, -, hN⟩ := host_fits hT hL hNL hfit
  have hTpos : 0 < numTasks := Nat.pos_of_ne_zero fun h => by rw [h, Nat.zero_mul] at hge; omega
  have hmax := maxPosition_eq hU hTpos
  have hT₀ : divCeil (config.tiling.tileCount * (config.tiling.tileSize / config.lineSize))
      (config.planeDim * config.numPlanes) = some numTasks := hT
  have hbase : (totalUnits config - 1) * config.lineSize < 2 ^ 32 :=
    lt_of_le_of_lt (Nat.mul_le_mul_right _ (Nat.sub_le _ 1)) hJ
  have hjumps : (numTasks - 1) * (totalUnits config * config.lineSize) < 2 ^ 32 := by
    rw [← Nat.mul_assoc]
    exact lt_of_le_of_lt (Nat.mul_le_mul_right _ (Nat.mul_le_mul_right _ (Nat.sub_le _ 1))) hfit
  have hlast : (numTasks * totalUnits config - 1) * config.lineSize < 2 ^ 32 :=
    lt_of_le_of_lt (Nat.mul_le_mul_right _ (Nat.sub_le _ 1)) hfit
  unfold totalUnits at *
  simp only [check, checkedDiv_of_pos hL, checkedMul_of_lt (a := config.tiling.tileCount) hN,
    checkedMul_of_lt (a := config.planeDim) (lt_of_le_of_lt (Nat.le_mul_of_pos_right _ hL) hJ),
    checkedMul_of_lt (a := config.planeDim * config.numPlanes) hJ, hT₀, checkedSub_of_le (b := 1) hU,
    checkedSub_of_le (b := 1) hTpos, checkedMul_of_lt hbase, checkedMul_of_lt hjumps,
    Option.bind_eq_bind, Option.some_bind, checkedAdd_of_lt (hmax ▸ hlast), hmax, apply_ite some]

/-- **What `check` accepts.** At `Comptime`, on a buffer with lines whose load spans fewer than
`2 ^ 32` elements, `check` accepts exactly the loads of at most `NL + 1` lines. -/
theorem check_comptime_eq_ok_iff
    (hT : divCeil (totalNumLines config) (totalUnits config) = some numTasks)
    (hL : 0 < config.lineSize) (hdvd : config.lineSize ∣ config.tiling.tileSize)
    (hNL : 0 < totalNumLines config) (hfit : numTasks * totalUnits config * config.lineSize < 2 ^ 32) :
    check .comptime config = some (.ok ()) ↔ numTasks * totalUnits config ≤ totalNumLines config + 1 := by
  simp only [check_comptime_eq hT hL hNL hfit, totalSize_eq hdvd, gt_iff_lt, Nat.mul_lt_mul_right hL]
  split <;> simp only [Option.some_inj, reduceCtorEq, false_iff, true_iff] <;> omega

/-- What a whole cyclic load does: each store is at a whole line, by one unit and task only;
line `m` is stored exactly when `m < storedLines`; the stores stay below `total_size` exactly
when `storedLines <= NL`; and `check` at `Comptime` accepts exactly the loads of at most
`NL + 1` lines. -/
structure CyclicLoad (level : LoaderCheckLevel) (config : LoadConfig) (bufferIndex numTasks : Nat) :
    Prop where
  whole_lines : ∀ x y t p, Stores level config bufferIndex x y t p → config.lineSize ∣ p
  unique : ∀ x y t x' y' t' p, Stores level config bufferIndex x y t p →
    Stores level config bufferIndex x' y' t' p → x = x' ∧ y = y' ∧ t = t'
  stored_iff : ∀ m, (∃ x y t, Stores level config bufferIndex x y t (m * config.lineSize)) ↔
    m < storedLines level config numTasks
  in_bounds_iff : (∀ x y t p, Stores level config bufferIndex x y t p → p < config.tiling.totalSize) ↔
    storedLines level config numTasks ≤ totalNumLines config
  check_iff : check .comptime config = some (.ok ()) ↔
    numTasks * totalUnits config ≤ totalNumLines config + 1

/-- **The cyclic load.** On a buffer with lines and whole lines per tile, whose `T * U` lines
span fewer than `2 ^ 32` elements, every load is a `CyclicLoad`. -/
theorem cyclic_load_spec (hT : divCeil (totalNumLines config) (totalUnits config) = some numTasks)
    (hL : 0 < config.lineSize) (hdvd : config.lineSize ∣ config.tiling.tileSize)
    (hNL : 0 < totalNumLines config) (hfit : numTasks * totalUnits config * config.lineSize < 2 ^ 32) :
    CyclicLoad level config bufferIndex numTasks :=
  have h := @stores_exactly_once level config bufferIndex numTasks hT hL hdvd hNL hfit
  ⟨h.1, h.2.1, h.2.2, stores_in_bounds_iff hT hL hdvd hNL hfit,
    check_comptime_eq_ok_iff hT hL hdvd hNL hfit⟩

theorem cyclic_load_three_tiles :
    divCeil (totalNumLines ⟨⟨1, 3, 1⟩, 1, 2, 1, 2⟩) (totalUnits ⟨⟨1, 3, 1⟩, 1, 2, 1, 2⟩) = some 2 ∧
    0 < (⟨⟨1, 3, 1⟩, 1, 2, 1, 2⟩ : LoadConfig).lineSize ∧
    (⟨⟨1, 3, 1⟩, 1, 2, 1, 2⟩ : LoadConfig).lineSize ∣ (⟨⟨1, 3, 1⟩, 1, 2, 1, 2⟩ : LoadConfig).tiling.tileSize ∧
    0 < totalNumLines ⟨⟨1, 3, 1⟩, 1, 2, 1, 2⟩ ∧
    2 * totalUnits ⟨⟨1, 3, 1⟩, 1, 2, 1, 2⟩ * (⟨⟨1, 3, 1⟩, 1, 2, 1, 2⟩ : LoadConfig).lineSize < 2 ^ 32 ∧
    CyclicLoad .runtime ⟨⟨1, 3, 1⟩, 1, 2, 1, 2⟩ 0 2 := by
  refine ⟨?hT, ?hL, ?hdvd, ?hNL, ?hfit, cyclic_load_spec ?hT ?hL ?hdvd ?hNL ?hfit⟩ <;> decide

/-- Three tiles of one line, two units, lines of one element: `T = 2` tasks a unit and
`T % U = 0`. At either check level, `check` accepts, and unit `1` stores in its task `1` at
position `3`, the end of the buffer, in tile `3` of a buffer of three tiles. -/
theorem cyclic_stores_at_buffer_end (level : LoaderCheckLevel) :
    check level ⟨⟨1, 3, 1⟩, 1, 2, 1, 2⟩ = some (.ok ()) ∧
    Stores level ⟨⟨1, 3, 1⟩, 1, 2, 1, 2⟩ 0 1 0 1 3 ∧
    (⟨⟨1, 3, 1⟩, 1, 2, 1, 2⟩ : LoadConfig).tiling.totalSize = 3 ∧ tileLine 1 1 3 = (3, 0) :=
  ⟨by cases level <;> rfl, ⟨by decide, by decide, _, rfl, Nat.lt_succ_self 1, by cases level <;> rfl⟩,
    rfl, rfl⟩

end SyncBufferCyclic

end CubeCl.Linalg
