import CubeCl.Linalg.Tiling
import Mathlib.Data.Nat.ModEq

/-!
# Tilewise loading of a stage buffer (`global/load/strategy/sync_buffer_tilewise.rs`)

Each plane loads `num_tiles_per_plane` consecutive tiles of one buffer of the stage.
The stage holds the `num_stages` buffers side by side: for `Lhs` a row of the stage is
`num_stages * stage_width` tiles, of which buffer `b` owns the columns
`b * stage_width ..`. The `i`-th tile of buffer `b` is then at
`stageTileIndex = (i / sw) * (num_stages * sw) + b * sw + i % sw` of the stage.

`new_job` splits the plane's first tile `y * num_tiles_per_plane` into a row and a column
of the buffer, and `execute_task` splits the tile of the task within the plane the same
way; the sum of the two does not carry a column past the buffer's width into the next
row. So the tile index `execute_task` computes is `stageTileIndex` less
`(num_stages - 1) * sw` whenever the two columns add up to `sw` or more
(`nthTileGlobal_add_carry`): the tile lands in the columns of buffer `b + 1`, one row
up. The products of comptime values run on the host in checked `u32`; the arithmetic on
`UNIT_POS_X`, `UNIT_POS_Y` and the task runs on the device and is exact here. The `println!`
lines of `new_job` change no state and are left out.
-/

namespace CubeCl.Linalg

set_option autoImplicit false

namespace SyncBufferTilewise

/-- `LoadingValidation::check`; `none` where the host arithmetic panics. -/
def check (config : LoadConfig) : Option (Except String Unit) := do
  let tiling := config.tiling
  let lineSize := config.lineSize
  let numPlanes := config.numPlanes
  let numTiles := tiling.tileCount
  if (← checkedRem numTiles numPlanes) ≠ 0 then
    return .error ("Number of planes " ++ toString numPlanes ++ " must divide number of tiles " ++
      toString numTiles ++ " for tilewise loading.")
  let numTilesPerPlane ← checkedDiv numTiles numPlanes
  let numLinesPerTile ← checkedDiv tiling.tileSize lineSize
  let numLinesPerPlane ← checkedMul numLinesPerTile numTilesPerPlane
  let numPlanes := config.planeDim
  if (← checkedRem numLinesPerPlane numPlanes) ≠ 0 then
    return .error ("Number of planes " ++ toString numPlanes ++
      " must divide number of lines per plane " ++ toString numLinesPerPlane ++
      " for tilewise loading.")
  return .ok ()

/-- `Job`. -/
structure Job where
  numTilesToSkip : Nat
  numLinesToSkip : Nat
  bufferIndex : Nat
  rowColStride : Nat
  stageWidth : Nat
  numLinesPerTile : Nat
  numLinesPerUnit : Nat
  planeDim : Nat
  lineSize : Nat
  inputIdent : InputIdent
deriving DecidableEq, Repr

/-- The width of a buffer in tiles, across the direction the buffers are laid side by side. -/
def stageWidth (tiling : TilingDimensions) : InputIdent → Nat
  | .lhs => tiling.tileCountCol
  | .rhs => tiling.tileCountRow

/-- `new_job` for the plane at `UNIT_POS_Y`; `none` where the host arithmetic panics. -/
def newJob (config : LoadConfig) (bufferIndex : Nat) (inputIdent : InputIdent) (unitPosY : Nat) :
    Option Job := do
  let tiling := config.tiling
  let lineSize := config.lineSize
  let numPlanes := config.numPlanes
  let numTiles := tiling.tileCount
  let planeDim := config.planeDim
  let numTilesPerPlane ← checkedDiv numTiles numPlanes
  let numLinesPerTile ← checkedDiv tiling.tileSize lineSize
  let numLinesPerPlane ← checkedMul numLinesPerTile numTilesPerPlane
  let numLinesPerUnit ← checkedDiv numLinesPerPlane planeDim
  let numStages := config.numStages
  let stageWidth := stageWidth tiling inputIdent
  let rowColStride ← checkedMul numStages stageWidth
  let bufferOffset ← checkedMul stageWidth bufferIndex
  let startingTileWithinStage := unitPosY * numTilesPerPlane
  let rowColIndex := startingTileWithinStage / stageWidth
  let innerOffset := startingTileWithinStage % stageWidth
  let numTilesToSkip := rowColIndex * rowColStride + innerOffset + bufferOffset
  let numLinesToSkip := numTilesToSkip * numLinesPerTile
  some ⟨numTilesToSkip, numLinesToSkip, bufferIndex, rowColStride, stageWidth, numLinesPerTile,
    numLinesPerUnit, config.planeDim, lineSize, inputIdent⟩

/-- The tile of the plane that task `taskId` of the unit at `UNIT_POS_X` loads. -/
def nthTileForThisPlane (job : Job) (unitPosX taskId : Nat) : Nat :=
  (taskId * job.planeDim + unitPosX) / job.numLinesPerTile

/-- `nth_tile_global` of `execute_task`: the tile of the stage the task stores into. -/
def nthTileGlobal (job : Job) (unitPosX taskId : Nat) : Nat :=
  let nthTileForThisPlane := nthTileForThisPlane job unitPosX taskId
  let rowColIndexLocal := nthTileForThisPlane / job.stageWidth
  let innerOffset := nthTileForThisPlane % job.stageWidth
  let numTilesToSkipLocal := rowColIndexLocal * job.rowColStride + innerOffset
  job.numTilesToSkip + numTilesToSkipLocal

/-- `execute_task` then `load_and_store_line`: the line of the stage the task writes, `offset`. -/
def executeTask (job : Job) (unitPosX taskId : Nat) : Nat :=
  let posAcrossTiles := taskId * job.planeDim + unitPosX
  let lineIndexWithinTile := posAcrossTiles % job.numLinesPerTile
  let numLinesToSkipGlobal := nthTileGlobal job unitPosX taskId * job.numLinesPerTile
  lineIndexWithinTile + numLinesToSkipGlobal

/-- The index in the stage of the `i`-th tile of buffer `bufferIndex`, taken row by row of the
buffer (`Lhs`) or column by column (`Rhs`). -/
def stageTileIndex (numStages stageWidth bufferIndex i : Nat) : Nat :=
  i / stageWidth * (numStages * stageWidth) + bufferIndex * stageWidth + i % stageWidth

/-- The buffer that owns a tile of the stage. -/
def bufferOfTile (numStages stageWidth n : Nat) : Nat := n % (numStages * stageWidth) / stageWidth

variable {config : LoadConfig} {bufferIndex : Nat} {inputIdent : InputIdent} {y : Nat} {job : Job}

theorem newJob_eq_some : newJob config bufferIndex inputIdent y = some job ↔
    0 < config.numPlanes ∧ 0 < config.lineSize ∧
      config.tiling.tileSize / config.lineSize * (config.tiling.tileCount / config.numPlanes) < 2 ^ 32 ∧
      0 < config.planeDim ∧ config.numStages * stageWidth config.tiling inputIdent < 2 ^ 32 ∧
      stageWidth config.tiling inputIdent * bufferIndex < 2 ^ 32 ∧
      job = ⟨y * (config.tiling.tileCount / config.numPlanes) / stageWidth config.tiling inputIdent *
          (config.numStages * stageWidth config.tiling inputIdent) +
          y * (config.tiling.tileCount / config.numPlanes) % stageWidth config.tiling inputIdent +
          stageWidth config.tiling inputIdent * bufferIndex,
        (y * (config.tiling.tileCount / config.numPlanes) / stageWidth config.tiling inputIdent *
          (config.numStages * stageWidth config.tiling inputIdent) +
          y * (config.tiling.tileCount / config.numPlanes) % stageWidth config.tiling inputIdent +
          stageWidth config.tiling inputIdent * bufferIndex) *
            (config.tiling.tileSize / config.lineSize),
        bufferIndex, config.numStages * stageWidth config.tiling inputIdent,
        stageWidth config.tiling inputIdent, config.tiling.tileSize / config.lineSize,
        config.tiling.tileSize / config.lineSize * (config.tiling.tileCount / config.numPlanes) /
          config.planeDim,
        config.planeDim, config.lineSize, inputIdent⟩ := by
  simp only [newJob, Option.bind_eq_bind, Option.bind_eq_some, checkedDiv_eq_some,
    checkedMul_eq_some, Option.some_inj]
  constructor
  · rintro ⟨_, ⟨hp, rfl⟩, _, ⟨hL, rfl⟩, _, ⟨hl, rfl⟩, _, ⟨hd, rfl⟩, _, ⟨hs, rfl⟩, _, ⟨hb, rfl⟩, rfl⟩
    exact ⟨hp, hL, hl, hd, hs, hb, rfl⟩
  · rintro ⟨hp, hL, hl, hd, hs, hb, rfl⟩
    exact ⟨_, ⟨hp, rfl⟩, _, ⟨hL, rfl⟩, _, ⟨hl, rfl⟩, _, ⟨hd, rfl⟩, _, ⟨hs, rfl⟩, _, ⟨hb, rfl⟩, rfl⟩

/-- **Where the tilewise loader stores.** Task `t` of unit `x` of the plane at `y` stores into
tile `stageTileIndex` of the plane's tile `y * num_tiles_per_plane + nth` of the buffer, less
`(num_stages - 1) * sw` where the columns of the plane's first tile and of `nth` add up to `sw`
or more. -/
theorem nthTileGlobal_add_carry (h : newJob config bufferIndex inputIdent y = some job)
    (hS : 0 < config.numStages) (hsw : 0 < stageWidth config.tiling inputIdent) (x t : Nat) :
    nthTileGlobal job x t +
        (if stageWidth config.tiling inputIdent ≤
            y * (config.tiling.tileCount / config.numPlanes) % stageWidth config.tiling inputIdent +
              nthTileForThisPlane job x t % stageWidth config.tiling inputIdent
          then (config.numStages - 1) * stageWidth config.tiling inputIdent else 0) =
      stageTileIndex config.numStages (stageWidth config.tiling inputIdent) bufferIndex
        (y * (config.tiling.tileCount / config.numPlanes) + nthTileForThisPlane job x t) := by
  obtain ⟨-, -, -, -, -, -, rfl⟩ := newJob_eq_some.1 h
  simp only [nthTileGlobal, stageTileIndex]
  generalize nthTileForThisPlane _ x t = c
  generalize y * (config.tiling.tileCount / config.numPlanes) = a
  generalize stageWidth config.tiling inputIdent = sw at hsw ⊢
  generalize config.numStages = S at hS ⊢
  obtain ⟨S, rfl⟩ := Nat.exists_eq_succ_of_ne_zero (Nat.pos_iff_ne_zero.1 hS)
  split
  · rename_i hc
    have hmod := Nat.add_mod_add_of_le_add_mod hc
    rw [Nat.add_div_eq_of_le_mod_add_mod hc hsw]
    simp only [Nat.succ_sub_one, Nat.succ_mul, Nat.add_mul, Nat.one_mul, Nat.mul_comm sw bufferIndex]
    omega
  · rename_i hc
    rw [Nat.add_div_eq_of_add_mod_lt (Nat.lt_of_not_le hc),
      Nat.add_mod_of_add_mod_lt (Nat.lt_of_not_le hc)]
    simp only [Nat.add_mul, Nat.mul_comm sw bufferIndex]
    omega

/-- Where `stage_width` divides `num_tiles_per_plane`, no column carries, and every task stores
into `stageTileIndex` of its tile of the buffer. -/
theorem nthTileGlobal_eq_of_dvd (h : newJob config bufferIndex inputIdent y = some job)
    (hS : 0 < config.numStages) (hsw : 0 < stageWidth config.tiling inputIdent)
    (hdvd : stageWidth config.tiling inputIdent ∣ config.tiling.tileCount / config.numPlanes)
    (x t : Nat) :
    nthTileGlobal job x t =
      stageTileIndex config.numStages (stageWidth config.tiling inputIdent) bufferIndex
        (y * (config.tiling.tileCount / config.numPlanes) + nthTileForThisPlane job x t) := by
  rw [← nthTileGlobal_add_carry h hS hsw, Nat.mul_mod, Nat.mod_eq_zero_of_dvd hdvd, Nat.mul_zero,
    Nat.zero_mod, Nat.zero_add, if_neg (Nat.not_le_of_lt (Nat.mod_lt _ hsw)), Nat.add_zero]

theorem tilewise_index_two_planes :
    newJob ⟨⟨1, 4, 2⟩, 1, 1, 2, 2⟩ 0 .lhs 1 = some ⟨8, 8, 0, 4, 2, 1, 4, 1, 1, .lhs⟩ ∧
    0 < 2 ∧ 0 < 2 ∧ 2 ∣ 8 / 2 ∧
    nthTileGlobal ⟨8, 8, 0, 4, 2, 1, 4, 1, 1, .lhs⟩ 0 3 =
      stageTileIndex 2 2 0 (1 * (8 / 2) + nthTileForThisPlane ⟨8, 8, 0, 4, 2, 1, 4, 1, 1, .lhs⟩ 0 3) := by
  refine ⟨?h, ?hS, ?hsw, ?hdvd, nthTileGlobal_eq_of_dvd ?h ?hS ?hsw ?hdvd 0 3⟩ <;> decide

/-- Six `Lhs` tiles in three rows of two, two planes of one unit, lines of one element, two
stages: `check` accepts; plane `1` starts at tile `3` of buffer `0`, and its task `1` loads the
buffer's tile `4`, which is tile `8` of the stage, but stores into tile `6`, which buffer `1`
owns; and no task of the load stores into tile `8`. -/
theorem tilewise_stores_into_next_buffer :
    check ⟨⟨1, 3, 2⟩, 1, 1, 2, 2⟩ = some (.ok ()) ∧
    (newJob ⟨⟨1, 3, 2⟩, 1, 1, 2, 2⟩ 0 .lhs 1).map
      (fun job => (job.numLinesPerUnit, nthTileForThisPlane job 0 1, nthTileGlobal job 0 1)) =
      some (3, 1, 6) ∧
    stageTileIndex 2 2 0 (1 * 3 + 1) = 8 ∧ bufferOfTile 2 2 6 = 1 ∧
    ∀ y < 2, ∀ t < 3,
      (newJob ⟨⟨1, 3, 2⟩, 1, 1, 2, 2⟩ 0 .lhs y).map (nthTileGlobal · 0 t) ≠ some 8 :=
  ⟨rfl, rfl, rfl, rfl, by decide⟩

end SyncBufferTilewise

end CubeCl.Linalg
