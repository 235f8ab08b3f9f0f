import CubeCl.Linalg.SyncBufferTilewise

/-!
# Full-stage tilewise and ordered loading (`global/load/strategy/sync_full_tilewise.rs`,
`sync_full_ordered.rs`)

Plane `y` loads the `num_tiles_per_plane` consecutive tiles from `y * num_tiles_per_plane`
on: its `plane_dim` units load the plane's `num_lines_per_plane` lines in turn, unit `x` in
its task `t` the line `t * plane_dim + x` of the plane. `execute_task` splits that into a tile
of the plane and a line within the tile, and `load_and_store_line` writes the line read from
that tile at `offset = num_lines_to_skip + line_index_within_tile + nth_tile_for_this_plane *
num_lines_per_tile`. The ordered strategy is the same job under more checks. The products of
comptime values run on the host in checked `u32`.

The offset is `y * num_lines_per_plane + t * plane_dim + x` (`offset_eq`), so on every
configuration `check` accepts, the tasks of the cube write each line of the stage once
(`sync_full_stores_each_line_once`), each in the slot of the tile it was read from. The
arithmetic on `UNIT_POS_X`, `UNIT_POS_Y` and the task runs on the device and is exact here.
-/

namespace CubeCl.Linalg

set_option autoImplicit false

namespace SyncFullTilewise

/-- `LoadingValidation::check`, the same code as `sync_buffer_tilewise`'s. -/
def check (config : LoadConfig) : Option (Except String Unit) :=
  SyncBufferTilewise.check config

/-- `Job`. -/
structure Job where
  numTilesToSkip : Nat
  numLinesToSkip : Nat
  numLinesPerTile : Nat
  numLinesPerUnit : Nat
  planeDim : Nat
  lineSize : Nat
  inputIdent : InputIdent
deriving DecidableEq, Repr

/-- `new_job` for the plane at `UNIT_POS_Y`; `none` where the host arithmetic panics. -/
def newJob (config : LoadConfig) (inputIdent : InputIdent) (unitPosY : Nat) : Option Job := do
  let tiling := config.tiling
  let lineSize := config.lineSize
  let numPlanes := config.numPlanes
  let numTiles := tiling.tileCount
  let planeDim := config.planeDim
  let numTilesPerPlane ← checkedDiv numTiles numPlanes
  let numLinesPerTile ← checkedDiv tiling.tileSize lineSize
  let numLinesPerPlane ← checkedMul numLinesPerTile numTilesPerPlane
  let numLinesPerUnit ← checkedDiv numLinesPerPlane planeDim
  let numTilesToSkip := unitPosY * numTilesPerPlane
  let numLinesToSkip := numTilesToSkip * numLinesPerTile
  some ⟨numTilesToSkip, numLinesToSkip, numLinesPerTile, numLinesPerUnit, config.planeDim, lineSize,
    inputIdent⟩

/-- What one task does: it reads the line at `readPosition` of tile `nthTileGlobal` (placed in
the stage by `to_x_y`) and writes it at line `offset` of the stage. -/
structure Store where
  nthTileGlobal : Nat
  lineIndexWithinTile : Nat
  readPosition : Nat
  offset : Nat
deriving DecidableEq, Repr

/-- `execute_task` then `load_and_store_line`, for the unit at `UNIT_POS_X`. -/
def Job.executeTask (job : Job) (unitPosX taskId : Nat) : Store :=
  let posAcrossTiles := taskId * job.planeDim + unitPosX
  let nthTileForThisPlane := posAcrossTiles / job.numLinesPerTile
  let lineIndexWithinTile := posAcrossTiles % job.numLinesPerTile
  let nthTileGlobal := nthTileForThisPlane + job.numTilesToSkip
  let numLinesToSkipLocal := nthTileForThisPlane * job.numLinesPerTile
  ⟨nthTileGlobal, lineIndexWithinTile, lineIndexWithinTile * job.lineSize,
    job.numLinesToSkip + lineIndexWithinTile + numLinesToSkipLocal⟩

/-- Unit `(x, y)` of the cube, in its task `t`, makes the store `s`, with the jobs `newJob`
creates. -/
def Stores (newJob : LoadConfig → InputIdent → Nat → Option Job) (config : LoadConfig)
    (inputIdent : InputIdent) (x y t : Nat) (s : Store) : Prop :=
  x < config.planeDim ∧ y < config.numPlanes ∧
    ∃ job, newJob config inputIdent y = some job ∧ t < job.numLinesPerUnit ∧ job.executeTask x t = s

/-- What a full-stage load is for: each task writes the line it read into the slot of the tile
it read it from, inside the stage, and each line of the stage is written by exactly one task. -/
structure LoadsEachLineOnce (newJob : LoadConfig → InputIdent → Nat → Option Job)
    (config : LoadConfig) (inputIdent : InputIdent) : Prop where
  in_slot : ∀ x y t s, Stores newJob config inputIdent x y t s →
    s.offset = s.nthTileGlobal * (config.tiling.tileSize / config.lineSize) + s.lineIndexWithinTile ∧
    s.lineIndexWithinTile < config.tiling.tileSize / config.lineSize ∧
    s.readPosition + config.lineSize ≤ config.tiling.tileSize ∧
    s.offset < config.tiling.tileCount * (config.tiling.tileSize / config.lineSize)
  covers : ∀ o < config.tiling.tileCount * (config.tiling.tileSize / config.lineSize),
    ∃ x y t s, Stores newJob config inputIdent x y t s ∧ s.offset = o
  once : ∀ x y t s x' y' t' s', Stores newJob config inputIdent x y t s →
    Stores newJob config inputIdent x' y' t' s' → s.offset = s'.offset → x = x' ∧ y = y' ∧ t = t'

variable {config : LoadConfig} {inputIdent : InputIdent}

/-- The configurations `check` accepts. -/
theorem check_eq_ok_iff : check config = some (.ok ()) ↔
    0 < config.numPlanes ∧ config.tiling.tileCount % config.numPlanes = 0 ∧ 0 < config.lineSize ∧
      config.tiling.tileSize / config.lineSize * (config.tiling.tileCount / config.numPlanes) < 2 ^ 32 ∧
      0 < config.planeDim ∧
      config.tiling.tileSize / config.lineSize * (config.tiling.tileCount / config.numPlanes) %
        config.planeDim = 0 := by
  simp only [check, SyncBufferTilewise.check, checkedRem, checkedDiv, checkedMul, Nat.pos_iff_ne_zero]
  by_cases h1 : config.numPlanes = 0
  · simp [h1]
  by_cases h2 : config.tiling.tileCount % config.numPlanes = 0
  swap
  · simp [h1, h2]
  by_cases h3 : config.lineSize = 0
  · simp [h1, h2, h3]
  by_cases h5 : config.tiling.tileSize / config.lineSize * (config.tiling.tileCount / config.numPlanes) <
    2 ^ 32
  swap
  · simp [h1, h2, h3, h5, -Nat.reducePow]
  by_cases h4 : config.planeDim = 0 <;> simp [h1, h2, h3, h4, h5, -Nat.reducePow]

theorem newJob_eq_some {y : Nat} {job : Job} : newJob config inputIdent y = some job ↔
    0 < config.numPlanes ∧ 0 < config.lineSize ∧
      config.tiling.tileSize / config.lineSize * (config.tiling.tileCount / config.numPlanes) < 2 ^ 32 ∧
      0 < config.planeDim ∧
      job = ⟨y * (config.tiling.tileCount / config.numPlanes),
        y * (config.tiling.tileCount / config.numPlanes) * (config.tiling.tileSize / config.lineSize),
        config.tiling.tileSize / config.lineSize,
        config.tiling.tileSize / config.lineSize * (config.tiling.tileCount / config.numPlanes) /
          config.planeDim,
        config.planeDim, config.lineSize, inputIdent⟩ := by
  simp only [newJob, Option.bind_eq_bind, Option.bind_eq_some, checkedDiv_eq_some,
    checkedMul_eq_some, Option.some_inj]
  constructor
  · rintro ⟨_, ⟨hp, rfl⟩, _, ⟨hL, rfl⟩, _, ⟨hl, rfl⟩, _, ⟨hd, rfl⟩, rfl⟩
    exact ⟨hp, hL, hl, hd, rfl⟩
  · rintro ⟨hp, hL, hl, hd, rfl⟩
    exact ⟨_, ⟨hp, rfl⟩, _, ⟨hL, rfl⟩, _, ⟨hl, rfl⟩, _, ⟨hd, rfl⟩, rfl⟩

/-- A task writes the job's first line plus its own line of the plane, `t * plane_dim + x`. -/
theorem offset_executeTask (job : Job) (x t : Nat) :
    (job.executeTask x t).offset = job.numLinesToSkip + (t * job.planeDim + x) := by
  have := Nat.mod_add_div' (t * job.planeDim + x) job.numLinesPerTile
  simp only [Job.executeTask]
  omega

/-- Where the job skips whole tiles, a task writes the line of its tile at the line within the
tile it read. -/
theorem offset_eq_slot (job : Job) (hskip : job.numLinesToSkip = job.numTilesToSkip * job.numLinesPerTile)
    (x t : Nat) : (job.executeTask x t).offset =
      (job.executeTask x t).nthTileGlobal * job.numLinesPerTile + (job.executeTask x t).lineIndexWithinTile := by
  simp only [Job.executeTask, hskip, Nat.add_mul]
  omega

/-- `t * plane_dim + x`, for a task and a unit of the plane, is a line of the plane. -/
theorem line_of_plane_lt {x t d u : Nat} (hx : x < d) (ht : t < u) : t * d + x < u * d :=
  calc t * d + x < (t + 1) * d := by rw [Nat.succ_mul]; omega
    _ ≤ u * d := Nat.mul_le_mul_right _ ht

/-- On a configuration `check` accepts, with whole lines per tile, every task writes its line
into the slot of its tile and the tasks of the cube write each line of the stage once. -/
theorem loadsEachLineOnce (hcheck : check config = some (.ok ()))
    (hdvd : config.lineSize ∣ config.tiling.tileSize) : LoadsEachLineOnce newJob config inputIdent := by
  obtain ⟨hp, htiles, hL, hfit, hd, hlines⟩ := check_eq_ok_iff.1 hcheck
  generalize hn : config.tiling.tileSize / config.lineSize = n at hlines hfit
  generalize hP : config.tiling.tileCount / config.numPlanes = P at hlines hfit
  have hT : config.tiling.tileCount = config.numPlanes * P := by
    rw [← hP, Nat.mul_div_cancel' (Nat.dvd_of_mod_eq_zero htiles)]
  have hU : n * P / config.planeDim * config.planeDim = n * P := Nat.div_mul_cancel (Nat.dvd_of_mod_eq_zero hlines)
  have hsize : n * config.lineSize = config.tiling.tileSize := by rw [← hn, Nat.div_mul_cancel hdvd]
  have hstores : ∀ {x y t s}, Stores newJob config inputIdent x y t s ↔ x < config.planeDim ∧
      y < config.numPlanes ∧ t < n * P / config.planeDim ∧
      s = (⟨y * P, y * P * n, n, n * P / config.planeDim, config.planeDim, config.lineSize,
        inputIdent⟩ : Job).executeTask x t := by
    intro x y t s
    simp only [Stores, newJob_eq_some, hn, hP]
    constructor
    · rintro ⟨hx, hy, _, ⟨-, -, -, -, rfl⟩, ht, rfl⟩
      exact ⟨hx, hy, ht, rfl⟩
    · rintro ⟨hx, hy, ht, rfl⟩
      exact ⟨hx, hy, _, ⟨hp, hL, hfit, hd, rfl⟩, ht, rfl⟩
  have hoffset : ∀ {x y t s}, Stores newJob config inputIdent x y t s →
      s.offset = t * config.planeDim + x + y * (n * P) ∧ t * config.planeDim + x < n * P := by
    intro x y t s h
    obtain ⟨hx, -, ht, rfl⟩ := hstores.1 h
    refine ⟨?_, hU ▸ line_of_plane_lt hx ht⟩
    rw [offset_executeTask]
    simp only [Nat.mul_comm y, Nat.mul_assoc, Nat.mul_comm n P]
    omega
  refine ⟨fun x y t s h => ?in_slot, fun o ho => ?covers, fun x y t s x' y' t' s' h h' he => ?once⟩
  case in_slot =>
    rw [hn, hT, ← hsize, Nat.mul_assoc]
    obtain ⟨hs, hpos⟩ := hoffset h
    obtain ⟨-, hy, -, rfl⟩ := hstores.1 h
    have hn0 : 0 < n := Nat.pos_of_ne_zero fun h0 => by simp [h0] at hpos
    have hli := Nat.mod_lt (t * config.planeDim + x) hn0
    have hread : ((t * config.planeDim + x) % n + 1) * config.lineSize ≤ n * config.lineSize :=
      Nat.mul_le_mul_right _ hli
    have hlt : t * config.planeDim + x + y * (n * P) < config.numPlanes * (P * n) := by
      rw [Nat.mul_comm P n]
      calc t * config.planeDim + x + y * (n * P) < (y + 1) * (n * P) := by rw [Nat.succ_mul]; omega
        _ ≤ config.numPlanes * (n * P) := Nat.mul_le_mul_right _ hy
    refine ⟨offset_eq_slot _ rfl x t, hli, ?_, hs ▸ hlt⟩
    simp only [Job.executeTask, Nat.succ_mul] at hread ⊢
    omega
  case covers =>
    rw [hn, hT, Nat.mul_assoc] at ho
    have hNP : 0 < n * P := Nat.pos_of_ne_zero fun h0 => by simp [Nat.mul_comm P n, h0] at ho
    have hy : o / (n * P) < config.numPlanes := (Nat.div_lt_iff_lt_mul hNP).2 (by rwa [Nat.mul_comm P n] at ho)
    have hpos := Nat.mod_lt o hNP
    have ht : o % (n * P) / config.planeDim < n * P / config.planeDim :=
      (Nat.div_lt_iff_lt_mul hd).2 (by rwa [hU])
    refine ⟨o % (n * P) % config.planeDim, _, _, _, hstores.2 ⟨Nat.mod_lt _ hd, hy, ht, rfl⟩, ?_⟩
    rw [offset_executeTask]
    have := Nat.mod_add_div' (o % (n * P)) config.planeDim
    have := Nat.mod_add_div' o (n * P)
    rw [show o / (n * P) * P * n = o / (n * P) * (n * P) by rw [Nat.mul_assoc, Nat.mul_comm P n]]
    dsimp only
    omega
  case once =>
    obtain ⟨hx, -, -, -⟩ := hstores.1 h
    obtain ⟨hx', -, -, -⟩ := hstores.1 h'
    obtain ⟨hs, hpos⟩ := hoffset h
    obtain ⟨hs', hpos'⟩ := hoffset h'
    obtain ⟨hline, rfl⟩ := mixedRadix_inj hpos hpos' (hs ▸ hs' ▸ he)
    obtain ⟨rfl, rfl⟩ := mixedRadix_inj hx hx' (by rw [Nat.add_comm x, Nat.add_comm x']; exact hline)
    exact ⟨rfl, rfl, rfl⟩

end SyncFullTilewise

namespace SyncFullOrdered

open SyncFullTilewise (Job)

/-- `LoadingValidation::check`; `none` where the host arithmetic panics. -/
def check (config : LoadConfig) (ident : Ident) : Option (Except String Unit) := do
  if ident ≠ .lhs then
    return .error "Ordered loading only available on Lhs"
  let tiling := config.tiling
  let lineSize := config.lineSize
  let numPlanes := config.numPlanes
  let numTiles := tiling.tileCount
  if (← checkedRem numTiles numPlanes) ≠ 0 then
    return .error ("Number of planes " ++ toString numPlanes ++ " must divide number of tiles " ++
      toString numTiles ++ " for ordered loading.")
  let numTilesPerPlane ← checkedDiv numTiles numPlanes
  let numLinesPerTile ← checkedDiv tiling.tileSize lineSize
  let numLinesPerPlane ← checkedMul numLinesPerTile numTilesPerPlane
  let numPlanes := config.numPlanes
  let planeDim := config.planeDim
  let rowsPerPlane ← checkedDiv tiling.tileCountRow numPlanes
  if (← checkedRem numLinesPerPlane planeDim) ≠ 0 then
    return .error ("Plane dimension " ++ toString planeDim ++
      " must divide number of lines per plane " ++ toString numLinesPerPlane ++
      " for ordered loading.")
  if numTilesPerPlane ≠ (← checkedMul rowsPerPlane tiling.tileCountCol) then
    return .error ("Number of tiles per plane " ++ toString numTilesPerPlane ++
      " must equal rows_per_plane " ++ toString rowsPerPlane ++ " times cols " ++
      toString tiling.tileCountCol ++ " for ordered loading.")
  return .ok ()

/-- `new_job`: the tilewise job, under the `OrderedTilingOrder`; its `println!` lines change
no state. -/
def newJob (config : LoadConfig) (inputIdent : InputIdent) (unitPosY : Nat) : Option Job :=
  SyncFullTilewise.newJob config inputIdent unitPosY

/-- The configurations `check` accepts: the tilewise ones, on `Lhs`, whose planes each load
whole rows of tiles. -/
theorem check_eq_ok_iff {config : LoadConfig} {ident : Ident} : check config ident = some (.ok ()) ↔
    ident = .lhs ∧ 0 < config.numPlanes ∧ config.tiling.tileCount % config.numPlanes = 0 ∧
      0 < config.lineSize ∧
      config.tiling.tileSize / config.lineSize * (config.tiling.tileCount / config.numPlanes) < 2 ^ 32 ∧
      0 < config.planeDim ∧
      config.tiling.tileSize / config.lineSize * (config.tiling.tileCount / config.numPlanes) %
        config.planeDim = 0 ∧
      config.tiling.tileCountRow / config.numPlanes * config.tiling.tileCountCol < 2 ^ 32 ∧
      config.tiling.tileCount / config.numPlanes =
        config.tiling.tileCountRow / config.numPlanes * config.tiling.tileCountCol := by
  simp only [check, checkedRem, checkedDiv, checkedMul, Nat.pos_iff_ne_zero]
  cases ident
  case rhs | out => simp
  by_cases h1 : config.numPlanes = 0
  · simp [h1]
  by_cases h2 : config.tiling.tileCount % config.numPlanes = 0
  swap
  · simp [h1, h2]
  by_cases h3 : config.lineSize = 0
  · simp [h1, h2, h3]
  by_cases h5 : config.tiling.tileSize / config.lineSize * (config.tiling.tileCount / config.numPlanes) <
    2 ^ 32
  swap
  · simp [h1, h2, h3, h5, -Nat.reducePow]
  by_cases h4 : config.planeDim = 0
  · simp [h1, h2, h3, h4, h5, -Nat.reducePow]
  simp [h1, h2, h3, h4, h5, -Nat.reducePow]
  split_ifs <;> simp_all

end SyncFullOrdered

/-- **Full-stage loads store each line once.** On every configuration the respective `check`
accepts, with whole lines per tile, the tasks of the cube of both `sync_full_tilewise` and
`sync_full_ordered` write each line of the stage exactly once, each into the slot of the tile
it was read from. -/
theorem sync_full_stores_each_line_once {config : LoadConfig} {inputIdent : InputIdent}
    (hdvd : config.lineSize ∣ config.tiling.tileSize) :
    (SyncFullTilewise.check config = some (.ok ()) →
      SyncFullTilewise.LoadsEachLineOnce SyncFullTilewise.newJob config inputIdent) ∧
    (∀ ident, SyncFullOrdered.check config ident = some (.ok ()) →
      SyncFullTilewise.LoadsEachLineOnce SyncFullOrdered.newJob config inputIdent) := by
  refine ⟨fun h => SyncFullTilewise.loadsEachLineOnce h hdvd, fun ident h => ?_⟩
  obtain ⟨-, hp, htiles, hL, hfit, hd, hlines, -⟩ := SyncFullOrdered.check_eq_ok_iff.1 h
  exact SyncFullTilewise.loadsEachLineOnce
    (SyncFullTilewise.check_eq_ok_iff.2 ⟨hp, htiles, hL, hfit, hd, hlines⟩) hdvd

/-- A stage of `2 x 2` tiles of `16` elements in lines of `4`, loaded by two planes of two
units: both `check`s accept it, and both loads store each line once. -/
theorem sync_full_stores_two_planes :
    4 ∣ 16 ∧ SyncFullTilewise.check ⟨⟨16, 2, 2⟩, 4, 2, 2, 1⟩ = some (.ok ()) ∧
    SyncFullTilewise.LoadsEachLineOnce SyncFullTilewise.newJob ⟨⟨16, 2, 2⟩, 4, 2, 2, 1⟩ .lhs ∧
    SyncFullOrdered.check ⟨⟨16, 2, 2⟩, 4, 2, 2, 1⟩ .lhs = some (.ok ()) ∧
    SyncFullTilewise.LoadsEachLineOnce SyncFullOrdered.newJob ⟨⟨16, 2, 2⟩, 4, 2, 2, 1⟩ .lhs :=
  have h := @sync_full_stores_each_line_once ⟨⟨16, 2, 2⟩, 4, 2, 2, 1⟩ .lhs (by decide)
  ⟨by decide, rfl, h.1 rfl, rfl, h.2 .lhs rfl⟩

end CubeCl.Linalg
