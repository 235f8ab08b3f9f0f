import CubeCl.Runtime.Storage
import CubeCl.Runtime.ExclusivePool
import CubeCl.Runtime.PoolWorld
import CubeCl.Runtime.PoolInvariant
import CubeCl.Runtime.PoolSafety
import CubeCl.Runtime.PoolCleanup
import CubeCl.Runtime.PoolLayout
import CubeCl.Common.KernelId
import CubeCl.Runtime.TimestampProfiler
import CubeCl.Linalg.Tiling
import CubeCl.Linalg.SyncBufferCyclic
import CubeCl.Linalg.SyncBufferTilewise
import CubeCl.Linalg.DoubleBuffering
import CubeCl.Matmul.TilingScheme
import CubeCl.Matmul.DoubleBuffering
import CubeCl.Linalg.SyncFull
import CubeCl.Cpp.Body
import CubeCl.Core.LineSize
import CubeCl.Reduce.ArgMax
import CubeCl.Cpp.Warp
import CubeCl.Runtime.FeatureSet
import CubeCl.Linalg.AsyncFull
import CubeCl.Linalg.Cmma
import CubeCl.Core.F32
import CubeCl.Core.CubeCount
