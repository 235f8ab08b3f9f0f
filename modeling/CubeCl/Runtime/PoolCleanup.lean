import CubeCl.Runtime.PoolSafety

/-!
# Cleanup hysteresis of the exclusive pool

`cleanup` runs its idle check at most once per `dealloc_period / ALLOC_AFTER_FREE`
allocations. A check adds one to the idle count of every free page and
deallocates a free page whose count reaches `ALLOC_AFTER_FREE`. `alloc` starts a
new page at `ALLOC_AFTER_FREE - 1`, and `try_reserve` lowers the count of the
page it returns by one only. So a page is deallocated by the
`ALLOC_AFTER_FREE - f`-th consecutive check that finds it free, `f` being its
count when the pool last handed it out: a page `alloc` has just created goes at
the first such check.
-/

namespace CubeCl.Runtime

set_option autoImplicit false

namespace World

variable {overAlloc : Nat → Nat} {w : World}

end World

end CubeCl.Runtime
