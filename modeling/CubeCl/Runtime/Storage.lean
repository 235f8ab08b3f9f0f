import Mathlib.Algebra.Order.Ring.Nat

/-!
# Storage handles and slices of the memory pools

The data a memory pool keeps per allocation (`storage/base.rs`,
`memory_pool/base.rs`, referenced from `memory_pool/exclusive_pool.rs`): a
`StorageHandle` is a window `{offset, size}` into a coarse buffer of the
storage, and a `Slice` pairs it with the `SliceHandle` that owns it and the
padding kept past its size. A `SliceHandle` is an `Arc`; the model keeps only
its id, and the strong count held outside the pool is passed as
`holders : SliceId → Nat`, so that `is_free` reads it as the code reads the
`Arc`'s count.
-/

namespace CubeCl.Runtime

set_option autoImplicit false

/-- The id of a coarse buffer, as `ComputeStorage::alloc` returns it. -/
abbrev StorageId := Nat

/-- The id of a `SliceHandle`, shared by all its clones and bindings. -/
abbrev SliceId := Nat

/-- `StorageUtilization`: the window of a buffer a handle may touch. -/
structure StorageUtilization where
  offset : Nat
  size : Nat
deriving DecidableEq, Repr

/-- `StorageHandle`: a buffer id and the window of it in use. -/
structure StorageHandle where
  id : StorageId
  utilization : StorageUtilization
deriving DecidableEq, Repr

/-- `StorageHandle::size`. -/
def StorageHandle.size (handle : StorageHandle) : Nat := handle.utilization.size

/-- `Slice`: a storage window, the handle owning it, and its padding. -/
structure Slice where
  storage : StorageHandle
  handle : SliceId
  padding : Nat
deriving DecidableEq, Repr

/-- `Slice::id`. -/
def Slice.id (slice : Slice) : SliceId := slice.handle

/-- `Slice::is_free`: the pool holds the only clone of the slice's handle. -/
def Slice.isFree (holders : SliceId → Nat) (slice : Slice) : Bool := holders slice.handle == 0

@[simp] theorem Slice.isFree_iff {holders : SliceId → Nat} {slice : Slice} :
    slice.isFree holders = true ↔ holders slice.handle = 0 := by
  simp [Slice.isFree]

/-- Modelled from the spec: `calculate_padding` (`memory_pool/base.rs`) is not in
the source. The spec describes padding as the bytes reserved past the logical
size to satisfy alignment: the distance from `size` up to the next multiple of
`alignment`, none when `size` is already aligned. -/
def calculatePadding (size alignment : Nat) : Nat :=
  if size % alignment = 0 then 0 else alignment - size % alignment

/-- `u64::next_multiple_of`, without its overflow (the pool checks that apart). -/
def nextMultipleOf (n m : Nat) : Nat :=
  if n % m = 0 then n else n + (m - n % m)

theorem add_calculatePadding (size alignment : Nat) :
    size + calculatePadding size alignment = nextMultipleOf size alignment := by
  unfold calculatePadding nextMultipleOf
  split <;> simp

theorem le_nextMultipleOf (n m : Nat) : n ≤ nextMultipleOf n m := by
  unfold nextMultipleOf
  split <;> omega

theorem nextMultipleOf_mod {n m : Nat} (hm : 0 < m) : nextMultipleOf n m % m = 0 := by
  unfold nextMultipleOf
  split
  · assumption
  · have hq := Nat.div_add_mod n m
    have hlt := Nat.mod_lt n hm
    have : n + (m - n % m) = m * (n / m + 1) := by rw [Nat.mul_succ]; omega
    rw [this, Nat.mul_mod_right]

/-- The next multiple of `m` is below every multiple of `m` that is at least `n`. -/
theorem nextMultipleOf_le {n m k : Nat} (hk : k % m = 0) (hn : n ≤ k) :
    nextMultipleOf n m ≤ k := by
  unfold nextMultipleOf
  split
  · exact hn
  · have hq := Nat.div_add_mod n m
    have hk' := Nat.div_add_mod k m
    have hle : n / m < k / m := by
      by_contra hc
      have : k / m ≤ n / m := by omega
      have := Nat.mul_le_mul_left m this
      omega
    have := Nat.mul_le_mul_left m (Nat.succ_le_of_lt hle)
    rw [Nat.mul_succ] at this
    omega

/-- A window of `size` bytes and its padding fit in any aligned page of at least `size` bytes. -/
theorem add_calculatePadding_le {size alignment allocSize : Nat}
    (haligned : allocSize % alignment = 0) (hsize : size ≤ allocSize) :
    size + calculatePadding size alignment ≤ allocSize := by
  rw [add_calculatePadding]
  exact nextMultipleOf_le haligned hsize

end CubeCl.Runtime
