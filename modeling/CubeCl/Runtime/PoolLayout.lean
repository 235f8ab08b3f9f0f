import CubeCl.Runtime.PoolWorld
import Mathlib.Algebra.Order.BigOperators.Group.List
import Mathlib.Algebra.Order.Group.Nat

/-!
# Page layout of the exclusive pool

Every page of a run keeps the layout `alloc_page` gives it and `try_reserve`
restores: an aligned page size, a window at offset zero, and a window plus its
padding within the page. This needs the over-allocation to be at least the
request, which the `f64` product `round(size * 1.35)` is for the sizes the
runs use (`Op.Fits`). `get_memory_usage` then never reports more bytes in use
and in padding than reserved.
-/

namespace CubeCl.Runtime

set_option autoImplicit false

/-- The layout a page keeps, for the pool's alignment. -/
structure MemoryPage.WellLaid (alignment : Nat) (page : MemoryPage) : Prop where
  aligned : page.allocSize % alignment = 0
  offset_zero : page.slice.storage.utilization.offset = 0
  padding_eq : page.slice.padding = calculatePadding page.slice.storage.size alignment
  fits : page.slice.storage.size + page.slice.padding ≤ page.allocSize

/-- The requests of a run for which the over-allocation is at least the request. -/
def Op.Fits (overAlloc : Nat → Nat) : Op → Prop
  | .alloc size _ _ => size ≤ overAlloc size
  | _ => True

namespace World

variable {overAlloc : Nat → Nat} {w w' : World}

/-- Every page of the world is well laid for the pool's alignment. -/
def WellLaid (w : World) : Prop := ∀ page ∈ w.pool.pages, page.WellLaid w.pool.alignment

/-- A page narrowed by `try_reserve` to a request it holds is well laid. -/
theorem wellLaid_reserve {alignment size : Nat} {page : MemoryPage}
    (hpage : page.WellLaid alignment) (hsize : size ≤ page.allocSize) :
    (page.reserve size (calculatePadding size alignment)).WellLaid alignment :=
  ⟨hpage.aligned, rfl, rfl, add_calculatePadding_le hpage.aligned hsize⟩

theorem wellLaid_step (hw : w.WellLaid) {op : Op} (hfits : op.Fits overAlloc)
    (h : w.step overAlloc op = some w') : w'.WellLaid := by
  cases op with
  | tryReserve size =>
    obtain rfl | ⟨i, page, hfp, rfl⟩ := step_tryReserve_cases h
    · exact hw
    obtain ⟨hi, hsize, -, -⟩ := ExclusiveMemoryPool.getFreePage_eq_some hfp
    intro q hq
    rcases List.mem_or_eq_of_mem_set hq with hq | rfl
    · exact hw q hq
    · exact wellLaid_reserve (hw page (List.getElem?_mem hi)) hsize
  | alloc size storage handle =>
    simp only [step, Option.map_eq_some'] at h
    obtain ⟨r, hr, rfl⟩ := h
    obtain ⟨-, -, rfl⟩ := ExclusiveMemoryPool.alloc_eq_some.1 hr
    intro q hq
    simp only [handOut_pool, List.mem_append, List.mem_singleton] at hq
    rcases hq with hq | rfl
    · exact hw q hq
    · exact ⟨nextMultipleOf_mod w.pool.alignment_pos, rfl, rfl,
        add_calculatePadding_le (nextMultipleOf_mod w.pool.alignment_pos)
          (Nat.le_trans hfits (le_nextMultipleOf _ _))⟩
  | cleanup allocNr =>
    simp only [step, Option.map_eq_some'] at h
    obtain ⟨r, hr, rfl⟩ := h
    obtain ⟨-, ⟨-, rfl⟩ | ⟨-, rfl⟩⟩ := ExclusiveMemoryPool.cleanup_eq_some hr
    · exact hw
    · intro q hq
      obtain ⟨p, hp, hpq⟩ := List.mem_filterMap.1 hq
      obtain ⟨hslice, halloc, -⟩ := ExclusiveMemoryPool.checkIdle_eq_some hpq
      have := hw p hp
      exact ⟨halloc ▸ this.aligned, hslice ▸ this.offset_zero, hslice ▸ this.padding_eq,
        hslice ▸ halloc ▸ this.fits⟩
  | drop handle =>
    simp only [step, Option.some.injEq] at h
    subst h
    exact hw

/-- The bytes a pool reports in use and in padding are at most the bytes it reserves. -/
theorem usage_le_reserved (holders : SliceId → Nat) (pool : ExclusiveMemoryPool)
    (hpages : ∀ page ∈ pool.pages, page.WellLaid pool.alignment) :
    (pool.getMemoryUsage holders).bytesInUse + (pool.getMemoryUsage holders).bytesPadding ≤
      (pool.getMemoryUsage holders).bytesReserved := by
  simp only [ExclusiveMemoryPool.getMemoryUsage, ← List.sum_map_add]
  calc ((pool.pages.filter _).map fun page => page.slice.storage.size + page.slice.padding).sum
      ≤ ((pool.pages.filter fun page => !page.slice.isFree holders).map (·.allocSize)).sum :=
        List.sum_le_sum fun page hp => (hpages page (List.mem_filter.1 hp).1).fits
    _ ≤ (pool.pages.map (·.allocSize)).sum :=
        ((List.filter_sublist _).map _).sum_le_sum fun _ _ => Nat.zero_le _

/-- A laid-out world: every page well laid, and the usage the pool reports within the bytes
it reserves. -/
structure LaidOut (w : World) : Prop where
  pages_wellLaid : w.WellLaid
  usage_le : (w.pool.getMemoryUsage w.holders).bytesInUse +
      (w.pool.getMemoryUsage w.holders).bytesPadding ≤ (w.pool.getMemoryUsage w.holders).bytesReserved

/-- **Page layout.** After any sequence of operations on a pool from `new` whose requests the
over-allocation covers, every page has an aligned size, a window at offset zero padded as
`calculate_padding` says, and the window and its padding inside the page; so
`get_memory_usage` reports `bytes_in_use + bytes_padding <= bytes_reserved`. -/
theorem exclusive_pool_page_layout {minAllocSize alignment deallocPeriod : Nat}
    {pool : ExclusiveMemoryPool} {ops : List Op}
    (hnew : ExclusiveMemoryPool.new minAllocSize alignment deallocPeriod = some pool)
    (hrun : (init pool).run overAlloc ops = some w) (hfits : ∀ op ∈ ops, op.Fits overAlloc) :
    w.LaidOut := by
  have hinit : (init pool).WellLaid := by
    unfold ExclusiveMemoryPool.new at hnew
    split at hnew
    · cases hnew; intro page hp; cases hp
    · cases hnew
  have hw : w.WellLaid := run_invariant (fun hw hfits hs => wellLaid_step hw hfits hs) hrun hfits hinit
  exact ⟨hw, usage_le_reserved _ _ hw⟩

theorem page_layout_after_alloc :
    ExclusiveMemoryPool.new 4 4 5 = some ⟨[], 4, 5, 0, 4, 4, Nat.succ_pos 3⟩ ∧
    (init ⟨[], 4, 5, 0, 4, 4, Nat.succ_pos 3⟩).run (· * 2) [.alloc 100 7 0] = some
      { (init ⟨[], 4, 5, 0, 4, 4, Nat.succ_pos 3⟩).handOut
        ⟨[⟨⟨⟨7, ⟨0, 100⟩⟩, 0, 0⟩, 200, 4⟩], 4, 5, 0, 4, 200, Nat.succ_pos 3⟩ 0 with
      live := Function.update (fun _ => false) 7 true } ∧
    (∀ op ∈ [Op.alloc 100 7 0], op.Fits (· * 2)) ∧
    World.LaidOut
      { (init ⟨[], 4, 5, 0, 4, 4, Nat.succ_pos 3⟩).handOut
        ⟨[⟨⟨⟨7, ⟨0, 100⟩⟩, 0, 0⟩, 200, 4⟩], 4, 5, 0, 4, 200, Nat.succ_pos 3⟩ 0 with
      live := Function.update (fun _ => false) 7 true } := by
  refine ⟨?hnew, ?hrun, ?hfits, exclusive_pool_page_layout ?hnew ?hrun ?hfits⟩
  · rfl
  · rfl
  · simp [Op.Fits]

end World

end CubeCl.Runtime
