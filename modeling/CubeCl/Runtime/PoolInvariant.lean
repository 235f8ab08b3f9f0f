import CubeCl.Runtime.PoolWorld
import Mathlib.Data.List.Nodup

/-!
# What every reachable world keeps

`World.Inv`: handles and buffers are unique to their pages, the storage's live
buffers are exactly the pages' buffers, each handle is held outside the pool at
most once and only while its page is in the pool, `last_dealloc_check` trails the last `alloc_nr`, and the free checks of a
page stay below its idle count, itself below `ALLOC_AFTER_FREE`. One lemma per
operation keeps it; `reachable_inv` folds them over runs.
-/

namespace CubeCl.Runtime

set_option autoImplicit false

theorem map_set_eq_of_getElem? {α β : Type} {f : α → β} {l : List α} {i : Nat} {a b : α}
    (hi : l[i]? = some a) (hab : f b = f a) : (l.set i b).map f = l.map f := by
  apply List.ext_getElem?
  intro j
  by_cases hij : i = j
  · subst hij
    obtain ⟨hlt, rfl⟩ := List.getElem?_eq_some_iff.1 hi
    simp [hlt, hab]
  · simp [List.getElem?_set, hij]

namespace World

/-- The invariant of reachable worlds. -/
structure Inv (w : World) : Prop where
  handles_nodup : w.pool.handles.Nodup
  storageIds_nodup : w.pool.storageIds.Nodup
  live_iff : ∀ id, w.live id = true ↔ id ∈ w.pool.storageIds
  holders_le_one : ∀ h, w.holders h ≤ 1
  held_mem : ∀ h, 0 < w.holders h → h ∈ w.pool.handles
  lastDeallocCheck_le : w.pool.lastDeallocCheck ≤ w.lastAllocNr
  freeCount_bound : ∀ page ∈ w.pool.pages,
    w.freeChecks page.slice.handle ≤ page.freeCount ∧ page.freeCount < allocAfterFree

variable {overAlloc : Nat → Nat} {w w' : World}

theorem inv_init (pool : ExclusiveMemoryPool) (hpages : pool.pages = [])
    (hcheck : pool.lastDeallocCheck = 0) : (init pool).Inv := by
  refine ⟨?_, ?_, ?_, ?_, ?_, ?_, ?_⟩ <;>
    simp [init, ExclusiveMemoryPool.handles, ExclusiveMemoryPool.storageIds, hpages, hcheck]

/-- Two pages of a world with unique handles that share a handle are the same page. -/
theorem Inv.page_eq_of_handle (hw : w.Inv) {p q : MemoryPage} (hp : p ∈ w.pool.pages)
    (hq : q ∈ w.pool.pages) (h : p.slice.handle = q.slice.handle) : p = q :=
  List.inj_on_of_nodup_map hw.handles_nodup hp hq h

theorem Inv.tryReserve (hw : w.Inv) {size : Nat}
    (h : w.step overAlloc (.tryReserve size) = some w') : w'.Inv := by
  obtain rfl | ⟨i, page, hfp, rfl⟩ := step_tryReserve_cases h
  · exact hw
  obtain ⟨hi, -, hfree, -⟩ := ExclusiveMemoryPool.getFreePage_eq_some hfp
  have hpage : page ∈ w.pool.pages := List.getElem?_mem hi
  have hzero : w.holders page.slice.handle = 0 := by simpa using hfree
  set page' := page.reserve size (calculatePadding size w.pool.alignment)
  have hmem : ∀ q ∈ w.pool.pages.set i page', q ∈ w.pool.pages ∨ q = page' :=
    fun q hq => List.mem_or_eq_of_mem_set hq
  have hhandles : (w.pool.pages.set i page').map (·.slice.handle) = w.pool.handles :=
    map_set_eq_of_getElem? hi rfl
  have hstorage : (w.pool.pages.set i page').map (·.slice.storage.id) = w.pool.storageIds :=
    map_set_eq_of_getElem? hi rfl
  refine ⟨?_, ?_, ?_, ?_, ?_, hw.lastDeallocCheck_le, ?_⟩
  · exact (congrArg List.Nodup hhandles).mpr hw.handles_nodup
  · exact (congrArg List.Nodup hstorage).mpr hw.storageIds_nodup
  · intro id
    exact (hw.live_iff id).trans (by rw [← hstorage]; rfl)
  · intro h'
    simp only [handOut, Function.update_apply]
    split
    · omega
    · exact hw.holders_le_one h'
  · intro h' hpos
    show h' ∈ (w.pool.pages.set i page').map (·.slice.handle)
    rw [hhandles]
    simp only [handOut, Function.update_apply] at hpos
    split at hpos
    · subst h'; exact List.mem_map_of_mem _ hpage
    · exact hw.held_mem h' hpos
  · intro q hq
    simp only [handOut, Function.update_apply]
    have hlt : q.freeCount < allocAfterFree := by
      rcases hmem q hq with hq | rfl
      · exact (hw.freeCount_bound q hq).2
      · exact Nat.lt_of_le_of_lt (Nat.sub_le _ _) (hw.freeCount_bound page hpage).2
    split
    · exact ⟨Nat.zero_le _, hlt⟩
    · rcases hmem q hq with hq | rfl
      · exact hw.freeCount_bound q hq
      · exact absurd rfl ‹_›

theorem Inv.alloc (hw : w.Inv) {size : Nat} {storage : StorageId} {handle : SliceId}
    (ha : w.Allowed (.alloc size storage handle))
    (h : w.step overAlloc (.alloc size storage handle) = some w') : w'.Inv := by
  obtain ⟨-, hsid, hhid⟩ := ha
  simp only [step, Option.map_eq_some'] at h
  obtain ⟨r, hr, rfl⟩ := h
  obtain ⟨-, -, rfl⟩ := ExclusiveMemoryPool.alloc_eq_some.1 hr
  have hzero : w.holders handle = 0 := Nat.eq_zero_of_not_pos fun hpos => hhid (hw.held_mem _ hpos)
  have hother : ∀ q ∈ w.pool.pages, q.slice.handle ≠ handle :=
    fun q hq he => hhid (he ▸ List.mem_map_of_mem _ hq)
  have hsother : ∀ q ∈ w.pool.pages, q.slice.storage.id ≠ storage :=
    fun q hq he => hsid (he ▸ List.mem_map_of_mem _ hq)
  refine ⟨?_, ?_, ?_, ?_, ?_, hw.lastDeallocCheck_le, ?_⟩
  · simpa [ExclusiveMemoryPool.handles, List.nodup_append] using ⟨hw.handles_nodup, hother⟩
  · simpa [ExclusiveMemoryPool.storageIds, List.nodup_append] using ⟨hw.storageIds_nodup, hsother⟩
  · intro id
    simp only [Function.update_apply, handOut_pool, ExclusiveMemoryPool.storageIds, List.map_append,
      List.mem_append, List.mem_singleton]
    split
    · simp_all
    · rw [hw.live_iff]; simp_all [ExclusiveMemoryPool.storageIds]
  · intro h'
    simp only [handOut, Function.update_apply]
    split
    · omega
    · exact hw.holders_le_one h'
  · intro h' hpos
    simp only [handOut, Function.update_apply] at hpos
    simp only [handOut_pool, ExclusiveMemoryPool.handles, List.map_append, List.mem_append]
    split at hpos
    · simp_all
    · exact .inl (hw.held_mem h' hpos)
  · intro q hq
    simp only [handOut_pool, List.mem_append, List.mem_singleton] at hq
    simp only [handOut, Function.update_apply]
    rcases hq with hq | rfl
    · rw [if_neg (hother q hq)]; exact hw.freeCount_bound q hq
    · simp [allocAfterFree]

theorem Inv.cleanup (hw : w.Inv) {allocNr : Nat} (ha : w.Allowed (.cleanup allocNr))
    (h : w.step overAlloc (.cleanup allocNr) = some w') : w'.Inv := by
  simp only [step, Option.map_eq_some'] at h
  obtain ⟨r, hr, rfl⟩ := h
  obtain ⟨-, ⟨hlt, rfl⟩ | ⟨hdue, rfl⟩⟩ := ExclusiveMemoryPool.cleanup_eq_some hr
  · have hcount : w.countFreeChecks allocNr = w.freeChecks := by
      simp only [countFreeChecks, ExclusiveMemoryPool.checkDue]
      rw [if_neg (by omega)]
    refine ⟨hw.handles_nodup, hw.storageIds_nodup, ?_, hw.holders_le_one, hw.held_mem,
      Nat.le_trans hw.lastDeallocCheck_le ha, ?_⟩
    · simpa using hw.live_iff
    · rw [hcount]; exact hw.freeCount_bound
  set kept := w.pool.pages.filter fun page => (page.checkIdle w.holders).isSome
  have hcount : w.countFreeChecks allocNr = fun h =>
      if h ∈ w.pool.freeHandles w.holders then w.freeChecks h + 1 else w.freeChecks h := by
    simp only [countFreeChecks]; rw [if_pos (show w.pool.checkDue allocNr from hdue)]
  have hhandles : (w.pool.pages.filterMap (MemoryPage.checkIdle w.holders)).map (·.slice.handle) =
      kept.map (·.slice.handle) := ExclusiveMemoryPool.filterMap_checkIdle_map (·.handle) _
  have hstorage : (w.pool.pages.filterMap (MemoryPage.checkIdle w.holders)).map (·.slice.storage.id) =
      kept.map (·.slice.storage.id) := ExclusiveMemoryPool.filterMap_checkIdle_map (·.storage.id) _
  have hsource : ∀ q ∈ w.pool.pages.filterMap (MemoryPage.checkIdle w.holders),
      ∃ p ∈ w.pool.pages, p.checkIdle w.holders = some q := fun q hq => List.mem_filterMap.1 hq
  refine ⟨?_, ?_, ?_, hw.holders_le_one, ?_, Nat.le_refl _, ?_⟩
  · show List.Nodup (List.map _ _)
    rw [hhandles]
    exact hw.handles_nodup.sublist ((List.filter_sublist _).map _)
  · show List.Nodup (List.map _ _)
    rw [hstorage]
    exact hw.storageIds_nodup.sublist ((List.filter_sublist _).map _)
  · intro id
    show _ ↔ id ∈ List.map _ _
    rw [hstorage]
    simp only [Bool.and_eq_true, Bool.not_eq_true', decide_eq_false_iff_not, hw.live_iff, ExclusiveMemoryPool.storageIds, List.mem_map, List.mem_filter, kept,
      Option.isNone_iff_eq_none, Option.isSome_iff_ne_none, ne_eq]
    constructor
    · rintro ⟨⟨p, hp, rfl⟩, hnot⟩
      exact ⟨p, ⟨hp, fun hnone => hnot ⟨p, ⟨hp, by simpa using hnone⟩, rfl⟩⟩, rfl⟩
    · rintro ⟨p, ⟨hp, hsome⟩, rfl⟩
      refine ⟨⟨p, hp, rfl⟩, ?_⟩
      rintro ⟨q, ⟨hq, hnone⟩, hqp⟩
      have := List.inj_on_of_nodup_map hw.storageIds_nodup hq hp hqp
      subst this
      exact hsome (by simpa using hnone)
  · intro h' hpos
    have hpos : 0 < w.holders h' := hpos
    obtain ⟨p, hp, rfl⟩ := List.mem_map.1 (hw.held_mem h' hpos)
    have hbusy : p.slice.isFree w.holders = false := by simp [Slice.isFree]; omega
    exact List.mem_map_of_mem _ (List.mem_filterMap.2
      ⟨p, hp, ExclusiveMemoryPool.checkIdle_of_not_free hbusy⟩)
  · intro q hq
    obtain ⟨p, hp, hpq⟩ := hsource q hq
    obtain ⟨hslice, -, hfree, hbusy⟩ := ExclusiveMemoryPool.checkIdle_eq_some hpq
    rw [hcount]
    simp only [hslice]
    cases hp_free : p.slice.isFree w.holders
    · obtain rfl := hbusy hp_free
      have : q.slice.handle ∉ w.pool.freeHandles w.holders := by
        simp only [ExclusiveMemoryPool.freeHandles, List.mem_map, List.mem_filter, not_exists,
          not_and, and_imp]
        intro r hr hrfree hrq
        rw [hw.page_eq_of_handle hr hp hrq] at hrfree
        simp_all
      rw [if_neg this]
      exact hw.freeCount_bound q hp
    · obtain ⟨hfc, hlt⟩ := hfree hp_free
      have : p.slice.handle ∈ w.pool.freeHandles w.holders :=
        List.mem_map_of_mem _ (List.mem_filter.2 ⟨hp, hp_free⟩)
      rw [if_pos this, hfc]
      exact ⟨Nat.succ_le_succ (hw.freeCount_bound p hp).1, hlt⟩

theorem Inv.drop (hw : w.Inv) {handle : SliceId} (h : w.step overAlloc (.drop handle) = some w') :
    w'.Inv := by
  simp only [step, Option.some.injEq] at h
  subst h
  refine ⟨hw.handles_nodup, hw.storageIds_nodup, hw.live_iff, ?_, ?_, hw.lastDeallocCheck_le,
    hw.freeCount_bound⟩
  · intro h'
    simp only [Function.update_apply]
    split
    · exact Nat.le_trans (Nat.sub_le _ _) (hw.holders_le_one _)
    · exact hw.holders_le_one h'
  · intro h' hpos
    simp only [Function.update_apply] at hpos
    split at hpos
    · subst h'; exact hw.held_mem _ (by omega)
    · exact hw.held_mem h' hpos

/-- Every allowed step keeps the invariant. -/
theorem Inv.step (hw : w.Inv) {op : Op} (ha : w.Allowed op) (h : w.step overAlloc op = some w') :
    w'.Inv := by
  cases op with
  | tryReserve size => exact hw.tryReserve h
  | alloc size storage handle => exact hw.alloc ha h
  | cleanup allocNr => exact hw.cleanup ha h
  | drop handle => exact hw.drop h

theorem reachable_inv (hw : Reachable overAlloc w) : w.Inv :=
  Reachable.invariant (fun pool hpages hcheck _ => inv_init pool hpages hcheck)
    (fun hinv ha hs => hinv.step ha hs) hw

end World

end CubeCl.Runtime
