import CubeCl.Runtime.Storage
import Mathlib.Data.List.Sort
import Mathlib.Algebra.BigOperators.Group.List
import Mathlib.Algebra.Order.Ring.Nat

/-!
# Shared memory offsets of a kernel body (`cubecl-cpp/src/shared/body.rs`)

Before declaring the shared memories of a kernel, `Display for Body` sorts them by
alignment, highest first, and gives each the offset `shared_offset.next_multiple_of(align)`,
then moves `shared_offset` past its bytes. The arithmetic is in `u32` on the host, where a
zero alignment or an overflow panics: `none` here.

Whenever the layout runs to the end, every offset is a multiple of its alignment and each
memory ends before the next begins (`layout_spec`); with power-of-two alignments and byte
sizes that are multiples of them, the descending order leaves no padding
(`layout_no_padding`). With positive alignments and an end offset that fits in `u32`, the
layout does run to the end (`layout_eq_some`).
-/

namespace CubeCl.Cpp

set_option autoImplicit false

open CubeCl.Runtime (nextMultipleOf le_nextMultipleOf nextMultipleOf_mod nextMultipleOf_le)

/-- Modelled from the spec: `SharedMemory` is not in the source. What `Body::fmt` reads of
one: its `align`, the byte size of its `item` (`item.size()`), its `size` in items, and the
`offset` it writes. -/
structure SharedMemory where
  align : Option Nat
  itemSize : Nat
  size : Nat
  offset : Nat
deriving DecidableEq, Repr

namespace SharedMemory

/-- `align.unwrap_or(item.size())`. -/
def alignment (shared : SharedMemory) : Nat := shared.align.getD shared.itemSize

/-- `size * item.size()`, exactly. -/
def bytes (shared : SharedMemory) : Nat := shared.size * shared.itemSize

/-- The memory without the offset `fmt` writes. -/
def declaration (shared : SharedMemory) : SharedMemory := { shared with offset := 0 }

@[simp] theorem alignment_setOffset (shared : SharedMemory) (o : Nat) :
    ({ shared with offset := o } : SharedMemory).alignment = shared.alignment := rfl

@[simp] theorem bytes_setOffset (shared : SharedMemory) (o : Nat) :
    ({ shared with offset := o } : SharedMemory).bytes = shared.bytes := rfl

@[simp] theorem declaration_setOffset (shared : SharedMemory) (o : Nat) :
    ({ shared with offset := o } : SharedMemory).declaration = shared.declaration := rfl

end SharedMemory

/-- `a * b` in `u32`; `none` where it overflows. -/
def mulU32 (a b : Nat) : Option Nat := if a * b < 2 ^ 32 then some (a * b) else none

/-- `a + b` in `u32`; `none` where it overflows. -/
def addU32 (a b : Nat) : Option Nat := if a + b < 2 ^ 32 then some (a + b) else none

/-- `u32::next_multiple_of`; `none` where `rhs` is zero or the result overflows. -/
def nextMultipleOfU32 (lhs rhs : Nat) : Option Nat :=
  if rhs = 0 then none
  else if nextMultipleOf lhs rhs < 2 ^ 32 then some (nextMultipleOf lhs rhs) else none

/-- The loop of `Body::fmt` over the sorted shared memories, from `shared_offset`: the memories
with the offsets it writes, and the final `shared_offset`. -/
def layout : Nat → List SharedMemory → Option (List SharedMemory × Nat)
  | sharedOffset, [] => some ([], sharedOffset)
  | sharedOffset, shared :: sharedMemories => do
    let align := shared.alignment
    let sizeBytes ← mulU32 shared.size shared.itemSize
    let offset ← nextMultipleOfU32 sharedOffset align
    let (declared, final) ← layout (← addU32 offset sizeBytes) sharedMemories
    return ({ shared with offset } :: declared, final)

/-- `sort_by_key(align.unwrap_or(item.size()))` then `reverse`: highest alignment first.
`sort_by_key` is stable, as insertion sort is. -/
def sortByAlignment (sharedMemories : List SharedMemory) : List SharedMemory :=
  (sharedMemories.insertionSort fun a b => a.alignment ≤ b.alignment).reverse

/-- `Display for Body`, up to the declarations: the shared memories with the offsets `fmt`
gives them, and the final `shared_offset`. -/
def Body.sharedMemoryLayout (sharedMemories : List SharedMemory) :
    Option (List SharedMemory × Nat) :=
  layout 0 (sortByAlignment sharedMemories)

/-- The final `shared_offset` of the loop from `sharedOffset`, in unbounded arithmetic. -/
def layoutEnd : Nat → List SharedMemory → Nat
  | sharedOffset, [] => sharedOffset
  | sharedOffset, shared :: sharedMemories =>
    layoutEnd (nextMultipleOf sharedOffset shared.alignment + shared.bytes) sharedMemories

theorem le_layoutEnd : ∀ (sharedOffset : Nat) (sharedMemories : List SharedMemory),
    sharedOffset ≤ layoutEnd sharedOffset sharedMemories
  | _, [] => Nat.le_refl _
  | sharedOffset, shared :: sharedMemories =>
    Nat.le_trans (Nat.le_trans (le_nextMultipleOf sharedOffset shared.alignment) (Nat.le_add_right _ _))
      (le_layoutEnd _ sharedMemories)

/-- One step of the loop: a positive alignment, the memory placed at the next multiple of it,
and the rest laid out from its end. -/
theorem layout_cons_eq_some {sharedOffset final : Nat} {shared : SharedMemory}
    {sharedMemories declared : List SharedMemory}
    (h : layout sharedOffset (shared :: sharedMemories) = some (declared, final)) :
    0 < shared.alignment ∧ ∃ rest,
      layout (nextMultipleOf sharedOffset shared.alignment + shared.bytes) sharedMemories =
        some (rest, final) ∧
      declared = { shared with offset := nextMultipleOf sharedOffset shared.alignment } :: rest := by
  simp only [layout, mulU32, nextMultipleOfU32, addU32] at h
  split_ifs at h with h1 h2 h3 h4 <;> simp [Option.bind_eq_some] at h
  obtain ⟨_, ⟨-, rfl⟩, rest, hl, rfl⟩ := h
  exact ⟨Nat.pos_of_ne_zero h2, rest, hl, rfl⟩

/-- With positive alignments, the loop fails only on a `u32` overflow: where its end offset
fits, it runs to the end. -/
theorem layout_eq_some : ∀ {sharedOffset : Nat} {sharedMemories : List SharedMemory},
    (∀ m ∈ sharedMemories, 0 < m.alignment) → layoutEnd sharedOffset sharedMemories < 2 ^ 32 →
    ∃ declared, layout sharedOffset sharedMemories = some (declared, layoutEnd sharedOffset sharedMemories)
  | _, [], _, _ => ⟨[], rfl⟩
  | sharedOffset, shared :: sharedMemories, hpos, hfit => by
    have hend := le_layoutEnd (nextMultipleOf sharedOffset shared.alignment + shared.bytes) sharedMemories
    obtain ⟨rest, hrest⟩ := layout_eq_some (fun m hm => hpos m (List.mem_cons_of_mem _ hm)) hfit
    have hne : shared.alignment ≠ 0 := Nat.pos_iff_ne_zero.1 (hpos shared (List.mem_cons_self _ _))
    have hbytes : shared.size * shared.itemSize < 2 ^ 32 := by
      simp only [layoutEnd, SharedMemory.bytes] at hfit hend; omega
    have hnext : nextMultipleOf sharedOffset shared.alignment < 2 ^ 32 := by
      simp only [layoutEnd] at hfit; omega
    have hsum : nextMultipleOf sharedOffset shared.alignment + shared.size * shared.itemSize < 2 ^ 32 := by
      simp only [layoutEnd, SharedMemory.bytes] at hfit hend; omega
    refine ⟨{ shared with offset := nextMultipleOf sharedOffset shared.alignment } :: rest, ?_⟩
    simp only [layout, mulU32, nextMultipleOfU32, addU32, if_pos hbytes, if_neg hne, if_pos hnext,
      if_pos hsum, Option.bind_eq_bind, Option.some_bind]
    rw [show shared.size * shared.itemSize = shared.bytes from rfl, hrest]
    rfl

/-- Every run of the loop that reaches its end keeps each memory's declaration, puts it at a
multiple of its alignment past the starting offset, and lays the memories out one after the
other, all ending by the final offset. -/
theorem layout_spec {sharedOffset final : Nat} {sharedMemories declared : List SharedMemory}
    (h : layout sharedOffset sharedMemories = some (declared, final)) :
    declared.map SharedMemory.declaration = sharedMemories.map SharedMemory.declaration ∧
    (∀ d ∈ declared, 0 < d.alignment ∧ d.offset % d.alignment = 0 ∧ sharedOffset ≤ d.offset ∧
      d.offset + d.bytes ≤ final) ∧
    declared.Pairwise (fun a b => a.offset + a.bytes ≤ b.offset) ∧ sharedOffset ≤ final := by
  induction sharedMemories generalizing sharedOffset declared with
  | nil =>
    simp only [layout, Option.some.injEq, Prod.mk.injEq] at h
    obtain ⟨rfl, rfl⟩ := h
    simp
  | cons shared sharedMemories ih =>
    obtain ⟨hpos, rest, hl, rfl⟩ := layout_cons_eq_some h
    obtain ⟨hdecl, hmem, hpair, hle⟩ := ih hl
    have hstart := le_nextMultipleOf sharedOffset shared.alignment
    refine ⟨by simp [hdecl], ?_, List.pairwise_cons.2 ⟨fun d hd => (hmem d hd).2.2.1, hpair⟩, by omega⟩
    simp only [List.mem_cons, forall_eq_or_imp, SharedMemory.alignment_setOffset,
      SharedMemory.bytes_setOffset]
    refine ⟨⟨hpos, nextMultipleOf_mod hpos, hstart, hle⟩, fun d hd => ?_⟩
    obtain ⟨h1, h2, h3, h4⟩ := hmem d hd
    exact ⟨h1, h2, by omega, h4⟩

/-- Of two powers of two, the smaller divides the larger. -/
theorem dvd_of_pow_two_le {a b : Nat} (ha : ∃ i, a = 2 ^ i) (hb : ∃ j, b = 2 ^ j) (h : a ≤ b) :
    a ∣ b := by
  obtain ⟨i, rfl⟩ := ha
  obtain ⟨j, rfl⟩ := hb
  exact Nat.pow_dvd_pow 2 ((Nat.pow_le_pow_iff_right (by decide)).1 h)

/-- From an offset that every alignment divides, memories in decreasing power-of-two alignment
whose byte sizes are multiples of their alignments are laid out back to back. -/
theorem layout_no_padding {sharedOffset final : Nat} {sharedMemories declared : List SharedMemory}
    (h : layout sharedOffset sharedMemories = some (declared, final))
    (hsorted : sharedMemories.Pairwise fun a b => b.alignment ≤ a.alignment)
    (hpow : ∀ m ∈ sharedMemories, ∃ k, m.alignment = 2 ^ k)
    (hbytes : ∀ m ∈ sharedMemories, m.bytes % m.alignment = 0)
    (hstart : ∀ m ∈ sharedMemories, sharedOffset % m.alignment = 0) :
    final = sharedOffset + (sharedMemories.map SharedMemory.bytes).sum := by
  induction sharedMemories generalizing sharedOffset declared with
  | nil =>
    simp only [layout, Option.some.injEq, Prod.mk.injEq] at h
    simp [h.2]
  | cons shared sharedMemories ih =>
    obtain ⟨-, rest, hl, -⟩ := layout_cons_eq_some h
    simp only [List.pairwise_cons, List.mem_cons, forall_eq_or_imp] at hsorted hpow hbytes hstart
    rw [show nextMultipleOf sharedOffset shared.alignment = sharedOffset from if_pos hstart.1] at hl
    have hnext : ∀ m ∈ sharedMemories, (sharedOffset + shared.bytes) % m.alignment = 0 := by
      intro m hm
      have hdvd := dvd_of_pow_two_le (hpow.2 m hm) hpow.1 (hsorted.1 m hm)
      exact Nat.mod_eq_zero_of_dvd (Nat.dvd_add (Nat.dvd_of_mod_eq_zero (hstart.2 m hm))
        (Nat.dvd_trans hdvd (Nat.dvd_of_mod_eq_zero hbytes.1)))
    rw [ih hl hsorted.2 hpow.2 hbytes.2 hnext, List.map_cons, List.sum_cons, Nat.add_assoc]

/-- The order `sortByAlignment` leaves: alignments never increase. -/
theorem sortByAlignment_sorted (sharedMemories : List SharedMemory) :
    (sortByAlignment sharedMemories).Pairwise fun a b => b.alignment ≤ a.alignment := by
  haveI : IsTotal SharedMemory fun a b => a.alignment ≤ b.alignment := ⟨fun a b => Nat.le_total _ _⟩
  haveI : IsTrans SharedMemory fun a b => a.alignment ≤ b.alignment := ⟨fun _ _ _ => Nat.le_trans⟩
  exact List.pairwise_reverse.2 (List.sorted_insertionSort _ sharedMemories)

theorem sortByAlignment_perm (sharedMemories : List SharedMemory) :
    (sortByAlignment sharedMemories).Perm sharedMemories :=
  (List.reverse_perm _).trans (List.perm_insertionSort _ _)

/-- `Body::fmt` lays out every list of shared memories with positive alignments whose end
offset fits in `u32`: each memory at a multiple of its alignment, the byte ranges in order and
disjoint, within the total; with power-of-two alignments dividing the byte sizes, the total is
the sum of the byte sizes. -/
theorem shared_memory_layout_disjoint (sharedMemories : List SharedMemory)
    (hpos : ∀ m ∈ sharedMemories, 0 < m.alignment)
    (hfit : layoutEnd 0 (sortByAlignment sharedMemories) < 2 ^ 32) :
    ∃ declared total, Body.sharedMemoryLayout sharedMemories = some (declared, total) ∧
      (declared.map SharedMemory.declaration).Perm (sharedMemories.map SharedMemory.declaration) ∧
      (∀ d ∈ declared, d.offset % d.alignment = 0 ∧ d.offset + d.bytes ≤ total) ∧
      declared.Pairwise (fun a b => a.offset + a.bytes ≤ b.offset) ∧
      ((∀ m ∈ sharedMemories, (∃ k, m.alignment = 2 ^ k) ∧ m.bytes % m.alignment = 0) →
        total = (sharedMemories.map SharedMemory.bytes).sum) := by
  have hperm := sortByAlignment_perm sharedMemories
  obtain ⟨declared, h⟩ := layout_eq_some (fun m hm => hpos m (hperm.mem_iff.1 hm)) hfit
  obtain ⟨hdecl, hmem, hpair, -⟩ := layout_spec h
  refine ⟨declared, _, h, hdecl ▸ hperm.map _, fun d hd => ⟨(hmem d hd).2.1, (hmem d hd).2.2.2⟩,
    hpair, fun hall => ?_⟩
  rw [layout_no_padding h (sortByAlignment_sorted _) (fun m hm => (hall m (hperm.mem_iff.1 hm)).1)
    (fun m hm => (hall m (hperm.mem_iff.1 hm)).2) (fun _ _ => Nat.zero_mod _), Nat.zero_add,
    (hperm.map _).sum_eq]

/-- Three memories of alignments 4, 2 (the item size) and 16: the 16-aligned one goes first. -/
theorem shared_memory_layout_three :
    (∀ m ∈ [(⟨some 4, 4, 1, 0⟩ : SharedMemory), ⟨none, 2, 3, 0⟩, ⟨some 16, 4, 8, 0⟩],
      0 < m.alignment) ∧
    layoutEnd 0 (sortByAlignment [⟨some 4, 4, 1, 0⟩, ⟨none, 2, 3, 0⟩, ⟨some 16, 4, 8, 0⟩]) < 2 ^ 32 ∧
    Body.sharedMemoryLayout [⟨some 4, 4, 1, 0⟩, ⟨none, 2, 3, 0⟩, ⟨some 16, 4, 8, 0⟩] =
      some ([⟨some 16, 4, 8, 0⟩, ⟨some 4, 4, 1, 32⟩, ⟨none, 2, 3, 36⟩], 42) ∧
    ∃ declared total, Body.sharedMemoryLayout
        [⟨some 4, 4, 1, 0⟩, ⟨none, 2, 3, 0⟩, ⟨some 16, 4, 8, 0⟩] = some (declared, total) ∧
      declared.Pairwise (fun a b => a.offset + a.bytes ≤ b.offset) :=
  ⟨by decide, by decide, by decide,
    (shared_memory_layout_disjoint _ (by decide) (by decide)).imp
      fun _ ⟨total, h, _, _, hpair, _⟩ => ⟨total, h, hpair⟩⟩

end CubeCl.Cpp
